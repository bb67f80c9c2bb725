import ClassPolicy.Proofs.Run
import Mathlib.Tactic.Common

/-!
# Agreement of the bundle with the single questions

The bundle is computed from what is remembered and from copies of the
registries; the single questions go to the memory and the registries. Right
after a bundle both give the same. For the roots this needs an invariant of
reachable engines: every root stands under the field it names.
-/

set_option autoImplicit false

namespace ClassPolicy

/-- Every root stands under the field that it names. -/
def RootRegistry.Keyed (r : RootRegistry) : Prop :=
  ∀ name field root, r.get? name field = some root → root.fieldName = field

theorem RootRegistry.add_keyed {root : RootDefinition} {r roots : RootRegistry}
    (added : r.add root = .ok roots) (keyed : r.Keyed) : roots.Keyed := by
  intro name field found present
  rw [get?_add added] at present
  split at present
  · rename_i own
    cases present
    exact own.2.symm
  · exact keyed name field found present

theorem RootRegistry.find?_rootsFor {r : RootRegistry} (keyed : r.Keyed) (name : TypeName)
    (field : String) :
    (r.rootsFor name).find? (fun root => root.fieldName = field) = r.get? name field := by
  have own : ∀ e ∈ r.entries, e.2.fieldName = e.1.field := fun e member =>
    keyed e.1.owner e.1.field e.2 (get?_eq_some_iff.2 member)
  simp only [rootsFor, FieldKey.scan_eq_filter r.increasing, get?]
  generalize r.entries = entries at own ⊢
  induction entries with
  | nil => rfl
  | cons e rest ih =>
    obtain ⟨⟨owner, key⟩, root⟩ := e
    have first : root.fieldName = key := own _ List.mem_cons_self
    have later := ih fun e member => own e (List.mem_cons_of_mem _ member)
    rw [SortedMap.lookup_cons_entry, List.filter_cons]
    by_cases here : owner = name
    · subst here
      by_cases found : key = field
      · simp [found, first]
      · simp [found, Ne.symm found, first, ← later]
    · simp [here, Ne.symm here, ← later]

theorem Registries.change_roots_keyed (r r' : Registries) (change : r.Change r')
    (keyed : r.roots.Keyed) : r'.roots.Keyed := by
  cases change with
  | aside change => cases change <;> exact keyed
  | root root roots added => exact RootRegistry.add_keyed added keyed
  | _ => exact keyed

namespace Engine

theorem Reachable.roots_keyed {e : Engine} (reached : Reachable e) :
    e.registries.roots.Keyed :=
  reached.registries_invariant (P := fun r => r.roots.Keyed) (fun _ _ _ _ => nofun)
    Registries.change_roots_keyed

/-! ### The transient fields -/

/-- The fields read by the scan, taken together with those of a spec, answer as
the two questions about one field do. -/
theorem contains_foldl_fieldsOf (t : TransientFields) (name : TypeName) (inSpec : SortedSet)
    (field : String) : ((t.fieldsOf name).foldl SortedSet.add inSpec).contains field =
      (inSpec.contains field || t.contains name field) := by
  have listed : (t.fieldsOf name).contains field = t.contains name field := by
    rw [Bool.eq_iff_iff, List.contains_iff_mem, TransientFields.mem_fieldsOf]
  rw [SortedSet.contains_foldl_add, listed]

/-! ### What a bundle remembers and reads -/

theorem modeGiven_remembers {e e' : Engine} {ty : TypeDescriptor} {transformable : Bool}
    {mode : TransformMode} (given : e.modeGiven ty transformable = (.ok mode, e')) :
    e'.cache.mode? ty.name e'.generation = some mode := by
  unfold modeGiven at given
  split at given
  · rename_i known
    cases given
    exact known
  · split at given
    · cases given
    · cases given
      simp [mode?_rememberMode]

theorem modeGiven_keeps_decision {e e' : Engine} {ty : TypeDescriptor} {transformable : Bool}
    {mode : TransformMode} (given : e.modeGiven ty transformable = (.ok mode, e'))
    (name : TypeName) :
    e'.cache.decision? name e'.generation = e.cache.decision? name e.generation := by
  unfold modeGiven at given
  split at given
  · cases given
    rfl
  · split at given
    · cases given
    · cases given
      rw [generation_rememberMode, decision?_rememberMode]

/-- A bundle is made of what is remembered after it and of the registries. -/
theorem decide_eq_ok {e e' : Engine} {ty : TypeDescriptor} {d : Bundle}
    (bundled : e.decide ty = (.ok d, e')) :
    ∃ adaptability mode disposition,
      e'.cache.decision? ty.name e'.generation = some adaptability ∧
      e'.cache.mode? ty.name e'.generation = some mode ∧
      e'.registries.rules.disposition ty = .ok disposition ∧
      d = e'.bundleOf ty adaptability mode disposition := by
  unfold decide at bundled
  split at bundled
  · cases bundled
  · rename_i adaptability e₁ explained
    split at bundled
    · cases bundled
    · rename_i mode e₂ given
      split at bundled
      · cases bundled
      · rename_i disposition resolved
        cases bundled
        refine ⟨adaptability, mode, disposition, ?_, modeGiven_remembers given, resolved, rfl⟩
        rw [modeGiven_keeps_decision given]
        exact explain_remembers explained

theorem explain_of_known {e : Engine} {ty : TypeDescriptor} {decision : Adaptability}
    (known : e.cache.decision? ty.name e.generation = some decision) :
    e.explain ty = (.ok decision, e) := by
  unfold explain
  rw [known]

theorem modeFor_of_known {e : Engine} {ty : TypeDescriptor} {mode : TransformMode}
    (known : e.cache.mode? ty.name e.generation = some mode) :
    e.modeFor ty = (.ok mode, e) := by
  unfold modeFor
  rw [known]

theorem attributesOf_of_disposition {r : Registries} {ty : TypeDescriptor}
    {disposition : Disposition} (resolved : r.rules.disposition ty = .ok disposition) :
    r.attributesOf ty = .ok (r.specs.get? ty.name, disposition.attributes?) := by
  unfold Registries.attributesOf
  rw [resolved]
  rfl

/-- What the bundle says of a type is what the engine answers. -/
structure Agrees (d : Bundle) (ty : TypeDescriptor) (e : Engine) : Prop where
  explain : e.perform (.explain ty) = (.ok d.adaptability, e)
  isTransformable : e.perform (.isTransformable ty) = (.ok d.adaptability.transformable, e)
  modeFor : e.perform (.modeFor ty) = (.ok d.mode, e)
  onLoad : e.perform (.onLoad ty) = (.ok d.onLoad, e)
  isTransient : ∀ field : FieldDescriptor,
    e.perform (.isTransient field.modifiers ty field.name) = (.ok (d.isTransient field), e)
  isVolatile : ∀ field : FieldDescriptor,
    e.perform (.isVolatile field.modifiers ty) = (.ok (d.isVolatile field), e)
  rootFor : ∀ field, e.perform (.root ty.name.text field) = (.ok (d.rootFor field), e)
  isLogical : e.perform (.isLogical ty.name.text) = (.ok d.isLogical, e)
  changeApplicator :
    e.perform (.changeApplicator ty.name.text) = (.ok d.changeApplicator, e)
  preCreate : e.perform (.preCreate ty.name.text) = (.ok d.preCreate, e)
  postCreate : e.perform (.postCreate ty.name.text) = (.ok d.postCreate, e)
  rewriter : ∃ registered own, e.perform (.rewriter ty.name.text) = (.ok registered, e) ∧
    e.perform (.spec ty.name.text) = (.ok own, e) ∧
    d.rewriter = (registered <|> own.bind (·.customRewriter))

theorem bundleOf_agrees {e : Engine} (keyed : e.registries.roots.Keyed) {ty : TypeDescriptor}
    {adaptability : Adaptability} {mode : TransformMode} {disposition : Disposition}
    (decided : e.cache.decision? ty.name e.generation = some adaptability)
    (moded : e.cache.mode? ty.name e.generation = some mode)
    (resolved : e.registries.rules.disposition ty = .ok disposition) :
    Agrees (e.bundleOf ty adaptability mode disposition) ty e := by
  have attributes := attributesOf_of_disposition resolved
  constructor
  · simp only [perform, explain_of_known decided]
    rfl
  · simp only [perform, isTransformable, explain_of_known decided]
    rfl
  · simp only [perform, modeFor_of_known moded]
    rfl
  · simp only [perform, Registries.onLoad, attributes]
    rfl
  · intro field
    simp only [perform, Registries.isTransient, attributes]
    simp only [Bundle.isTransient, bundleOf, contains_foldl_fieldsOf]
    cases e.registries.specs.get? ty.name <;> rfl
  · intro field
    simp only [perform, Registries.isVolatile, attributes]
    simp only [Bundle.isVolatile, bundleOf]
    cases field.modifiers.has .volatile <;> rfl
  · intro field
    simp only [perform, TypeName.ofString_text]
    simp only [Bundle.rootFor, bundleOf, RootRegistry.find?_rootsFor keyed]
    rfl
  · simp only [perform, TypeName.ofString_text]
    rfl
  · simp only [perform, TypeName.ofString_text]
    rfl
  · simp only [perform, TypeName.ofString_text]
    rfl
  · simp only [perform, TypeName.ofString_text]
    rfl
  · refine ⟨_, _, rfl, rfl, ?_⟩
    simp only [TypeName.ofString_text]
    rfl

/-- In a reachable engine, every answer right after a bundle is the one that
the bundle gives. -/
theorem decide_agrees {e e' : Engine} (reached : Reachable e) {ty : TypeDescriptor} {d : Bundle}
    (bundled : e.perform (.decide ty) = (.ok d, e')) : Agrees d ty e' := by
  have keyed : (e.perform (.decide ty)).2.registries.roots.Keyed :=
    (reached.called (.decide ty)).roots_keyed
  rw [bundled] at keyed
  simp only [perform, Engine.asked] at bundled
  cases made : e.decide ty with
  | mk answer left =>
    rw [made] at bundled
    cases answer with
    | error failure => cases bundled
    | ok bundle =>
      cases bundled
      obtain ⟨adaptability, mode, disposition, decided, moded, resolved, rfl⟩ := decide_eq_ok made
      exact bundleOf_agrees keyed decided moded resolved

def account : TypeDescriptor :=
  (TypeDescriptor.named (TypeName.ofString "acme.Account")).withField "owner" "acme.Owner"
    .publicOnly

/-- An account with a root, a transient field and a rewriter. -/
def ledger : Engine := (ofOptions {}).run [
  ⟨.addInclude "acme.*" { honorTransient := true }⟩,
  ⟨.addRoot { typeName := account.name, fieldName := "owner" } true⟩,
  ⟨.addTransient "acme.Account" "draft"⟩,
  ⟨.addRewriter "acme/Account" "acme.Rewriter"⟩]

theorem ledger_bundle_agrees :
    ∃ d, (ledger.perform (.decide account)).1 = .ok d ∧
      Agrees d account (ledger.perform (.decide account)).2 := by
  have succeeds : (ledger.perform (.decide account)).1.isOk = true := by decide +kernel
  cases made : (ledger.perform (.decide account)).1 with
  | error failure =>
    rw [made] at succeeds
    cases succeeds
  | ok d =>
    have reached : Reachable ledger := (Reachable.fresh {}).run _
    have bundled : ledger.perform (.decide account) =
        (.ok d, (ledger.perform (.decide account)).2) := by
      rw [← made, Prod.eta]
    exact ⟨d, rfl, decide_agrees reached bundled⟩

end Engine

end ClassPolicy
