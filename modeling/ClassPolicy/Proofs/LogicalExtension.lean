import ClassPolicy.Proofs.InventoryMerge
import ClassPolicy.Proofs.RuleOrder

/-!
# What logical types extend

A move makes a type extend the foundation of its super type: the type that the
super type extends, or else the super type itself. Nothing but a move gives a
type anything to extend, and nothing keeps a type from being moved under one
whose chain of extended types passes it. These moves, and no others, lead a
chain back to its start.
-/

set_option autoImplicit false

namespace ClassPolicy

open Relation (ReflTransGen TransGen)

/-! ### Chains of extended types -/

/-- The first type extends the second. -/
def Extends (extending : TypeName → Option TypeName) (a b : TypeName) : Prop :=
  extending a = some b

instance (extending : TypeName → Option TypeName) (a b : TypeName) :
    Decidable (Extends extending a b) :=
  inferInstanceAs (Decidable (extending a = some b))

/-- No chain of extended types leads back to the type where it starts. -/
def Acyclic (extending : TypeName → Option TypeName) : Prop :=
  ∀ name, ¬ TransGen (Extends extending) name name

section Chains

variable {extending : TypeName → Option TypeName} {name : TypeName}

theorem extends_update_iff {a b : TypeName} {base : Option TypeName} :
    Extends (Function.update extending name base) a b ↔
      if a = name then base = some b else Extends extending a b := by
  by_cases here : a = name
  · subst here
    simp [Extends]
  · simp [Extends, here]

theorem chain_of_free {base : TypeName} (free : extending base = none) :
    ReflTransGen (Extends extending) base name ↔ base = name := by
  constructor
  · intro chain
    obtain same | ⟨next, step, -⟩ := chain.cases_head
    · exact same
    · rw [Extends, free] at step
      cases step
  · rintro rfl
    exact .refl

/-- A chain up to a type does not depend on what that type extends. -/
theorem chain_update {a : TypeName} (base : Option TypeName)
    (chain : ReflTransGen (Extends extending) a name) :
    ReflTransGen (Extends (Function.update extending name base)) a name := by
  induction chain using ReflTransGen.head_induction_on with
  | refl => exact .refl
  | @head a b step _ ih =>
    by_cases here : a = name
    · subst here
      exact .refl
    · exact .head (extends_update_iff.2 (by rwa [if_neg here])) ih

/-- A chain that there is once a type extends another one was there before, or
passes the type and goes on from what it extends now. -/
theorem chain_of_update {base a b : TypeName}
    (chain : TransGen (Extends (Function.update extending name (some base))) a b) :
    TransGen (Extends extending) a b ∨
      ReflTransGen (Extends extending) a name ∧ ReflTransGen (Extends extending) base b := by
  induction chain with
  | @single b step =>
    rw [extends_update_iff] at step
    split at step
    · rename_i here
      cases here
      cases step
      exact .inr ⟨.refl, .refl⟩
    · exact .inl (.single step)
  | @tail c b _ step ih =>
    rw [extends_update_iff] at step
    split at step
    · rename_i here
      cases here
      cases step
      exact .inr ⟨ih.elim TransGen.to_reflTransGen And.left, .refl⟩
    · exact ih.imp (·.tail step) fun passed => ⟨passed.1, passed.2.tail step⟩

namespace Acyclic

theorem of_update_none (acyclic : Acyclic extending) :
    Acyclic (Function.update extending name none) := by
  intro a cycle
  refine acyclic a (TransGen.mono (fun b c step => ?_) a a cycle)
  rw [extends_update_iff] at step
  split at step
  · cases step
  · exact step

/-- A type may extend another one exactly if it is not on the chain from there. -/
theorem update_some_iff (acyclic : Acyclic extending) {base : TypeName} :
    Acyclic (Function.update extending name (some base)) ↔
      ¬ ReflTransGen (Extends extending) base name := by
  constructor
  · intro later chain
    have first : Extends (Function.update extending name (some base)) name base :=
      extends_update_iff.2 (by simp)
    exact later name (.head' first (chain_update _ chain))
  · intro apart a cycle
    rcases chain_of_update cycle with before | ⟨toName, fromBase⟩
    · exact acyclic a before
    · exact apart (fromBase.trans toName)

end Acyclic

end Chains

/-! ### What the specs say -/

namespace ClassSpec

theorem extending_edit {edit : SpecEdit} {spec edited : ClassSpec}
    (stays : ∀ superSpec, edit ≠ .moveToLogical superSpec)
    (made : ClassSpec.edit edit spec = .ok edited) : edited.extending = spec.extending := by
  cases edit with
  | moveToLogical superSpec => exact absurd rfl (stays superSpec)
  | _ =>
    cases made
    rfl

theorem extending_editAll {edits : List SpecEdit}
    (stay : ∀ edit ∈ edits, ∀ superSpec, edit ≠ .moveToLogical superSpec) (spec : ClassSpec) :
    (spec.editAll edits).1.extending = spec.extending := by
  induction edits generalizing spec with
  | nil => rfl
  | cons edit rest ih =>
    obtain ⟨first, later⟩ := List.forall_mem_cons.1 stay
    simp only [editAll]
    split
    · rfl
    · rename_i edited made
      rw [ih later, extending_edit first made]

end ClassSpec

namespace SpecStore

/-- What each type extends by its spec. -/
def extending (s : SpecStore) (name : TypeName) : Option TypeName :=
  (s.get? name).bind ClassSpec.extending

variable {s : SpecStore} {name : TypeName}

theorem extending_put (absent : s.get? name = none) (partition : Partition) {spec : ClassSpec}
    (free : spec.extending = none) : (s.put partition name spec).extending = s.extending := by
  funext name'
  rw [extending, extending, get?_put_of_absent absent]
  by_cases same : name' = name
  · simp [same, absent, free]
  · rw [if_neg same]

theorem extending_getOrInsert (name : TypeName) {make : ClassSpec} (free : make.extending = none)
    (s : SpecStore) : (s.getOrInsert name make).2.extending = s.extending := by
  unfold getOrInsert
  split
  · rfl
  · rename_i absent
    exact extending_put absent .live free

theorem Filed.extending_replace (filed : s.Filed) {old spec : ClassSpec}
    (present : s.get? name = some old) (own : spec.name = name) :
    (s.replace name spec).extending = Function.update s.extending name spec.extending := by
  funext name'
  rw [extending, (filed.replace present own).2]
  by_cases same : name' = name
  · simp [same]
  · simp [same, extending]

theorem Filed.getOrInsert (filed : s.Filed) (name : TypeName) :
    (s.getOrInsert name (.ofName name)).2.Filed := by
  unfold SpecStore.getOrInsert
  split
  · exact filed
  · rename_i absent
    have own : s.get? (ClassSpec.ofName name).name = none := absent
    exact filed.put .live own

/-- What types extend once the spec of one of them, made when missing, became
another one. -/
theorem Filed.extending_rewritten (filed : s.Filed) (name : TypeName) {spec : ClassSpec}
    (own : spec.name = (s.getOrInsert name (.ofName name)).1.name) :
    ((s.getOrInsert name (.ofName name)).2.replace name spec).extending =
      Function.update s.extending name spec.extending := by
  have made := filed.getOrInsert name
  have present := Registries.get?_getOrInsert s name (.ofName name)
  rw [made.extending_replace present (own.trans (made.name_eq present)),
    extending_getOrInsert name (by rfl)]

theorem extending_remove (name : TypeName) (s : SpecStore) :
    (s.remove name).2.extending = Function.update s.extending name none := by
  funext name'
  by_cases same : name' = name
  · simp [extending, remove, get?, SortedMap.get?_erase, same]
  · simp [extending, remove, get?, SortedMap.get?_erase, TypeName.text_inj, same]

theorem extending_markAllPreInstrumented (s : SpecStore) :
    s.markAllPreInstrumented.extending = s.extending := by
  funext name
  simp only [extending]
  rcases get?_markAllPreInstrumented s name with same | marked
  · rw [same]
  · rw [marked, Option.bind_map]
    rfl

end SpecStore

/-! ### What a call does -/

namespace Registries

/-- What a type that is moved under this one comes to extend. -/
def foundation (r : Registries) (name : TypeName) : TypeName := (r.extending name).getD name

theorem extending_eq (r : Registries) : r.extending = r.specs.extending := rfl

end Registries

namespace Call

variable {α : Type}

/-- The call adds no spec that extends a type and edits no spec to be logical
under another one. -/
def Orderly : Call α → Prop
  | .addSpec _ added => added.extending = none
  | .addSpecIfAbsent _ added => added.extending = none
  | .updateSpec _ edits => ∀ edit ∈ edits, ∀ superSpec, edit ≠ .moveToLogical superSpec
  | _ => True

/-- What types extend after an orderly call. A move under a type that is not
logical fails. -/
def extendingAfter : Call α → Registries → TypeName → Option TypeName
  | .moveToLogical name superName, r =>
    if r.isLogical (TypeName.ofString superName) then
      Function.update r.extending (TypeName.ofString name)
        (some (r.foundation (TypeName.ofString superName)))
    else r.extending
  | .removeSpec name, r => Function.update r.extending (TypeName.ofString name) none
  | _, r => r.extending

/-- The call moves a type under one whose foundation is the type itself or
leads to it. -/
def ClosesCycle : Call α → Registries → Prop
  | .moveToLogical name superName, r =>
    r.isLogical (TypeName.ofString superName) = true ∧
      ReflTransGen (Extends r.extending) (r.foundation (TypeName.ofString superName))
        (TypeName.ofString name)
  | _, _ => False

/-- A move onto a foundation that extends nothing closes no cycle, unless the
foundation itself is moved. -/
theorem not_closesCycle {name superName : String} {r : Registries}
    (free : r.extending (r.foundation (TypeName.ofString superName)) = none)
    (other : r.foundation (TypeName.ofString superName) ≠ TypeName.ofString name) :
    ¬ (Call.moveToLogical name superName).ClosesCycle r :=
  fun ⟨_, chain⟩ => other ((chain_of_free free).1 chain)

end Call

namespace Engine

theorem extending_addSpec {spec : ClassSpec} (free : spec.extending = none)
    (partition : Partition) (e : Engine) :
    (e.addSpec partition spec).2.registries.extending = e.registries.extending := by
  unfold addSpec SpecStore.insert
  split
  · rfl
  · rename_i specs inserted
    split at inserted
    · cases inserted
    · rename_i present
      cases inserted
      exact SpecStore.extending_put (by simpa [SpecStore.contains] using present) partition free

theorem extending_addSpecIfAbsent {spec : ClassSpec} (free : spec.extending = none)
    (partition : Partition) (e : Engine) :
    (e.addSpecIfAbsent partition spec).2.registries.extending = e.registries.extending := by
  rw [snd_addSpecIfAbsent]
  split
  · rfl
  · rename_i present
    exact SpecStore.extending_put (by simpa [SpecStore.contains] using present) partition free

theorem extending_getOrCreate {make : ClassSpec} (free : make.extending = none) (name : TypeName)
    (e : Engine) : (e.getOrCreate name make).2.registries.extending = e.registries.extending := by
  unfold getOrCreate
  split
  · rfl
  · rename_i absent
    exact SpecStore.extending_put absent .live free

theorem extending_addRoot (root : RootDefinition) (createSpec : Bool) (e : Engine) :
    (e.addRoot root createSpec).2.registries.extending = e.registries.extending := by
  unfold addRoot
  split
  · rfl
  · cases createSpec with
    | false => rfl
    | true => exact SpecStore.extending_getOrInsert root.typeName (by rfl) e.registries.specs

theorem extending_addRootForField (qualified : String) (rootName : Option String) (e : Engine) :
    (e.addRootForField qualified rootName).2.registries.extending = e.registries.extending := by
  unfold addRootForField
  split
  · rfl
  · exact extending_addRoot _ false e

theorem extending_updateSpec {edits : List SpecEdit}
    (stay : ∀ edit ∈ edits, ∀ superSpec, edit ≠ .moveToLogical superSpec) (name : String)
    {e : Engine} (filed : e.registries.specs.Filed) :
    (e.updateSpec name edits).2.registries.extending = e.registries.extending := by
  have rewritten := filed.extending_rewritten (TypeName.ofString name)
    (ClassSpec.name_editAll edits _)
  have kept : (e.registries.specs.getOrInsert (TypeName.ofString name)
      (.ofName (TypeName.ofString name))).1.extending =
        e.registries.specs.extending (TypeName.ofString name) := by
    have free : (ClassSpec.ofName (TypeName.ofString name)).extending = none := rfl
    rw [← SpecStore.extending_getOrInsert (TypeName.ofString name) free, SpecStore.extending,
      Registries.get?_getOrInsert]
    rfl
  rw [ClassSpec.extending_editAll stay, kept, Function.update_eq_self] at rewritten
  simp only [updateSpec]
  split <;> exact rewritten

theorem extending_moveToLogical (name superName : String) {e : Engine}
    (filed : e.registries.specs.Filed) :
    (e.moveToLogical name superName).2.registries.extending =
      (Call.moveToLogical name superName).extendingAfter e.registries := by
  unfold moveToLogical
  split
  · rename_i missing
    simp [Call.extendingAfter, Registries.isLogical, missing, refused]
  · rename_i superSpec found
    have own : superSpec.name = TypeName.ofString superName := filed.name_eq found
    cases logical : superSpec.logical with
    | none =>
      have plain : e.registries.isLogical (TypeName.ofString superName) = false := by
        simp [Registries.isLogical, found, ClassSpec.isLogical, logical]
      simp only [ClassSpec.moveToLogical, logical, Call.extendingAfter, plain, Bool.false_eq_true,
        if_false]
      exact SpecStore.extending_getOrInsert _ (by rfl) e.registries.specs
    | some designation =>
      have super : e.registries.isLogical (TypeName.ofString superName) = true := by
        simp [Registries.isLogical, found, ClassSpec.isLogical, logical]
      have base : e.registries.foundation (TypeName.ofString superName) =
          designation.extending.getD superSpec.name := by
        simp [Registries.foundation, Registries.extending, found, ClassSpec.extending, logical, own]
      simp only [ClassSpec.moveToLogical, logical, Call.extendingAfter, super, if_true, base]
      exact filed.extending_rewritten (TypeName.ofString name) rfl

theorem extending_removeSpec (name : String) (e : Engine) :
    (e.removeSpec name).2.registries.extending =
      (Call.removeSpec name).extendingAfter e.registries := by
  have removed := SpecStore.extending_remove (TypeName.ofString name) e.registries.specs
  simp only [removeSpec, Call.extendingAfter]
  split
  · rename_i found
    have absent : e.registries.specs.get? (TypeName.ofString name) = none :=
      congrArg Prod.fst found
    rw [eq_comm, Function.update_eq_self_iff]
    simp [Registries.extending, absent]
  · rename_i spec specs found
    rw [found] at removed
    exact removed

theorem extending_addMissingSpecs {specs : List ClassSpec}
    (free : ∀ spec ∈ specs, spec.extending = none) (partition : Partition) (e : Engine) :
    (e.addMissingSpecs partition specs).2.registries.extending = e.registries.extending :=
  addMissingSpecs_along (R := fun e e' => e'.registries.extending = e.registries.extending)
    (fun _ => rfl) (fun one two => two.trans one)
    (fun spec member => extending_addSpecIfAbsent (free spec member) partition) e

theorem extending_mergeInventory (manifest : Manifest) (e : Engine) :
    (e.mergeInventory manifest).2.registries.extending = e.registries.extending := by
  refine extending_addMissingSpecs (fun spec member => ?_) .inventory e
  obtain ⟨name, -, rfl⟩ := List.mem_map.1 member
  rfl

/-- The built-in defaults come without moves. -/
theorem extending_install (e : Engine) :
    (Builtins.install e).2.registries.extending = e.registries.extending := by
  have all : Builtins.specs.all (fun spec => spec.extending.isNone) = true := by decide +kernel
  have free : ∀ spec ∈ Builtins.specs, spec.extending = none := by simpa using all
  exact install_along (P := fun r => r.extending = e.registries.extending) rfl
    fun spec member e' same => (extending_addSpecIfAbsent (free spec member) .live e').trans same

theorem specs_applyPolicy (policy : PolicySettings) (e : Engine) :
    (e.applyPolicy policy).2.registries.specs = e.registries.specs := by
  cases checked : policy.validate with
  | error error => simp [applyPolicy, checked, refused]
  | ok _ =>
    have applied := applyPolicy_applied (PolicySettings.validate_eq_ok_iff.1 checked) e
    generalize done : applyPolicy policy e = outcome at applied ⊢
    cases applied with
    | all free left => simp [left, Registries.configured]
    | duplicate taken left => simp [left, Registries.configured]

theorem extending_admitInventory (settings : InventorySettings) (file : FileContent)
    (e : Engine) :
    (admitInventory settings file e).2.registries.extending = e.registries.extending := by
  unfold admitInventory
  split
  · rfl
  · split
    · rfl
    · rename_i manifest _
      refine thenWith_along (R := fun e e' => e'.registries.extending = e.registries.extending)
        (fun one two => two.trans one) (extending_mergeInventory manifest e) fun _ e' => ?_
      split
      · exact congrArg Registries.extending (requireInventory_registries manifest e')
      · rfl

/-- What an orderly call does to what types extend. -/
theorem extending_perform {α : Type} {c : Call α} (orderly : c.Orderly) {e : Engine}
    (filed : e.registries.specs.Filed) :
    (e.perform c).2.registries.extending = c.extendingAfter e.registries := by
  cases c with
  | addSpec partition spec => exact extending_addSpec orderly partition e
  | addSpecIfAbsent partition spec => exact extending_addSpecIfAbsent orderly partition e
  | getOrCreateSpec name => exact extending_getOrCreate (by rfl) _ e
  | getOrCreateLogicalSpec name applicator => exact extending_getOrCreate (by rfl) _ e
  | updateSpec name edits => exact extending_updateSpec orderly name filed
  | moveToLogical name superName => exact extending_moveToLogical name superName filed
  | removeSpec name => exact extending_removeSpec name e
  | markAllPreInstrumented => exact SpecStore.extending_markAllPreInstrumented e.registries.specs
  | addRoot root createSpec => exact extending_addRoot root createSpec e
  | addRootForField qualified rootName => exact extending_addRootForField qualified rootName e
  | installBuiltins => exact extending_install e
  | applyPolicy policy => exact congrArg SpecStore.extending (specs_applyPolicy policy e)
  | mergeInventory manifest => exact extending_mergeInventory manifest e
  | explain ty => exact congrArg Registries.extending (explain_registries ty e)
  | isTransformable ty => exact congrArg Registries.extending (explain_registries ty e)
  | modeFor ty => exact congrArg Registries.extending (modeFor_registries ty e)
  | decide ty => exact congrArg Registries.extending (decide_registries ty e)
  | setAllowsDynamicSubtypes allow =>
    exact congrArg (·.specs.extending) (registries_setAllowsDynamicSubtypes allow e)
  | addRules block =>
    simp only [perform, addRules]
    split
    · rfl
    · split <;> rfl
  | includeAndLock ty pattern attributes lockPattern =>
    simp only [perform, includeAndLock_eq]
    split
    · rfl
    · split <;> rfl
  | removeRewriter name =>
    simp only [perform, answered, removeRewriter]
    split <;> rfl
  | addLock pattern definition =>
    simp only [perform, addLock]
    split <;> rfl
  | addAutolock pattern level provenance =>
    simp only [perform, addAutolock_eq]
    rfl
  | addTransient typeName field =>
    simp only [perform, addTransient]
    split <;> rfl
  | _ => rfl

/-! ### Along a run -/

theorem extending_groundFor (p : PolicySettings) (name : TypeName) :
    (groundFor p).registries.extending name = none := by
  simp only [groundFor]
  split
  · rw [extending_install]
    rfl
  · rfl

/-- No type extends another one in an engine that options or settings give. -/
theorem Started.extending {e : Engine} {first : List Rule} (started : Started e first)
    (name : TypeName) : e.registries.extending name = none := by
  cases started with
  | fresh options => rfl
  | @bootstrapped settings file booted =>
    obtain ⟨sound, -⟩ := registries_bootstrap booted
    rcases bootstrap_cases sound file with ⟨-, _, _, _, -, left⟩ | ⟨-, _, e, left, -, kept⟩
    · rw [left]
      exact extending_groundFor settings.policy name
    · rw [kept, extending_admitInventory, Registries.extending_eq, left, Registries.specs_completed]
      exact extending_groundFor settings.policy name

theorem Started.acyclic {e : Engine} {first : List Rule} (started : Started e first) :
    Acyclic e.registries.extending := by
  intro name cycle
  obtain ⟨base, step, -⟩ := TransGen.head'_iff.1 cycle
  rw [Extends, started.extending] at step
  cases step

/-- A call keeps the chains from leading back exactly if it is no move that
closes a cycle. -/
theorem acyclic_perform_iff {α : Type} {c : Call α} (orderly : c.Orderly) {e : Engine}
    (filed : e.registries.specs.Filed) (acyclic : Acyclic e.registries.extending) :
    Acyclic (e.perform c).2.registries.extending ↔ ¬ c.ClosesCycle e.registries := by
  rw [extending_perform orderly filed]
  cases c with
  | moveToLogical name superName =>
    simp only [Call.extendingAfter, Call.ClosesCycle]
    split
    · rename_i logical
      simp [acyclic.update_some_iff, logical]
    · rename_i plain
      simp [acyclic, plain]
  | removeSpec name => exact iff_of_true acyclic.of_update_none id
  | _ => exact iff_of_true acyclic id

theorem run_append (before after : List AnyCall) (e : Engine) :
    e.run (before ++ after) = (e.run before).run after :=
  List.foldl_append

/-- Along a run that gives types something to extend only by moves, no chain of
extended types ever leads back to its start exactly if no move is made of a
type that the foundation of its new super type is or leads to. -/
theorem acyclic_along_run_iff {e : Engine} {first : List Rule} (started : Started e first)
    {calls : List AnyCall} (orderly : ∀ c ∈ calls, c.call.Orderly) :
    (∀ n, Acyclic (e.run (calls.take n)).registries.extending) ↔
      ∀ n (c : AnyCall), calls[n]? = some c →
        ¬ c.call.ClosesCycle (e.run (calls.take n)).registries := by
  have step : ∀ n (c : AnyCall), calls[n]? = some c →
      Acyclic (e.run (calls.take n)).registries.extending →
        (Acyclic (e.run (calls.take (n + 1))).registries.extending ↔
          ¬ c.call.ClosesCycle (e.run (calls.take n)).registries) := by
    intro n c made acyclic
    have filed := (started.reachable.run (calls.take n)).specs_filed
    rw [List.take_add_one, made, run_append]
    exact acyclic_perform_iff (orderly c (List.mem_of_getElem? made)) filed acyclic
  constructor
  · exact fun acyclic n c made => (step n c made (acyclic n)).1 (acyclic (n + 1))
  · intro apart n
    induction n with
    | zero => exact started.acyclic
    | succ n ih =>
      cases made : calls[n]? with
      | none => simpa [List.take_add_one, made] using ih
      | some c => exact (step n c made ih).2 (apart n c made)

/-- A catalog is moved under a base, and an index under the catalog. -/
def catalogMoves : List AnyCall := [
  ⟨.getOrCreateLogicalSpec "acme.Base" "acme.Applicator"⟩,
  ⟨.moveToLogical "acme.Catalog" "acme.Base"⟩, ⟨.moveToLogical "acme.Index" "acme.Catalog"⟩]

theorem catalogMoves_acyclic :
    (∀ n, Acyclic ((ofOptions {}).run (catalogMoves.take n)).registries.extending) ∧
      ((ofOptions {}).run catalogMoves).registries.extending (TypeName.ofString "acme.Index") =
        some (TypeName.ofString "acme.Base") := by
  have orderly : ∀ c ∈ catalogMoves, c.call.Orderly := by simp [catalogMoves, Call.Orderly]
  constructor
  · refine (acyclic_along_run_iff (.fresh {}) orderly).2 fun n c made => ?_
    rcases n with _ | _ | _ | n
    · cases made
      exact id
    · cases made
      exact Call.not_closesCycle (by decide +kernel) (by decide +kernel)
    · cases made
      exact Call.not_closesCycle (by decide +kernel) (by decide +kernel)
    · cases made
  · decide +kernel

/-- A base is moved under itself. -/
def baseMoves : List AnyCall := [
  ⟨.getOrCreateLogicalSpec "acme.Base" "acme.Applicator"⟩,
  ⟨.moveToLogical "acme.Base" "acme.Base"⟩]

/-- Each of three types is moved under the next one, and the last under the
first. -/
def ringMoves : List AnyCall := [
  ⟨.getOrCreateLogicalSpec "acme.Base" "acme.Applicator"⟩,
  ⟨.getOrCreateLogicalSpec "acme.Catalog" "acme.Applicator"⟩,
  ⟨.moveToLogical "acme.Index" "acme.Catalog"⟩, ⟨.moveToLogical "acme.Catalog" "acme.Base"⟩,
  ⟨.moveToLogical "acme.Base" "acme.Index"⟩]

/-- The base extends itself, and in the ring the base and the catalog extend
each other. -/
theorem moved_types_lead_back :
    Started (ofOptions {}) [] ∧
    (∀ c ∈ baseMoves ++ ringMoves, c.call.Orderly) ∧
    ((ofOptions {}).run baseMoves).registries.extending (TypeName.ofString "acme.Base") =
      some (TypeName.ofString "acme.Base") ∧
    ¬ Acyclic ((ofOptions {}).run baseMoves).registries.extending ∧
    ¬ Acyclic ((ofOptions {}).run ringMoves).registries.extending := by
  have itself : Extends ((ofOptions {}).run baseMoves).registries.extending
      (TypeName.ofString "acme.Base") (TypeName.ofString "acme.Base") := by
    decide +kernel
  have there : Extends ((ofOptions {}).run ringMoves).registries.extending
      (TypeName.ofString "acme.Catalog") (TypeName.ofString "acme.Base") := by
    decide +kernel
  have back : Extends ((ofOptions {}).run ringMoves).registries.extending
      (TypeName.ofString "acme.Base") (TypeName.ofString "acme.Catalog") := by
    decide +kernel
  refine ⟨.fresh {}, by simp [baseMoves, ringMoves, Call.Orderly], itself, ?_, ?_⟩
  · exact fun acyclic => acyclic _ (.single itself)
  · exact fun acyclic => acyclic _ (.head there (.single back))

end Engine

end ClassPolicy
