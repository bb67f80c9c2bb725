import ClassPolicy.Proofs.RegistrationSteps

/-!
# The steps of a run

Every call takes an engine through finitely many steps, and so does every run.
An engine is reachable when options or settings give it or calls lead to it;
what holds of fresh engines and is preserved by every step holds of all
reachable ones.
-/

set_option autoImplicit false

namespace ClassPolicy.Engine

section Steps

variable {asked : TypeDescriptor → Prop} {stranding : Prop}

theorem explain_steps {ty : TypeDescriptor} (ask : asked ty) (e : Engine) :
    Steps asked stranding e (e.explain ty).2 := by
  unfold explain
  split
  · exact .refl
  · rename_i unknown
    split
    · exact .refl
    · rename_i found
      exact .single (.decided ask unknown found)

theorem explain_remembers {e e' : Engine} {ty : TypeDescriptor} {decision : Adaptability}
    (h : e.explain ty = (.ok decision, e')) :
    e'.cache.decision? ty.name e'.generation = some decision := by
  unfold explain at h
  split at h
  · rename_i known
    cases h
    exact known
  · split at h
    · cases h
    · cases h
      simp [decision?_rememberDecision]

theorem modeGiven_steps {ty : TypeDescriptor} {decision : Adaptability} (ask : asked ty)
    {e : Engine} (known : e.cache.decision? ty.name e.generation = some decision) :
    Steps asked stranding e (e.modeGiven ty decision.transformable).2 := by
  unfold modeGiven
  split
  · exact .refl
  · split
    · exact .refl
    · rename_i found
      exact .single (.moded ask known found)

theorem modeFor_steps {ty : TypeDescriptor} (ask : asked ty) (e : Engine) :
    Steps asked stranding e (e.modeFor ty).2 := by
  have first : Steps asked stranding e (e.explain ty).2 := explain_steps ask e
  unfold modeFor
  split
  · exact .refl
  · split
    · rename_i explained
      rwa [explained] at first
    · rename_i explained
      rw [explained] at first
      exact first.trans (modeGiven_steps ask (explain_remembers explained))

theorem decide_steps {ty : TypeDescriptor} (ask : asked ty) (e : Engine) :
    Steps asked stranding e (e.decide ty).2 := by
  have first : Steps asked stranding e (e.explain ty).2 := explain_steps ask e
  unfold decide
  split
  · rename_i explained
    rwa [explained] at first
  · rename_i decision e₁ explained
    rw [explained] at first
    have second : Steps asked stranding e₁ (e₁.modeGiven ty decision.transformable).2 :=
      modeGiven_steps ask (explain_remembers explained)
    split
    · rename_i moded
      rw [moded] at second
      exact first.trans second
    · rename_i moded
      rw [moded] at second
      split <;> exact first.trans second

/-- A call takes an engine through steps that ask on no type but its own, and
that leave a spec behind only if the call strands one. -/
theorem perform_steps {α : Type} (c : Call α) (e : Engine)
    (ask : ∀ ty, c.asks = some ty → asked ty)
    (allow : c.strands e.registries ≠ none → stranding) :
    Steps asked stranding e (e.perform c).2 := by
  cases c with
  | addInclude pattern attributes => exact addInclude_steps pattern attributes e
  | addExclude pattern => exact addExclude_steps pattern e
  | addRules block => exact addRules_steps block e
  | includeAndLock ty pattern attributes lockPattern =>
    exact includeAndLock_steps ty pattern attributes lockPattern e
  | addPermanentExclude pattern => exact addPermanentExclude_steps pattern e
  | addNonPortable pattern => exact addNonPortable_steps pattern e
  | setAllowsDynamicSubtypes value => exact setAllowsDynamicSubtypes_steps value e
  | addRewriter name id => exact addRewriter_steps name id e
  | removeRewriter name => exact removeRewriter_steps name e
  | addSpec partition spec => exact addSpec_steps partition spec e
  | addSpecIfAbsent partition spec => exact addSpecIfAbsent_steps partition spec e
  | getOrCreateSpec name => exact getOrCreate_steps (.ofName (TypeName.ofString name)) e
  | getOrCreateLogicalSpec name applicator =>
    exact getOrCreate_steps (.ofApplicator (TypeName.ofString name) applicator) e
  | updateSpec name edits => exact updateSpec_steps name edits e
  | moveToLogical name superName => exact moveToLogical_steps name superName e allow
  | removeSpec name => exact removeSpec_steps name e
  | markAllPreInstrumented => exact .single (.adjusted .marked)
  | addRoot root createSpec => exact addRoot_steps root createSpec e
  | addRootForField qualified rootName => exact addRootForField_steps qualified rootName e
  | addLock pattern definition => exact addLock_steps pattern definition e
  | addAutolock pattern level provenance => exact addAutolock_steps pattern level provenance e
  | addAutolockExclude pattern => exact addAutolockExclude_steps pattern e
  | addDistributed method => exact addDistributed_steps method e
  | addTransient typeName field => exact addTransient_steps typeName field e
  | explain ty => exact explain_steps (ask ty rfl) e
  | isTransformable ty => exact explain_steps (ask ty rfl) e
  | modeFor ty => exact modeFor_steps (ask ty rfl) e
  | decide ty => exact decide_steps (ask ty rfl) e
  | installBuiltins => exact install_steps e
  | applyPolicy policy => exact applyPolicy_steps policy e
  | mergeInventory manifest => exact mergeInventory_steps manifest e
  | verifyInventory manifest => exact .single (.reported _)
  | _ => exact .refl

end Steps

@[simp] theorem run_nil (e : Engine) : e.run [] = e := rfl

@[simp] theorem run_cons (c : AnyCall) (calls : List AnyCall) (e : Engine) :
    e.run (c :: calls) = (e.perform c.call).2.run calls := rfl

/-- The types whose decision or mode a run asks for. -/
def typesAsked (calls : List AnyCall) : List TypeDescriptor := calls.filterMap (·.call.asks)

theorem mem_typesAsked {c : AnyCall} {calls : List AnyCall} (member : c ∈ calls)
    {ty : TypeDescriptor} (asks : c.call.asks = some ty) : ty ∈ typesAsked calls :=
  List.mem_filterMap.2 ⟨c, member, asks⟩

theorem typesAsked_subset {calls calls' : List AnyCall} (within : calls ⊆ calls') :
    typesAsked calls ⊆ typesAsked calls' := by
  intro ty member
  obtain ⟨c, present, asks⟩ := List.mem_filterMap.1 member
  exact mem_typesAsked (within present) asks

/-- A run in which any failing move may strand a spec. -/
theorem run_steps {asked : TypeDescriptor → Prop} (calls : List AnyCall) (e : Engine)
    (ask : ∀ ty ∈ typesAsked calls, asked ty) : Steps asked True e (e.run calls) := by
  induction calls generalizing e with
  | nil => exact .refl
  | cons c rest ih =>
    rw [run_cons]
    have first : Steps asked True e (e.perform c.call).2 :=
      perform_steps c.call e (fun ty asks => ask ty (mem_typesAsked List.mem_cons_self asks))
        (fun _ => trivial)
    exact first.trans (ih _ fun ty member =>
      ask ty (typesAsked_subset (List.subset_cons_self c rest) member))

/-- The engines that options or settings give, and those that calls lead to
from them. -/
inductive Reachable : Engine → Prop
  | fresh (options : Options) : Reachable (ofOptions options)
  | bootstrapped (settings : Settings) (manifest : FileContent) :
      Reachable (bootstrap settings manifest).2
  | called {α : Type} {e : Engine} (reached : Reachable e) (c : Call α) :
      Reachable (e.perform c).2

theorem Reachable.steps {e : Engine} (reached : Reachable e) :
    ∃ options, Steps (fun _ => True) True (ofOptions options) e := by
  induction reached with
  | fresh options => exact ⟨options, .refl⟩
  | bootstrapped settings manifest => exact bootstrap_steps settings manifest
  | called reached c ih =>
    obtain ⟨options, steps⟩ := ih
    exact ⟨options, steps.trans (perform_steps c _ (fun _ _ => trivial) fun _ => trivial)⟩

/-- What holds of every fresh engine and is preserved by every step holds of
every reachable engine. -/
theorem Reachable.invariant {P : Engine → Prop} (fresh : ∀ options, P (ofOptions options))
    (kept : ∀ e e', Step (fun _ => True) True e e' → P e → P e') {e : Engine}
    (reached : Reachable e) : P e := by
  obtain ⟨options, steps⟩ := reached.steps
  exact steps.preserve kept (fresh options)

theorem Reachable.registries_invariant {P : Registries → Prop}
    (fresh : ∀ options, P (ofOptions options).registries)
    (kept : ∀ r r', r.Change r' → P r → P r') {e : Engine} (reached : Reachable e) :
    P e.registries :=
  reached.invariant (P := fun e => P e.registries) fresh fun _ _ step => step.registries kept

theorem Reachable.run {e : Engine} (reached : Reachable e) (calls : List AnyCall) :
    Reachable (e.run calls) := by
  induction calls generalizing e with
  | nil => exact reached
  | cons c rest ih => exact ih (reached.called c.call)

/-- The engines that are reached without a question about the decision or the
mode of any type of which `asked` does not hold. -/
inductive ReachableAsking (asked : TypeDescriptor → Prop) : Engine → Prop
  | fresh (options : Options) : ReachableAsking asked (ofOptions options)
  | bootstrapped (settings : Settings) (manifest : FileContent) :
      ReachableAsking asked (bootstrap settings manifest).2
  | called {α : Type} {e : Engine} (reached : ReachableAsking asked e) (c : Call α)
      (ask : ∀ ty, c.asks = some ty → asked ty) : ReachableAsking asked (e.perform c).2

theorem ReachableAsking.invariant {asked : TypeDescriptor → Prop} {P : Engine → Prop}
    (fresh : ∀ options, P (ofOptions options))
    (kept : ∀ e e', Step asked True e e' → P e → P e') {e : Engine}
    (reached : ReachableAsking asked e) : P e := by
  induction reached with
  | fresh options => exact fresh options
  | bootstrapped settings manifest =>
    obtain ⟨options, steps⟩ := bootstrap_steps settings manifest
    exact steps.preserve kept (fresh options)
  | called reached c ask ih =>
    exact (perform_steps c _ ask fun _ => trivial).preserve kept ih

theorem ReachableAsking.run {asked : TypeDescriptor → Prop} {e : Engine}
    (reached : ReachableAsking asked e) (calls : List AnyCall)
    (ask : ∀ ty ∈ typesAsked calls, asked ty) : ReachableAsking asked (e.run calls) := by
  induction calls generalizing e with
  | nil => exact reached
  | cons c rest ih =>
    refine ih (reached.called c.call fun ty asks => ask ty ?_) fun ty member => ask ty ?_
    · exact mem_typesAsked List.mem_cons_self asks
    · exact typesAsked_subset (List.subset_cons_self c rest) member

end ClassPolicy.Engine
