import ClassPolicy.Proofs.Run

/-!
# The registries move on their own

What a call that asks for no decision answers, and the registries it leaves,
depend on the registries alone: neither the memory nor the journal has a part
in it. A call that asks for a decision leaves the registries as they are. So
the registries at the end of a run are those of the run without its questions.
-/

set_option autoImplicit false

namespace ClassPolicy.Engine

/-- A call that gives the same answer and leaves the same registries whatever
is remembered and journalled. -/
def Blind {β : Type} (f : Engine → β × Engine) : Prop :=
  ∀ e e' : Engine, e.registries = e'.registries →
    (f e).1 = (f e').1 ∧ (f e).2.registries = (f e').2.registries

/-- The same of a change without an answer. -/
def BlindChange (f : Engine → Engine) : Prop :=
  ∀ e e' : Engine, e.registries = e'.registries → (f e).registries = (f e').registries

theorem register_blind (change : Registries → Registries) : BlindChange (register change) := by
  intro e e' same
  simp only [register, same]

theorem adjust_blind (change : Registries → Registries) : BlindChange (adjust change) := by
  intro e e' same
  simp only [adjust, same]

theorem BlindChange.comp {f g : Engine → Engine} (hf : BlindChange f) (hg : BlindChange g) :
    BlindChange (fun e => f (g e)) :=
  fun e e' same => hf _ _ (hg e e' same)

theorem always_blind {f : Engine → Engine} (hf : BlindChange f) : Blind (always f) :=
  fun e e' same => ⟨rfl, hf e e' same⟩

theorem foldl_blind {β : Type} {f : Engine → β → Engine} (each : ∀ b, BlindChange (f · b))
    (items : List β) : BlindChange (fun e => items.foldl f e) := by
  induction items with
  | nil => exact fun _ _ same => same
  | cons b rest ih => exact fun e e' same => ih _ _ (each b e e' same)

theorem thenWith_blind {α β : Type} {first : Engine → Outcome α} {next : α → Engine → Outcome β}
    (one : Blind first) (two : ∀ answer, Blind (next answer)) : Blind (thenWith first next) := by
  intro e e' same
  obtain ⟨answers, left⟩ := one e e' same
  simp only [thenWith]
  generalize first e = r at answers left ⊢
  generalize first e' = r' at answers left ⊢
  obtain ⟨a, l⟩ := r
  obtain ⟨a', l'⟩ := r'
  simp only at answers left
  subst answers
  cases a with
  | error failure => exact ⟨rfl, left⟩
  | ok answer => exact two answer l l' left

theorem andThen_blind {first second : Engine → Outcome Unit} (one : Blind first)
    (two : Blind second) : Blind (andThen first second) :=
  thenWith_blind one fun _ => two

theorem answer_blind {α : Type} (answer : α) : Blind fun e => ((.ok answer, e) : Outcome α) :=
  fun _ _ same => ⟨rfl, same⟩

theorem forEach_blind {β : Type} {call : β → Engine → Outcome Unit} (each : ∀ b, Blind (call b))
    (items : List β) : Blind (forEach call items) := by
  induction items with
  | nil => exact fun _ _ same => ⟨rfl, same⟩
  | cons b rest ih =>
    rw [forEach_cons]
    exact andThen_blind (each b) ih

/-! ### Registrations -/

theorem addRules_blind (block : List Rule) : Blind (addRules block) := by
  intro e e' same
  simp only [addRules, same]
  split
  · exact ⟨rfl, same⟩
  · split
    · exact ⟨rfl, same⟩
    · exact ⟨rfl, register_blind _ e e' same⟩

theorem includeAndLock_blind (ty : TypeDescriptor) (pattern : String)
    (attributes : IncludeAttributes) (lockPattern : String) :
    Blind (includeAndLock ty pattern attributes lockPattern) := by
  intro e e' same
  simp only [includeAndLock_eq, same]
  split
  · exact ⟨rfl, same⟩
  · split
    · exact ⟨rfl, same⟩
    · exact ⟨rfl, register_blind _ e e' same⟩
    · exact ⟨rfl, same⟩

theorem setAllowsDynamicSubtypes_blind (allow : Bool) :
    BlindChange (setAllowsDynamicSubtypes allow) := by
  intro e e' same
  simp only [setAllowsDynamicSubtypes, same]
  split
  · exact same
  · exact register_blind _ e e' same

theorem removeRewriter_blind (name : String) : Blind (removeRewriter name) := by
  intro e e' same
  simp only [removeRewriter, same]
  split
  · exact ⟨rfl, same⟩
  · exact ⟨rfl, register_blind _ e e' same⟩

theorem addSpec_blind (partition : Partition) (spec : ClassSpec) :
    Blind (addSpec partition spec) := by
  intro e e' same
  simp only [addSpec, same]
  split
  · exact ⟨rfl, same⟩
  · exact ⟨rfl, register_blind _ e e' same⟩

theorem addSpecIfAbsent_blind (partition : Partition) (spec : ClassSpec) :
    Blind (addSpecIfAbsent partition spec) := by
  intro e e' same
  simp only [addSpecIfAbsent, same]
  split
  · exact ⟨rfl, same⟩
  · exact ⟨rfl, same⟩
  · exact thenWith_blind (addSpec_blind partition spec) (fun _ => answer_blind true) e e' same

theorem getOrCreate_blind (name : TypeName) (make : ClassSpec) :
    Blind (getOrCreate name make) := by
  intro e e' same
  simp only [getOrCreate, same]
  split
  · exact ⟨rfl, same⟩
  · exact ⟨rfl, register_blind _ e e' same⟩

theorem updateSpec_blind (name : String) (edits : List SpecEdit) :
    Blind (updateSpec name edits) := by
  intro e e' same
  simp only [updateSpec, same]
  split <;> exact ⟨rfl, register_blind _ e e' same⟩

theorem moveToLogical_blind (name superName : String) : Blind (moveToLogical name superName) := by
  intro e e' same
  simp only [moveToLogical, same]
  split
  · exact ⟨rfl, same⟩
  · split
    · exact ⟨rfl, adjust_blind _ e e' same⟩
    · exact ⟨rfl, register_blind _ e e' same⟩

theorem removeSpec_blind (name : String) : Blind (removeSpec name) := by
  intro e e' same
  simp only [removeSpec, same]
  split
  · exact ⟨rfl, same⟩
  · exact ⟨rfl, register_blind _ e e' same⟩

theorem addMissingSpecs_blind (partition : Partition) (specs : List ClassSpec) :
    Blind (addMissingSpecs partition specs) := by
  induction specs with
  | nil => exact answer_blind 0
  | cons spec rest ih =>
    exact thenWith_blind (addSpecIfAbsent_blind partition spec) fun added =>
      thenWith_blind ih fun later => answer_blind (added.toNat + later)

theorem mergeInventory_blind (manifest : Manifest) : Blind (mergeInventory manifest) :=
  addMissingSpecs_blind .inventory _

theorem addRoot_blind (root : RootDefinition) (createSpec : Bool) :
    Blind (addRoot root createSpec) := by
  intro e e' same
  simp only [addRoot, same]
  split
  · exact ⟨rfl, same⟩
  · exact ⟨rfl, register_blind _ e e' same⟩

theorem addRootForField_blind (qualified : String) (rootName : Option String) :
    Blind (addRootForField qualified rootName) := by
  unfold addRootForField
  split
  · exact fun _ _ same => ⟨rfl, same⟩
  · exact addRoot_blind _ _

theorem addLock_blind (pattern : String) (definition : LockDefinition) :
    Blind (addLock pattern definition) := by
  intro e e' same
  simp only [addLock, same]
  split
  · exact ⟨rfl, same⟩
  · exact ⟨rfl, adjust_blind _ e e' same⟩

theorem addTransient_blind (typeName field : String) : Blind (addTransient typeName field) := by
  unfold addTransient
  intro e e' same
  simp only
  split
  · exact ⟨rfl, same⟩
  · exact ⟨rfl, adjust_blind _ e e' same⟩

theorem addPermanentExclude_blind (pattern : String) :
    BlindChange (addPermanentExclude pattern) :=
  register_blind _

theorem addNonPortable_blind (pattern : String) : BlindChange (addNonPortable pattern) :=
  register_blind _

theorem addRewriter_blind (name id : String) : BlindChange (addRewriter name id) :=
  register_blind _

theorem addBuiltLock_blind (pattern : String) (built : Except Violation LockDefinition) :
    Blind (addBuiltLock pattern built) := by
  cases built with
  | error v => exact fun _ _ same => ⟨rfl, same⟩
  | ok definition => exact addLock_blind pattern definition

theorem addAutolock_blind (pattern : String) (level : LockLevel) (provenance : Option String) :
    Blind (addAutolock pattern level provenance) :=
  addBuiltLock_blind pattern _

theorem addAutolockExclude_blind (pattern : String) : BlindChange (addAutolockExclude pattern) :=
  adjust_blind _

theorem addDistributed_blind (method : DistributedMethod) : BlindChange (addDistributed method) :=
  adjust_blind _

theorem install_blind : Blind Builtins.install := by
  have excluded := foldl_blind addPermanentExclude_blind Builtins.permanentExcludes
  have listed := (foldl_blind addNonPortable_blind Builtins.nonPortable).comp excluded
  have exempted := (foldl_blind addAutolockExclude_blind Builtins.autolockExcludes).comp listed
  refine andThen_blind (always_blind exempted) ?_
  refine andThen_blind (forEach_blind (fun _ => addAutolock_blind _ _ _) _) ?_
  exact thenWith_blind (addMissingSpecs_blind .live Builtins.specs) fun _ => answer_blind ()

theorem addRootEntry_blind (entry : RootEntry) : Blind (addRootEntry entry) := by
  unfold addRootEntry
  split
  · exact fun _ _ same => ⟨rfl, same⟩
  · exact addRoot_blind _ _

theorem addTransientField_blind (qualified : String) : Blind (addTransientField qualified) := by
  unfold addTransientField
  split
  · exact fun _ _ same => ⟨rfl, same⟩
  · exact addTransient_blind _ _

theorem applyPolicy_blind (policy : PolicySettings) : Blind (applyPolicy policy) := by
  unfold applyPolicy
  split
  · exact fun _ _ same => ⟨rfl, same⟩
  refine andThen_blind (addRules_blind _) ?_
  refine andThen_blind (always_blind ((foldl_blind addNonPortable_blind policy.nonPortable).comp
    (foldl_blind addPermanentExclude_blind policy.permanentExcludes))) ?_
  refine andThen_blind (forEach_blind (fun _ => addBuiltLock_blind _ _) _) ?_
  refine andThen_blind (always_blind (foldl_blind addAutolockExclude_blind _)) ?_
  refine andThen_blind (forEach_blind addRootEntry_blind _) ?_
  refine andThen_blind (forEach_blind addTransientField_blind _) ?_
  refine always_blind ?_
  have distributed := foldl_blind (fun entry : DistributedEntry =>
    addDistributed_blind ⟨entry.expression, entry.runOnAllNodes⟩) policy.distributedMethods
  have configured := (foldl_blind (fun p : String × String => addRewriter_blind p.1 p.2)
    policy.customRewriters.entries).comp distributed
  simp only
  split
  · exact (setAllowsDynamicSubtypes_blind true).comp configured
  · exact configured

/-! ### Calls and runs -/

theorem perform_blind {α : Type} (c : Call α) (plain : c.asks = none) : Blind (perform c) := by
  intro e e' same
  cases c with
  | addRules block => exact addRules_blind block e e' same
  | includeAndLock ty pattern attributes lockPattern =>
    exact includeAndLock_blind ty pattern attributes lockPattern e e' same
  | setAllowsDynamicSubtypes allow =>
    exact ⟨rfl, setAllowsDynamicSubtypes_blind allow e e' same⟩
  | removeRewriter name =>
    obtain ⟨answers, left⟩ := removeRewriter_blind name e e' same
    exact ⟨congrArg Except.ok answers, left⟩
  | addSpec partition spec => exact addSpec_blind partition spec e e' same
  | addSpecIfAbsent partition spec => exact addSpecIfAbsent_blind partition spec e e' same
  | getOrCreateSpec name =>
    obtain ⟨answers, left⟩ := getOrCreate_blind (TypeName.ofString name) _ e e' same
    exact ⟨congrArg Except.ok answers, left⟩
  | getOrCreateLogicalSpec name applicator =>
    obtain ⟨answers, left⟩ := getOrCreate_blind (TypeName.ofString name) _ e e' same
    exact ⟨congrArg Except.ok answers, left⟩
  | updateSpec name edits => exact updateSpec_blind name edits e e' same
  | moveToLogical name superName => exact moveToLogical_blind name superName e e' same
  | removeSpec name =>
    obtain ⟨answers, left⟩ := removeSpec_blind name e e' same
    exact ⟨congrArg Except.ok answers, left⟩
  | addRoot root createSpec => exact addRoot_blind root createSpec e e' same
  | addRootForField qualified rootName => exact addRootForField_blind qualified rootName e e' same
  | addLock pattern definition => exact addLock_blind pattern definition e e' same
  | addAutolock pattern level provenance =>
    exact addAutolock_blind pattern level provenance e e' same
  | addTransient typeName field => exact addTransient_blind typeName field e e' same
  | installBuiltins => exact install_blind e e' same
  | applyPolicy policy => exact applyPolicy_blind policy e e' same
  | mergeInventory manifest => exact mergeInventory_blind manifest e e' same
  | verifyInventory manifest =>
    simp only [perform, answered, verifyInventory, report, same, and_self]
  | explain ty => cases plain
  | isTransformable ty => cases plain
  | modeFor ty => cases plain
  | decide ty => cases plain
  | _ => simp [perform, done, answered, asked, same, addInclude, addExclude, addPermanentExclude,
      addNonPortable, withRules, register, addRewriter, markAllPreInstrumented, adjust,
      addAutolockExclude, withLocks, addDistributed]

theorem explain_registries (ty : TypeDescriptor) (e : Engine) :
    (e.explain ty).2.registries = e.registries := by
  unfold explain
  split
  · rfl
  · split
    · rfl
    · exact registries_rememberDecision ty _ e

theorem modeGiven_registries (ty : TypeDescriptor) (transformable : Bool) (e : Engine) :
    (e.modeGiven ty transformable).2.registries = e.registries := by
  unfold modeGiven
  split
  · rfl
  · split <;> rfl

theorem modeFor_registries (ty : TypeDescriptor) (e : Engine) :
    (e.modeFor ty).2.registries = e.registries := by
  have first := explain_registries ty e
  unfold modeFor
  split
  · rfl
  · split
    · rename_i explained
      rwa [explained] at first
    · rename_i explained
      rw [explained] at first
      exact (modeGiven_registries ty _ _).trans first

theorem decide_registries (ty : TypeDescriptor) (e : Engine) :
    (e.decide ty).2.registries = e.registries := by
  have first := explain_registries ty e
  unfold decide
  split
  · rename_i explained
    rwa [explained] at first
  · rename_i decision e₁ explained
    rw [explained] at first
    have second := modeGiven_registries ty decision.transformable e₁
    split
    · rename_i moded
      rw [moded] at second
      exact second.trans first
    · rename_i moded
      rw [moded] at second
      split <;> exact second.trans first

/-- A question leaves the registries as they are. -/
theorem perform_registries_of_asks {α : Type} {c : Call α} {ty : TypeDescriptor}
    (asks : c.asks = some ty) (e : Engine) : (e.perform c).2.registries = e.registries := by
  cases c with
  | explain ty => exact explain_registries ty e
  | isTransformable ty => exact explain_registries ty e
  | modeFor ty => exact modeFor_registries ty e
  | decide ty => exact decide_registries ty e
  | _ => cases asks

/-- A run without its questions. -/
def withoutQuestions (calls : List AnyCall) : List AnyCall :=
  calls.filter (·.call.asks.isNone)

theorem run_withoutQuestions (calls : List AnyCall) {e e' : Engine}
    (same : e.registries = e'.registries) :
    (e.run calls).registries = (e'.run (withoutQuestions calls)).registries := by
  induction calls generalizing e e' with
  | nil => exact same
  | cons c rest ih =>
    rw [run_cons]
    cases asks : c.call.asks with
    | none =>
      rw [withoutQuestions, List.filter_cons_of_pos (by simp [asks]), run_cons]
      exact ih (perform_blind c.call asks e e' same).2
    | some ty =>
      rw [withoutQuestions, List.filter_cons_of_neg (by simp [asks])]
      exact ih ((perform_registries_of_asks asks e).trans same)

end ClassPolicy.Engine
