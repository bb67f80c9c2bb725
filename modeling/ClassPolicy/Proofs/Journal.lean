import ClassPolicy.Proofs.MemoryIndependence

/-!
# What is added to the journal

Registrations report nothing, whatever their arguments and whether they succeed.
The check of the inventory and the end of the bootstrap inform; a question about
a decision reports a refusal when it finds one that is not remembered, and
nothing else is an error.
-/

set_option autoImplicit false

namespace ClassPolicy.Engine

/-- A call that leaves the journal as it is. -/
def Silent {β : Type} (f : Engine → β × Engine) : Prop := ∀ e, (f e).2.journal = e.journal

/-- The same of a change without an answer. -/
def SilentChange (f : Engine → Engine) : Prop := ∀ e, (f e).journal = e.journal

theorem register_silent (change : Registries → Registries) : SilentChange (register change) :=
  fun _ => rfl

theorem adjust_silent (change : Registries → Registries) : SilentChange (adjust change) :=
  fun _ => rfl

theorem SilentChange.comp {f g : Engine → Engine} (hf : SilentChange f) (hg : SilentChange g) :
    SilentChange (fun e => f (g e)) :=
  fun e => (hf (g e)).trans (hg e)

theorem always_silent {f : Engine → Engine} (hf : SilentChange f) : Silent (always f) := hf

theorem foldl_silent {β : Type} {f : Engine → β → Engine} (each : ∀ b, SilentChange (f · b))
    (items : List β) : SilentChange (fun e => items.foldl f e) :=
  fun e => List.foldlRecOn (motive := (·.journal = e.journal)) items f rfl
    fun e' same b _ => (each b e').trans same

theorem thenWith_silent {β γ : Type} {first : Engine → Outcome β} {next : β → Engine → Outcome γ}
    (one : Silent first) (two : ∀ b, Silent (next b)) : Silent (thenWith first next) :=
  fun e => thenWith_along (R := fun e e' => e'.journal = e.journal)
    (fun one two => two.trans one) (one e) two

theorem andThen_silent {first second : Engine → Outcome Unit} (one : Silent first)
    (two : Silent second) : Silent (andThen first second) :=
  thenWith_silent one fun _ => two

theorem forEach_silent {β : Type} {call : β → Engine → Outcome Unit} (each : ∀ b, Silent (call b))
    (items : List β) : Silent (forEach call items) := by
  induction items with
  | nil => exact fun _ => rfl
  | cons b rest ih =>
    rw [forEach_cons]
    exact andThen_silent (each b) ih

/-! ### Registrations -/

theorem addRules_silent (block : List Rule) : Silent (addRules block) := by
  intro e
  unfold addRules
  split
  · rfl
  · split <;> rfl

theorem includeAndLock_silent (ty : TypeDescriptor) (pattern : String)
    (attributes : IncludeAttributes) (lockPattern : String) :
    Silent (includeAndLock ty pattern attributes lockPattern) := by
  intro e
  rw [includeAndLock_eq]
  split
  · rfl
  · split <;> rfl

theorem setAllowsDynamicSubtypes_silent (allow : Bool) :
    SilentChange (setAllowsDynamicSubtypes allow) := by
  intro e
  unfold setAllowsDynamicSubtypes
  split <;> rfl

theorem removeRewriter_silent (name : String) : Silent (removeRewriter name) := by
  intro e
  simp only [removeRewriter]
  split <;> rfl

theorem addSpec_silent (partition : Partition) (spec : ClassSpec) :
    Silent (addSpec partition spec) := by
  intro e
  unfold addSpec
  split <;> rfl

theorem addSpecIfAbsent_silent (partition : Partition) (spec : ClassSpec) :
    Silent (addSpecIfAbsent partition spec) := by
  intro e
  rw [snd_addSpecIfAbsent]
  split <;> rfl

theorem addMissingSpecs_silent (partition : Partition) (specs : List ClassSpec) :
    Silent (addMissingSpecs partition specs) :=
  addMissingSpecs_along (R := fun e e' => e'.journal = e.journal) (fun _ => rfl)
    (fun one two => two.trans one) fun spec _ => addSpecIfAbsent_silent partition spec

theorem getOrCreate_silent (name : TypeName) (make : ClassSpec) :
    Silent (getOrCreate name make) := by
  intro e
  unfold getOrCreate
  split <;> rfl

theorem updateSpec_silent (name : String) (edits : List SpecEdit) :
    Silent (updateSpec name edits) := by
  intro e
  simp only [updateSpec]
  split <;> rfl

theorem moveToLogical_silent (name superName : String) :
    Silent (moveToLogical name superName) := by
  intro e
  unfold moveToLogical
  split
  · rfl
  · simp only
    split <;> rfl

theorem removeSpec_silent (name : String) : Silent (removeSpec name) := by
  intro e
  unfold removeSpec
  split <;> rfl

theorem addRoot_silent (root : RootDefinition) (createSpec : Bool) :
    Silent (addRoot root createSpec) := by
  intro e
  unfold addRoot
  split <;> rfl

theorem addRootForField_silent (qualified : String) (rootName : Option String) :
    Silent (addRootForField qualified rootName) := by
  unfold addRootForField
  split
  · exact fun _ => rfl
  · exact addRoot_silent _ _

theorem addLock_silent (pattern : String) (definition : LockDefinition) :
    Silent (addLock pattern definition) := by
  intro e
  unfold addLock
  split <;> rfl

theorem addBuiltLock_silent (pattern : String) (built : Except Violation LockDefinition) :
    Silent (addBuiltLock pattern built) := by
  unfold addBuiltLock
  split
  · exact fun _ => rfl
  · exact addLock_silent pattern _

theorem addTransient_silent (typeName field : String) : Silent (addTransient typeName field) := by
  intro e
  unfold addTransient
  split <;> rfl

theorem addPermanentExclude_silent (pattern : String) :
    SilentChange (addPermanentExclude pattern) :=
  register_silent _

theorem addNonPortable_silent (pattern : String) : SilentChange (addNonPortable pattern) :=
  register_silent _

theorem addRewriter_silent (name id : String) : SilentChange (addRewriter name id) :=
  register_silent _

theorem addAutolockExclude_silent (pattern : String) :
    SilentChange (addAutolockExclude pattern) :=
  adjust_silent _

theorem addDistributed_silent (method : DistributedMethod) :
    SilentChange (addDistributed method) :=
  adjust_silent _

theorem install_silent : Silent Builtins.install := by
  have excluded := foldl_silent addPermanentExclude_silent Builtins.permanentExcludes
  have listed := (foldl_silent addNonPortable_silent Builtins.nonPortable).comp excluded
  have exempted := (foldl_silent addAutolockExclude_silent Builtins.autolockExcludes).comp listed
  have locked : Silent (forEach Builtins.addWriteAutolock Builtins.writeAutolocks) :=
    forEach_silent (fun pattern => addBuiltLock_silent pattern
      (LockDefinition.buildAutolock ⟨.write, false⟩ (some Builtins.provenance))) _
  refine andThen_silent (always_silent exempted) (andThen_silent locked ?_)
  exact thenWith_silent (addMissingSpecs_silent .live Builtins.specs) fun _ _ => rfl

theorem addRootEntry_silent (entry : RootEntry) : Silent (addRootEntry entry) := by
  unfold addRootEntry
  split
  · exact fun _ => rfl
  · exact addRoot_silent _ _

theorem addTransientField_silent (qualified : String) : Silent (addTransientField qualified) := by
  unfold addTransientField
  split
  · exact fun _ => rfl
  · exact addTransient_silent _ _

theorem applyPolicy_silent (policy : PolicySettings) : Silent (applyPolicy policy) := by
  unfold applyPolicy
  split
  · exact fun _ => rfl
  refine andThen_silent (addRules_silent _) ?_
  refine andThen_silent (always_silent ((foldl_silent addNonPortable_silent policy.nonPortable).comp
    (foldl_silent addPermanentExclude_silent policy.permanentExcludes))) ?_
  refine andThen_silent (forEach_silent (fun entry : LockEntry =>
    addBuiltLock_silent entry.expression entry.build) _) ?_
  refine andThen_silent (always_silent (foldl_silent addAutolockExclude_silent _)) ?_
  refine andThen_silent (forEach_silent addRootEntry_silent _) ?_
  refine andThen_silent (forEach_silent addTransientField_silent _) ?_
  refine always_silent ?_
  have distributed := foldl_silent (fun entry : DistributedEntry =>
    addDistributed_silent ⟨entry.expression, entry.runOnAllNodes⟩) policy.distributedMethods
  have configured := (foldl_silent (fun p : String × String => addRewriter_silent p.1 p.2)
    policy.customRewriters.entries).comp distributed
  simp only
  split
  · exact (setAllowsDynamicSubtypes_silent true).comp configured
  · exact configured

/-! ### Calls -/

/-- All that is reported between two engines is information. -/
def Informs (e e' : Engine) : Prop :=
  ∃ added, e'.journal = e.journal ++ added ∧ ∀ d ∈ added, d.level = .info

theorem informs_of_silent {e e' : Engine} (same : e'.journal = e.journal) : Informs e e' :=
  ⟨[], by rw [same, List.append_nil], by simp⟩

theorem Informs.trans {e₁ e₂ e₃ : Engine} (one : Informs e₁ e₂) (two : Informs e₂ e₃) :
    Informs e₁ e₃ := by
  obtain ⟨added, grown, infos⟩ := one
  obtain ⟨added', grown', infos'⟩ := two
  refine ⟨added ++ added', by rw [grown', grown, List.append_assoc], ?_⟩
  exact List.forall_mem_append.2 ⟨infos, infos'⟩

theorem verifyInventory_informs (manifest : Manifest) (e : Engine) :
    Informs e (e.verifyInventory manifest).2 := by
  refine ⟨_, rfl, fun d member => ?_⟩
  obtain ⟨name, -, rfl⟩ := List.mem_map.1 member
  rfl

/-- Only questions about a decision report errors. -/
theorem perform_informs {α : Type} {c : Call α} (plain : c.asks = none) (e : Engine) :
    Informs e (e.perform c).2 := by
  cases c with
  | verifyInventory manifest => exact verifyInventory_informs manifest e
  | explain ty => cases plain
  | isTransformable ty => cases plain
  | modeFor ty => cases plain
  | decide ty => cases plain
  | addRules block => exact informs_of_silent (addRules_silent block e)
  | includeAndLock ty pattern attributes lockPattern =>
    exact informs_of_silent (includeAndLock_silent ty pattern attributes lockPattern e)
  | setAllowsDynamicSubtypes allow =>
    exact informs_of_silent (setAllowsDynamicSubtypes_silent allow e)
  | removeRewriter name => exact informs_of_silent (removeRewriter_silent name e)
  | addSpec partition spec => exact informs_of_silent (addSpec_silent partition spec e)
  | addSpecIfAbsent partition spec =>
    exact informs_of_silent (addSpecIfAbsent_silent partition spec e)
  | getOrCreateSpec name => exact informs_of_silent (getOrCreate_silent _ _ e)
  | getOrCreateLogicalSpec name applicator => exact informs_of_silent (getOrCreate_silent _ _ e)
  | updateSpec name edits => exact informs_of_silent (updateSpec_silent name edits e)
  | moveToLogical name superName => exact informs_of_silent (moveToLogical_silent name superName e)
  | removeSpec name => exact informs_of_silent (removeSpec_silent name e)
  | addRoot root createSpec => exact informs_of_silent (addRoot_silent root createSpec e)
  | addRootForField qualified rootName =>
    exact informs_of_silent (addRootForField_silent qualified rootName e)
  | addLock pattern definition => exact informs_of_silent (addLock_silent pattern definition e)
  | addAutolock pattern level provenance =>
    exact informs_of_silent (addBuiltLock_silent pattern _ e)
  | addTransient typeName field => exact informs_of_silent (addTransient_silent typeName field e)
  | installBuiltins => exact informs_of_silent (install_silent e)
  | applyPolicy policy => exact informs_of_silent (applyPolicy_silent policy e)
  | mergeInventory manifest => exact informs_of_silent (addMissingSpecs_silent .inventory _ e)
  | _ => exact informs_of_silent rfl

theorem thenWith_informs {β γ : Type} {first : Engine → Outcome β}
    {next : β → Engine → Outcome γ} {e : Engine} (one : Informs e (first e).2)
    (two : ∀ b e', Informs e' (next b e').2) : Informs e (thenWith first next e).2 :=
  thenWith_along .trans one two

theorem requireInventory_informs (manifest : Manifest) (e : Engine) :
    Informs e (requireInventory manifest e).2 := by
  simp only [requireInventory]
  split <;> exact verifyInventory_informs manifest e

theorem admitInventory_informs (settings : InventorySettings) (file : FileContent) (e : Engine) :
    Informs e (admitInventory settings file e).2 := by
  unfold admitInventory
  split
  · exact informs_of_silent rfl
  · split
    · exact informs_of_silent rfl
    · rename_i manifest _
      refine thenWith_informs (informs_of_silent (addMissingSpecs_silent .inventory _ e))
        fun _ e' => ?_
      split
      · exact requireInventory_informs manifest e'
      · exact informs_of_silent rfl

/-- An engine that settings describe has reported no error yet. -/
theorem bootstrap_informs (settings : Settings) (manifest : FileContent) :
    ∀ d ∈ (bootstrap settings manifest).2.journal, d.level = .info := by
  have ready : ∀ e, Informs e (reportReady e) := fun e => ⟨_, rfl, by simp [Diagnostic.level]⟩
  have configured : ∀ e, Informs e (andThen (applyPolicy settings.policy)
      (andThen (admitInventory settings.inventory manifest) (always reportReady)) e).2 :=
    fun e => thenWith_informs (informs_of_silent (applyPolicy_silent _ e)) fun _ e =>
      thenWith_informs (admitInventory_informs _ _ e) fun _ => ready
  have started : ∀ options, Informs (ofOptions options) (bootstrap settings manifest).2 →
      ∀ d ∈ (bootstrap settings manifest).2.journal, d.level = .info := by
    rintro options ⟨added, grown, infos⟩
    rwa [grown]
  refine started { internalNamespaces := settings.policy.internalNamespaces
                   allowDynamicSubtypes := settings.policy.allowDynamicSubtypes } ?_
  unfold bootstrap
  simp only
  split
  · exact informs_of_silent rfl
  · refine thenWith_informs ?_ fun _ => configured
    split
    · exact informs_of_silent (install_silent _)
    · exact informs_of_silent rfl

/-! ### Questions -/

theorem journal_rememberDecision (ty : TypeDescriptor) (decision : Adaptability) (e : Engine) :
    (e.rememberDecision ty decision).journal = e.journal ++
      if decision.reason = .dynamicSubtypeRefused then [.dynamicSubtypeRefused ty.name]
      else [] := by
  simp only [rememberDecision]
  split <;> simp [report]

theorem modeGiven_silent (ty : TypeDescriptor) (transformable : Bool) :
    Silent (modeGiven ty transformable) := by
  intro e
  unfold modeGiven
  split
  · rfl
  · split <;> rfl

end ClassPolicy.Engine
