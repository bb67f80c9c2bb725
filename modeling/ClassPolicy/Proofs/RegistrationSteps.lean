import ClassPolicy.Proofs.Step

/-!
# The steps of registrations

Every registration takes the engine through finitely many steps, whatever its
arguments and whether it succeeds. The built-in defaults, a policy and an
inventory are registered one by one, so their steps follow from those of the
single registrations.
-/

set_option autoImplicit false

namespace ClassPolicy.Engine

open Relation (ReflTransGen)

variable {asked : TypeDescriptor → Prop} {stranding : Prop}

/-! ### Rules and rewriters -/

theorem addInclude_steps (pattern : String) (attributes : IncludeAttributes) (e : Engine) :
    Steps asked stranding e (e.addInclude pattern attributes) :=
  register_steps (.rules [.including pattern attributes] (by simp [Rule.including]))

theorem addExclude_steps (pattern : String) (e : Engine) :
    Steps asked stranding e (e.addExclude pattern) :=
  register_steps (.rules [.excluding pattern] (by simp [Rule.excluding]))

theorem prependBlock_eq_ok {block : List Rule} {r rules : RuleRegistry}
    (h : r.prependBlock block = .ok rules) :
    rules = { r with rules := block ++ r.rules } ∧
      ∀ rule ∈ block, rule.disposition ≠ .noOpinion := by
  unfold RuleRegistry.prependBlock at h
  split at h
  · cases h
  · rename_i none
    cases h
    exact ⟨rfl, by simpa using none⟩

theorem addRules_steps (block : List Rule) (e : Engine) :
    Steps asked stranding e (e.addRules block).2 := by
  unfold addRules
  split
  · exact .refl
  · split
    · exact .refl
    · rename_i rules found
      obtain ⟨rfl, opinions⟩ := prependBlock_eq_ok found
      exact register_steps (.rules block opinions)

theorem includeAndLock_steps (ty : TypeDescriptor) (pattern : String)
    (attributes : IncludeAttributes) (lockPattern : String) (e : Engine) :
    Steps asked stranding e (e.includeAndLock ty pattern attributes lockPattern).2 := by
  rw [includeAndLock_eq]
  split
  · exact .refl
  · split
    · exact .refl
    · refine .single (.registered ((ReflTransGen.single
        (.rules [.including pattern attributes] (by simp [Rule.including]))).tail
        (.aside (.lock ⟨lockPattern, .committedAutolock ⟨.write, false⟩
          (some includeAndLockProvenance)⟩ rfl))))
    · exact .refl

theorem addPermanentExclude_steps (pattern : String) (e : Engine) :
    Steps asked stranding e (e.addPermanentExclude pattern) :=
  register_steps (.permanentExclude pattern)

theorem addNonPortable_steps (pattern : String) (e : Engine) :
    Steps asked stranding e (e.addNonPortable pattern) :=
  register_steps (.nonPortable pattern)

theorem setAllowsDynamicSubtypes_steps (allow : Bool) (e : Engine) :
    Steps asked stranding e (e.setAllowsDynamicSubtypes allow) := by
  unfold setAllowsDynamicSubtypes
  split
  · exact .refl
  · exact register_steps (.dynamicSubtypes allow)

theorem addRewriter_steps (name id : String) (e : Engine) :
    Steps asked stranding e (e.addRewriter name id) :=
  register_steps (.rewriter (TypeName.ofString name) id)

theorem removeRewriter_steps (name : String) (e : Engine) :
    Steps asked stranding e (e.removeRewriter name).2 := by
  simp only [removeRewriter]
  split
  · exact .refl
  · exact register_steps (.rewriterRemoved (TypeName.ofString name))

/-! ### Specs -/

theorem addSpec_steps (partition : Partition) (spec : ClassSpec) (e : Engine) :
    Steps asked stranding e (e.addSpec partition spec).2 := by
  unfold addSpec
  split
  · exact .refl
  · rename_i specs found
    unfold SpecStore.insert at found
    split at found
    · cases found
    · rename_i absent
      cases found
      exact register_steps (.spec partition spec (by simpa [SpecStore.contains] using absent))

theorem addSpecIfAbsent_steps (partition : Partition) (spec : ClassSpec) (e : Engine) :
    Steps asked stranding e (e.addSpecIfAbsent partition spec).2 := by
  rw [snd_addSpecIfAbsent]
  split
  · exact .refl
  · rename_i absent
    exact register_steps (.spec partition spec (by simpa [SpecStore.contains] using absent))

theorem getOrCreate_steps (make : ClassSpec) (e : Engine) :
    Steps asked stranding e (e.getOrCreate make.name make).2 := by
  unfold getOrCreate
  split
  · exact .refl
  · rename_i absent
    exact register_steps (.spec .live make absent)

theorem updateSpec_steps (name : String) (edits : List SpecEdit) (e : Engine) :
    Steps asked stranding e (e.updateSpec name edits).2 := by
  have changes := e.registries.edited_changes (TypeName.ofString name) edits
  simp only [updateSpec]
  split <;> exact .single (.registered changes)

/-- A move that succeeds is an edit of the spec; one that fails leaves nothing,
or an empty spec of a type that had none. -/
theorem moveToLogical_cases (name superName : String) (e : Engine) :
    ((Call.moveToLogical name superName).strands e.registries = none ∧
      ∃ superSpec, e.moveToLogical name superName = (.ok (), e.withSpecs
        ((e.registries.specs.getOrInsert (TypeName.ofString name)
            (.ofName (TypeName.ofString name))).2.replace (TypeName.ofString name)
          ((e.registries.specs.getOrInsert (TypeName.ofString name)
            (.ofName (TypeName.ofString name))).1.editAll [.moveToLogical superSpec]).1))) ∨
    ∃ failure, e.moveToLogical name superName =
      (.error failure, e.leftBy (.moveToLogical name superName)) := by
  unfold moveToLogical leftBy
  simp only [Call.strands]
  cases e.registries.specs.get? (TypeName.ofString superName) with
  | none => exact .inr ⟨_, rfl⟩
  | some superSpec =>
    cases logical : superSpec.logical with
    | some designation =>
      refine .inl ⟨by simp [ClassSpec.isLogical, logical], superSpec, ?_⟩
      simp [ClassSpec.moveToLogical, ClassSpec.editAll, ClassSpec.edit, logical]
    | none =>
      right
      cases present : e.registries.specs.get? (TypeName.ofString name) <;>
        simp [SpecStore.getOrInsert, SpecStore.contains, ClassSpec.moveToLogical,
          ClassSpec.isLogical, refused, adjust, strand, logical, present]

theorem leftBy_steps {α : Type} {c : Call α} {e : Engine}
    (allow : c.strands e.registries ≠ none → stranding) :
    Steps asked stranding e (e.leftBy c) := by
  unfold leftBy
  cases stranded : c.strands e.registries with
  | none => exact .refl
  | some name =>
    exact .single (.stranded (allow (by simp [stranded])) (Call.absent_of_strands stranded))

theorem moveToLogical_steps (name superName : String) (e : Engine)
    (allow : (Call.moveToLogical name superName).strands e.registries ≠ none → stranding) :
    Steps asked stranding e (e.moveToLogical name superName).2 := by
  rcases moveToLogical_cases name superName e with ⟨-, superSpec, done⟩ | ⟨failure, failed⟩
  · rw [done]
    exact .single (.registered (e.registries.edited_changes _ _))
  · rw [failed]
    exact leftBy_steps allow

theorem removeSpec_steps (name : String) (e : Engine) :
    Steps asked stranding e (e.removeSpec name).2 := by
  unfold removeSpec
  split
  · exact .refl
  · rename_i spec specs found
    have removed : specs = (e.registries.specs.remove (TypeName.ofString name)).2 := by
      rw [found]
    subst removed
    exact register_steps (.specRemoved (TypeName.ofString name))

theorem addMissingSpecs_steps (partition : Partition) (specs : List ClassSpec) (e : Engine) :
    Steps asked stranding e (e.addMissingSpecs partition specs).2 :=
  addMissingSpecs_along (fun _ => .refl) .trans
    (fun spec _ e => addSpecIfAbsent_steps partition spec e) e

theorem mergeInventory_steps (manifest : Manifest) (e : Engine) :
    Steps asked stranding e (e.mergeInventory manifest).2 :=
  addMissingSpecs_steps .inventory _ e

/-! ### Roots, members and fields -/

theorem addRoot_steps (root : RootDefinition) (createSpec : Bool) (e : Engine) :
    Steps asked stranding e (e.addRoot root createSpec).2 := by
  unfold addRoot
  split
  · exact .refl
  · rename_i roots added
    have rooted : ReflTransGen Registries.Change e.registries { e.registries with roots } :=
      .single (.root root roots added)
    cases createSpec with
    | false => exact .single (.registered rooted)
    | true =>
      exact .single (.registered
        (rooted.trans (Registries.getOrInsert_changes _ (.ofName root.typeName))))

theorem addRootForField_steps (qualified : String) (rootName : Option String) (e : Engine) :
    Steps asked stranding e (e.addRootForField qualified rootName).2 := by
  unfold addRootForField
  split
  · exact .refl
  · exact addRoot_steps _ _ _

theorem addLock_steps (pattern : String) (definition : LockDefinition) (e : Engine) :
    Steps asked stranding e (e.addLock pattern definition).2 := by
  unfold addLock
  split
  · exact .refl
  · rename_i locks added
    unfold LockPolicy.add at added
    split at added
    · rename_i committed
      cases added
      exact .single (.adjusted (.lock ⟨pattern, definition⟩ committed))
    · cases added

theorem addAutolock_steps (pattern : String) (level : LockLevel) (provenance : Option String)
    (e : Engine) : Steps asked stranding e (e.addAutolock pattern level provenance).2 := by
  rw [addAutolock_eq]
  exact .single (.adjusted (.lock ⟨pattern, .committedAutolock level provenance⟩ rfl))

theorem addAutolockExclude_steps (pattern : String) (e : Engine) :
    Steps asked stranding e (e.addAutolockExclude pattern) :=
  .single (.adjusted (.autolockExclude pattern))

theorem addDistributed_steps (method : DistributedMethod) (e : Engine) :
    Steps asked stranding e (e.addDistributed method) :=
  .single (.adjusted (.distributed method))

theorem addTransient_steps (typeName field : String) (e : Engine) :
    Steps asked stranding e (e.addTransient typeName field).2 := by
  unfold addTransient
  split
  · exact .refl
  · exact .single (.adjusted (.transient (TypeName.ofString typeName) field))

/-! ### Built-in defaults and settings -/

theorem install_steps (e : Engine) : Steps asked stranding e (Builtins.install e).2 := by
  refine andThen_steps ?_ fun e => ?_
  · -- The folds are peeled off from the last one.
    refine .trans ?_ (foldl_steps (fun e p => addAutolockExclude_steps p e) _ _)
    refine .trans ?_ (foldl_steps (fun e p => addNonPortable_steps p e) _ _)
    exact foldl_steps (fun e p => addPermanentExclude_steps p e) _ _
  refine andThen_steps (forEach_steps (fun p e => addAutolock_steps p _ _ e) _ _) fun e => ?_
  exact thenWith_along .trans (addMissingSpecs_steps .live Builtins.specs e) fun _ _ => .refl

theorem addLockEntry_steps (entry : LockEntry) (e : Engine) :
    Steps asked stranding e (addLockEntry entry e).2 := by
  unfold addLockEntry addBuiltLock
  split
  · exact .refl
  · exact addLock_steps _ _ _

theorem addRootEntry_steps (entry : RootEntry) (e : Engine) :
    Steps asked stranding e (addRootEntry entry e).2 := by
  unfold addRootEntry
  split
  · exact .refl
  · exact addRoot_steps _ _ _

theorem addTransientField_steps (qualified : String) (e : Engine) :
    Steps asked stranding e (addTransientField qualified e).2 := by
  unfold addTransientField
  split
  · exact .refl
  · exact addTransient_steps _ _ _

theorem applyPolicy_steps (policy : PolicySettings) (e : Engine) :
    Steps asked stranding e (applyPolicy policy e).2 := by
  unfold applyPolicy
  split
  · exact .refl
  refine andThen_steps (addRules_steps _ _) fun e => ?_
  refine andThen_steps ?_ fun e => ?_
  · exact (foldl_steps (fun e p => addPermanentExclude_steps p e) _ _).trans
      (foldl_steps (fun e p => addNonPortable_steps p e) _ _)
  refine andThen_steps (forEach_steps addLockEntry_steps _ _) fun e => ?_
  refine andThen_steps (foldl_steps (fun e p => addAutolockExclude_steps p e) _ _) fun e => ?_
  refine andThen_steps (forEach_steps addRootEntry_steps _ _) fun e => ?_
  refine andThen_steps (forEach_steps addTransientField_steps _ _) fun e => ?_
  simp only [always]
  have distributed := foldl_steps (fun e (entry : DistributedEntry) =>
    (addDistributed_steps ⟨entry.expression, entry.runOnAllNodes⟩ e : Steps asked stranding e _))
    policy.distributedMethods e
  have rewritten := distributed.trans
    (foldl_steps (fun e (p : String × String) => addRewriter_steps p.1 p.2 e)
      policy.customRewriters.entries _)
  split
  · exact rewritten.trans (setAllowsDynamicSubtypes_steps true _)
  · exact rewritten

theorem requireInventory_steps (manifest : Manifest) (e : Engine) :
    Steps asked stranding e (e.requireInventory manifest).2 := by
  simp only [requireInventory]
  split <;> exact .single (.reported _)

theorem admitInventory_steps (settings : InventorySettings) (file : FileContent) (e : Engine) :
    Steps asked stranding e (admitInventory settings file e).2 := by
  unfold admitInventory
  split
  · exact .refl
  · split
    · exact .refl
    · rename_i manifest _
      refine thenWith_along .trans (mergeInventory_steps manifest e) fun _ e' => ?_
      split
      · exact requireInventory_steps manifest e'
      · exact .refl

theorem bootstrap_steps (settings : Settings) (manifest : FileContent) :
    ∃ options, Steps asked stranding (ofOptions options) (bootstrap settings manifest).2 := by
  refine ⟨{ internalNamespaces := settings.policy.internalNamespaces
            allowDynamicSubtypes := settings.policy.allowDynamicSubtypes }, ?_⟩
  unfold bootstrap
  simp only
  split
  · exact .refl
  · have configured : ∀ e, Steps asked stranding e (andThen (applyPolicy settings.policy)
        (andThen (admitInventory settings.inventory manifest) (always reportReady)) e).2 :=
      fun e => andThen_steps (applyPolicy_steps settings.policy e) fun e =>
        andThen_steps (admitInventory_steps settings.inventory manifest e) fun e =>
          .single (.reported _)
    refine andThen_steps ?_ configured
    split
    · exact install_steps _
    · exact .refl

end ClassPolicy.Engine
