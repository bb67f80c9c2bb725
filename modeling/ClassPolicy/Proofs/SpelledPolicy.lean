import ClassPolicy.Proofs.BootstrapOutcome
import ClassPolicy.Proofs.SpelledEngine

/-!
# Policies in the dotted spelling

The built-in defaults are written with dots. A policy whose patterns and
qualified fields are put in the dotted spelling passes the same checks and is
registered alike, and so an engine built from it is the same.
-/

set_option autoImplicit false

namespace ClassPolicy

open Engine

/-! ### Built-in defaults -/

theorem Builtins.patterns_noSlash :
    ∀ pattern ∈ permanentExcludes ++ nonPortable, '/' ∉ pattern.toList := by
  decide +kernel

theorem Builtins.dottedMember_patterns :
    ∀ pattern ∈ autolockExcludes ++ writeAutolocks, dottedMember pattern = pattern := by
  decide +kernel

namespace Engine

theorem foldl_withDots {β : Type} {f : Engine → β → Engine}
    (each : ∀ (e : Engine) (b : β), f e.withDots b = (f e b).withDots) (items : List β)
    (e : Engine) : items.foldl f e.withDots = (items.foldl f e).withDots :=
  List.foldl_hom withDots each

theorem foldl_spelled {β : Type} {f : Engine → β → Engine} {s : β → β}
    (each : ∀ (e : Engine) (b : β), f e.withDots (s b) = (f e b).withDots) (items : List β)
    (e : Engine) : (items.map s).foldl f e.withDots = (items.foldl f e).withDots := by
  rw [List.foldl_map]
  exact List.foldl_hom withDots each

/-- Texts that are in the dotted spelling already. -/
theorem foldl_of_spelled {f : Engine → String → Engine} {s : String → String}
    (each : ∀ (e : Engine) (text : String), f e.withDots (s text) = (f e text).withDots)
    {texts : List String} (unchanged : ∀ text ∈ texts, s text = text) (e : Engine) :
    texts.foldl f e.withDots = (texts.foldl f e).withDots := by
  have same : texts.map s = texts := (List.map_congr_left unchanged).trans (List.map_id _)
  rw [← foldl_spelled each, same]

theorem install_withDots (e : Engine) :
    Builtins.install e.withDots = Outcome.withDots (Builtins.install e) := by
  have unchanged : ∀ pattern ∈ Builtins.permanentExcludes ++ Builtins.nonPortable,
      dottedText pattern = pattern :=
    fun pattern member => dottedText_of_noSlash (Builtins.patterns_noSlash pattern member)
  have locks := Builtins.dottedMember_patterns
  simp only [List.forall_mem_append] at unchanged locks
  have autolocks : Builtins.writeAutolocks.map dottedMember = Builtins.writeAutolocks :=
    (List.map_congr_left locks.2).trans (List.map_id _)
  refine andThen_withDots (always_withDots fun e => ?_) ?_ e
  · simp only
    rw [foldl_of_spelled (fun _ _ => rfl) unchanged.1,
      foldl_of_spelled (fun _ _ => rfl) unchanged.2,
      foldl_of_spelled addAutolockExclude_withDots locks.1]
  refine andThen_withDots (fun e => ?_) ?_
  · have each : ∀ (pattern : String) (e : Engine),
        Builtins.addWriteAutolock (dottedMember pattern) e.withDots =
          Outcome.withDots (Builtins.addWriteAutolock pattern e) :=
      fun pattern e => addAutolock_withDots e pattern _ _
    have registered := forEach_withDots each Builtins.writeAutolocks e
    rwa [autolocks] at registered
  · exact thenWith_withDots (fun e => addMissingSpecs_withDots e .live Builtins.specs)
      fun _ _ => rfl

end Engine

/-! ### Policies -/

def ClassEntry.withDots (entry : ClassEntry) : ClassEntry :=
  { entry with expression := dottedText entry.expression }

theorem ClassEntry.rule_withDots (entry : ClassEntry) :
    entry.withDots.rule = entry.rule.withDots := by
  unfold rule withDots
  cases entry.kind <;> rfl

def LockEntry.withDots (entry : LockEntry) : LockEntry :=
  { entry with expression := dottedMember entry.expression }

def RootEntry.withDots (entry : RootEntry) : RootEntry :=
  { entry with field := dottedField entry.field }

def DistributedEntry.withDots (entry : DistributedEntry) : DistributedEntry :=
  { entry with expression := dottedMember entry.expression }

namespace PolicySettings

/-- A policy with its patterns and its qualified fields in the dotted spelling.
Its rewriters keep their keys, whose spelling orders them. -/
@[simps] def withDots (p : PolicySettings) : PolicySettings :=
  { p with
    instrumentedClasses := p.instrumentedClasses.map ClassEntry.withDots
    permanentExcludes := p.permanentExcludes.map dottedText
    nonPortable := p.nonPortable.map dottedText
    locks := p.locks.map LockEntry.withDots
    autolockExcludes := p.autolockExcludes.map dottedMember
    roots := p.roots.map RootEntry.withDots
    transientFields := p.transientFields.map dottedField
    distributedMethods := p.distributedMethods.map DistributedEntry.withDots }

end PolicySettings

theorem checkAll_map {α : Type} (check : α → Except SettingsError Unit) {f : α → α}
    (each : ∀ item, check (f item) = (check item).mapError SettingsError.withDots)
    (items : List α) :
    checkAll check (items.map f) = (checkAll check items).mapError SettingsError.withDots := by
  induction items with
  | nil => rfl
  | cons item rest ih =>
    simp only [List.map_cons, checkAll, each]
    cases check item with
    | error e => rfl
    | ok _ => exact ih

theorem requireExpression_mapError (part expression : String) :
    requireExpression part expression =
      (requireExpression part expression).mapError SettingsError.withDots := by
  unfold requireExpression
  split_ifs <;> rfl

theorem requireExpression_dottedText (part expression : String) :
    requireExpression part (dottedText expression) =
      (requireExpression part expression).mapError SettingsError.withDots := by
  rw [← requireExpression_mapError]
  simp only [requireExpression, isBlankText_dottedText]

theorem requireExpression_dottedMember (part expression : String) :
    requireExpression part (dottedMember expression) =
      (requireExpression part expression).mapError SettingsError.withDots := by
  rw [← requireExpression_dottedText, ← dottedText_dottedMember, requireExpression_dottedText,
    ← requireExpression_mapError]

theorem checkField_dottedField (qualified : String) :
    checkField (dottedField qualified) =
      (checkField qualified).mapError SettingsError.withDots := by
  simp only [checkField, splitField_dottedField]
  cases found : splitField qualified with
  | ok parts => rfl
  | error e => rw [splitField_error found]; rfl

theorem LockEntry.checkEntry_withDots (entry : LockEntry) :
    entry.withDots.checkEntry = entry.checkEntry.mapError SettingsError.withDots := by
  have checked : entry.withDots.check = entry.check.mapError SettingsError.withDots := by
    rcases entry with ⟨expression, _ | name, mode, _ | _⟩
    · rfl
    · rfl
    all_goals
      simp only [check, withDots]
      split_ifs <;> rfl
  rw [checkEntry, checkEntry, mapError_bind, checked]
  simp only [withDots, requireExpression_dottedMember]

theorem PolicySettings.validate_withDots (p : PolicySettings) :
    p.withDots.validate = p.validate.mapError SettingsError.withDots := by
  have classes := checkAll_map
    (fun e : ClassEntry => requireExpression "instrumentedClasses" e.expression)
    (f := ClassEntry.withDots) (fun _ => requireExpression_dottedText _ _) p.instrumentedClasses
  have excludes := checkAll_map (requireExpression "permanentExcludes")
    (requireExpression_dottedText _) p.permanentExcludes
  have portable := checkAll_map (requireExpression "nonPortable")
    (requireExpression_dottedText _) p.nonPortable
  have locks := checkAll_map LockEntry.checkEntry LockEntry.checkEntry_withDots p.locks
  have exempt := checkAll_map (requireExpression "autolockExcludes")
    (requireExpression_dottedMember _) p.autolockExcludes
  have distributed := checkAll_map
    (fun e : DistributedEntry => requireExpression "distributedMethods" e.expression)
    (f := DistributedEntry.withDots) (fun _ => requireExpression_dottedMember _ _)
    p.distributedMethods
  have roots := checkAll_map (fun e : RootEntry => checkField e.field) (f := RootEntry.withDots)
    (fun _ => checkField_dottedField _) p.roots
  have transients := checkAll_map checkField checkField_dottedField p.transientFields
  simp only [validate, mapError_bind, withDots_instrumentedClasses, withDots_permanentExcludes,
    withDots_nonPortable, withDots_locks, withDots_autolockExcludes, withDots_distributedMethods,
    withDots_roots, withDots_transientFields, classes, excludes, portable, locks, exempt,
    distributed, roots, transients]

namespace Engine

theorem addRootEntry_withDots (entry : RootEntry) (e : Engine) :
    addRootEntry entry.withDots e.withDots = Outcome.withDots (addRootEntry entry e) := by
  simp only [addRootEntry, RootEntry.withDots, splitField_dottedField]
  cases found : splitField entry.field with
  | ok parts => simp only [ofString_dottedText, addRoot_withDots]
  | error error => rw [splitField_error found]; rfl

theorem addTransientField_withDots (qualified : String) (e : Engine) :
    addTransientField (dottedField qualified) e.withDots =
      Outcome.withDots (addTransientField qualified e) := by
  simp only [addTransientField, splitField_dottedField]
  cases found : splitField qualified with
  | ok parts =>
    have names := splitField_eq_ok_iff.1 found
    exact addTransient_of_filled e (by simp [names.owner_ne, names.field_ne])
  | error error => rw [splitField_error found]; rfl

theorem addRuleEntries_withDots (entries : List ClassEntry) (e : Engine) :
    addRules ((entries.map ClassEntry.withDots).map ClassEntry.rule) e.withDots =
      Outcome.withDots (addRules (entries.map ClassEntry.rule) e) := by
  have rules : (entries.map ClassEntry.withDots).map ClassEntry.rule =
      (entries.map ClassEntry.rule).map Rule.withDots := by
    simp [ClassEntry.rule_withDots]
  rw [rules, addRules_withDots]

theorem addLockEntries_withDots (entries : List LockEntry) (e : Engine) :
    forEach addLockEntry (entries.map LockEntry.withDots) e.withDots =
      Outcome.withDots (forEach addLockEntry entries e) := by
  refine forEach_withDots (fun entry e => ?_) entries e
  rw [addLockEntry_eq, addLockEntry_eq]
  rfl

theorem applyPolicy_withDots (p : PolicySettings) (e : Engine) :
    applyPolicy p.withDots e.withDots = Outcome.withDots (applyPolicy p e) := by
  simp only [applyPolicy, PolicySettings.validate_withDots]
  cases p.validate with
  | error error => rfl
  | ok _ =>
    simp only [Except.mapError]
    refine andThen_withDots (addRuleEntries_withDots p.instrumentedClasses) ?_ e
    refine andThen_withDots (always_withDots fun e => ?_) ?_
    · rw [PolicySettings.withDots_permanentExcludes, PolicySettings.withDots_nonPortable,
        foldl_spelled fun _ _ => rfl, foldl_spelled fun _ _ => rfl]
    refine andThen_withDots (addLockEntries_withDots p.locks) ?_
    refine andThen_withDots (always_withDots (foldl_spelled addAutolockExclude_withDots _)) ?_
    refine andThen_withDots (forEach_withDots addRootEntry_withDots p.roots) ?_
    refine andThen_withDots (forEach_withDots addTransientField_withDots p.transientFields) ?_
    refine always_withDots fun e => ?_
    simp only [PolicySettings.withDots_distributedMethods, PolicySettings.withDots_customRewriters,
      PolicySettings.withDots_allowDynamicSubtypes]
    rw [foldl_spelled fun e (entry : DistributedEntry) =>
        addDistributed_withDots e ⟨entry.expression, entry.runOnAllNodes⟩,
      foldl_withDots fun _ _ => rfl, setAllowsDynamicSubtypes_withDots, apply_ite withDots]

/-! ### From settings to an engine -/

theorem requireInventory_withDots (manifest : Manifest) (e : Engine) :
    requireInventory manifest e.withDots = Outcome.withDots (requireInventory manifest e) := by
  simp only [requireInventory, verifyInventory, withDots_registries, Registries.withDots_specs,
    InventoryReport.requireComplete]
  by_cases complete : (e.registries.specs.verify manifest).isComplete = true
  · simp only [complete, if_true]
    rfl
  · simp only [complete, Bool.false_eq_true, if_false]
    rfl

theorem admitInventory_withDots (settings : InventorySettings) (file : FileContent) (e : Engine) :
    admitInventory settings file e.withDots =
      Outcome.withDots (admitInventory settings file e) := by
  simp only [admitInventory]
  cases settings.manifestPath with
  | none => rfl
  | some path =>
    rcases Manifest.ofFile_cases path file with ⟨manifest, loaded⟩ | failed
    · simp only [loaded]
      refine thenWith_withDots (fun e => addMissingSpecs_withDots e .inventory _)
        (fun _ e => ?_) e
      split
      · exact requireInventory_withDots manifest e
      · rfl
    · simp only [failed]
      rfl

theorem bootstrap_withDots (settings : Settings) (manifest : FileContent) :
    bootstrap { settings with policy := settings.policy.withDots } manifest =
      Outcome.withDots (bootstrap settings manifest) := by
  have ready : ∀ e : Engine,
      always reportReady e.withDots = Outcome.withDots (always reportReady e) :=
    always_withDots fun _ => rfl
  have applied := andThen_withDots (applyPolicy_withDots settings.policy)
    (andThen_withDots (admitInventory_withDots settings.inventory manifest) ready)
  simp only [bootstrap, PolicySettings.validate_withDots]
  cases settings.policy.validate with
  | error error => rfl
  | ok _ =>
    have installed : ∀ e : Engine,
        (if settings.policy.includeBuiltins then Builtins.install else always id) e.withDots =
          Outcome.withDots
            ((if settings.policy.includeBuiltins then Builtins.install else always id) e) := by
      intro e
      split
      · exact install_withDots e
      · rfl
    -- A fresh engine is in the dotted spelling: it holds no pattern yet.
    exact andThen_withDots installed applied (ofOptions
      { internalNamespaces := settings.policy.internalNamespaces
        allowDynamicSubtypes := settings.policy.allowDynamicSubtypes })

end Engine

end ClassPolicy
