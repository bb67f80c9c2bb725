import ClassPolicy.Bootstrap
import ClassPolicy.Proofs.SettingsChecks

/-!
# What a policy makes of the registries

A policy that passes its checks is registered in stages. All of them succeed
whatever the registries hold, but for the roots: a root can be there already.
The roots are all taken exactly when no two entries stand for the same field
and none of these fields was a root before.
-/

set_option autoImplicit false

namespace ClassPolicy

/-- The field that an entry names, the type in its dotted spelling. -/
def RootEntry.Denotes (entry : RootEntry) (name : TypeName) (field : String) : Prop :=
  ∃ owner, NamesField entry.field owner field ∧ TypeName.ofString owner = name

theorem NamesField.unique {text owner field owner' field' : String}
    (names : NamesField text owner field) (names' : NamesField text owner' field') :
    owner = owner' ∧ field = field' := by
  have same := (splitField_eq_ok_iff.2 names).symm.trans (splitField_eq_ok_iff.2 names')
  simpa using same

theorem RootEntry.Denotes.unique {entry : RootEntry} {name name' : TypeName} {field field' : String}
    (denotes : entry.Denotes name field) (denotes' : entry.Denotes name' field') :
    name = name' ∧ field = field' := by
  obtain ⟨owner, names, rfl⟩ := denotes
  obtain ⟨owner', names', rfl⟩ := denotes'
  obtain ⟨rfl, rfl⟩ := NamesField.unique names names'
  exact ⟨rfl, rfl⟩

/-- No two of the entries denote one field. -/
def RootsApart (entries : List RootEntry) : Prop :=
  entries.Pairwise fun one other =>
    ∀ name field, one.Denotes name field → ¬ other.Denotes name field

/-- The entries are apart, and from the roots that are there. -/
structure RootsFree (entries : List RootEntry) (roots : RootRegistry) : Prop where
  apart : RootsApart entries
  absent : ∀ entry ∈ entries, ∀ name field, entry.Denotes name field → roots.get? name field = none

namespace LockEntry

/-- The committed definition that an entry stands for. -/
def definition (entry : LockEntry) : LockDefinition :=
  { name := entry.name.getD LockDefinition.autolockName
    level := ⟨entry.mode, entry.name.isNone && entry.autoSynchronized⟩
    provenance := entry.provenance
    committed := true }

/-- The definition of an entry is written while it is open and committed once,
so it is built without a violation. -/
theorem build_eq (entry : LockEntry) : entry.build = .ok entry.definition := by
  unfold build definition
  cases entry.name with
  | some name => exact LockDefinition.complete_named name _ entry.provenance
  | none =>
    cases entry.autoSynchronized <;>
      exact LockDefinition.complete_named LockDefinition.autolockName _ entry.provenance

def rule (entry : LockEntry) : LockRule := ⟨entry.expression, entry.definition⟩

end LockEntry

theorem ClassEntry.rule_disposition_ne (entry : ClassEntry) :
    entry.rule.disposition ≠ .noOpinion := by
  unfold ClassEntry.rule
  split <;> simp [Rule.excluding, Rule.including]

namespace Registries

/-- What a policy registers ahead of its roots. -/
def configured (p : PolicySettings) (r : Registries) : Registries :=
  { r with
    rules := { r.rules with
      rules := p.instrumentedClasses.map ClassEntry.rule ++ r.rules.rules
      permanentExcludes := p.permanentExcludes.reverse ++ r.rules.permanentExcludes
      nonPortable := p.nonPortable.reverse ++ r.rules.nonPortable }
    locks :=
      { rules := (p.locks.map LockEntry.rule).reverse ++ r.locks.rules
        autolockExcludes := r.locks.autolockExcludes ++ p.autolockExcludes } }

def withTransientField (r : Registries) (text : String) : Registries :=
  match splitField text with
  | .error _ => r
  | .ok (typeName, field) =>
    { r with transients := r.transients.add (TypeName.ofString typeName) field }

theorem withTransientField_eq (r : Registries) (text : String) :
    ∃ transients, r.withTransientField text = { r with transients } := by
  unfold withTransientField
  split
  · exact ⟨r.transients, rfl⟩
  · exact ⟨_, rfl⟩

/-- What a policy registers behind its roots. -/
def completed (p : PolicySettings) (r : Registries) : Registries :=
  let r := p.transientFields.foldl withTransientField r
  { r with
    distributed := r.distributed ++
      p.distributedMethods.map (fun entry => ⟨entry.expression, entry.runOnAllNodes⟩)
    rewriters := p.customRewriters.entries.foldl
      (fun rewriters q => rewriters.insert (TypeName.ofString q.1).text q.2) r.rewriters
    rules := { r.rules with
      allowsDynamicSubtypes := r.rules.allowsDynamicSubtypes || p.allowDynamicSubtypes } }

theorem foldl_withTransientField (texts : List String) (r : Registries) :
    ∃ transients, texts.foldl withTransientField r = { r with transients } := by
  induction texts generalizing r with
  | nil => exact ⟨r.transients, rfl⟩
  | cons text rest ih =>
    obtain ⟨transients, first⟩ := r.withTransientField_eq text
    rw [List.foldl_cons, first]
    exact ih _

section Completed

variable (p : PolicySettings) (r : Registries)

@[simp] theorem specs_completed : (completed p r).specs = r.specs := by
  obtain ⟨transients, left⟩ := foldl_withTransientField p.transientFields r
  simp [completed, left]

@[simp] theorem locks_completed : (completed p r).locks = r.locks := by
  obtain ⟨transients, left⟩ := foldl_withTransientField p.transientFields r
  simp [completed, left]

@[simp] theorem rules_completed : (completed p r).rules.rules = r.rules.rules := by
  obtain ⟨transients, left⟩ := foldl_withTransientField p.transientFields r
  simp [completed, left]

end Completed

end Registries

namespace Engine

/-! ### Stages that succeed -/

/-- The call succeeds, and this is what it makes of the registries. -/
def Makes (call : Engine → Outcome Unit) (change : Registries → Registries) : Prop :=
  ∀ e, ∃ e', call e = (.ok (), e') ∧ e'.registries = change e.registries

theorem always_makes {f : Engine → Engine} {change : Registries → Registries}
    (made : ∀ e, (f e).registries = change e.registries) : Makes (always f) change :=
  fun e => ⟨f e, rfl, made e⟩

theorem andThen_makes {first second : Engine → Outcome Unit} {f g : Registries → Registries}
    (one : Makes first f) (two : Makes second g) :
    Makes (andThen first second) (fun r => g (f r)) := by
  intro e
  obtain ⟨e₁, firstDone, left₁⟩ := one e
  obtain ⟨e₂, secondDone, left₂⟩ := two e₁
  exact ⟨e₂, by rw [andThen_of_ok firstDone, secondDone], by rw [left₂, left₁]⟩

theorem forEach_makes {α : Type} {call : α → Engine → Outcome Unit}
    {change : Registries → α → Registries} {items : List α}
    (each : ∀ item ∈ items, Makes (call item) (change · item)) :
    Makes (forEach call items) (fun r => items.foldl change r) := by
  induction items with
  | nil => exact fun e => ⟨e, rfl, rfl⟩
  | cons item rest ih =>
    obtain ⟨first, later⟩ := List.forall_mem_cons.1 each
    rw [forEach_cons]
    exact andThen_makes first (ih later)

theorem addRules_makes (block : List Rule)
    (opinions : ∀ rule ∈ block, rule.disposition ≠ .noOpinion) : Makes (addRules block)
      (fun r => { r with rules := { r.rules with rules := block ++ r.rules.rules } }) := by
  intro e
  unfold addRules
  split
  · rename_i empty
    exact ⟨e, rfl, by simp [List.isEmpty_iff.1 empty]⟩
  · have all : block.find? (fun rule => rule.disposition = .noOpinion) = none := by
      simpa [List.find?_eq_none] using opinions
    simp only [RuleRegistry.prependBlock, all]
    exact ⟨_, rfl, rfl⟩

theorem registries_permanentExcludes (patterns : List String) (e : Engine) :
    (patterns.foldl (fun e p => e.addPermanentExclude p) e).registries =
      { e.registries with rules := { e.registries.rules with
          permanentExcludes := patterns.reverse ++ e.registries.rules.permanentExcludes } } := by
  induction patterns generalizing e with
  | nil => rfl
  | cons p rest ih =>
    rw [List.foldl_cons, ih]
    simp [addPermanentExclude, withRules, register, RuleRegistry.addPermanentExclude]

theorem registries_nonPortable (patterns : List String) (e : Engine) :
    (patterns.foldl (fun e p => e.addNonPortable p) e).registries =
      { e.registries with rules := { e.registries.rules with
          nonPortable := patterns.reverse ++ e.registries.rules.nonPortable } } := by
  induction patterns generalizing e with
  | nil => rfl
  | cons p rest ih =>
    rw [List.foldl_cons, ih]
    simp [addNonPortable, withRules, register, RuleRegistry.addNonPortable]

theorem addExclusions_makes (excludes nonPortable : List String) :
    Makes (always fun e =>
        let e := excludes.foldl (fun e p => e.addPermanentExclude p) e
        nonPortable.foldl (fun e p => e.addNonPortable p) e)
      (fun r => { r with rules := { r.rules with
          permanentExcludes := excludes.reverse ++ r.rules.permanentExcludes
          nonPortable := nonPortable.reverse ++ r.rules.nonPortable } }) := by
  refine always_makes fun e => ?_
  simp only [registries_nonPortable, registries_permanentExcludes]

theorem registries_autolockExcludes (patterns : List String) (e : Engine) :
    (patterns.foldl (fun e p => e.addAutolockExclude p) e).registries =
      { e.registries with locks := { e.registries.locks with
          autolockExcludes := e.registries.locks.autolockExcludes ++ patterns } } := by
  induction patterns generalizing e with
  | nil => simp
  | cons p rest ih =>
    rw [List.foldl_cons, ih]
    simp [addAutolockExclude, withLocks, adjust, LockPolicy.addAutolockExclude]

theorem addAutolockExcludes_makes (patterns : List String) :
    Makes (always fun e => patterns.foldl (fun e p => e.addAutolockExclude p) e)
      (fun r => { r with locks := { r.locks with
          autolockExcludes := r.locks.autolockExcludes ++ patterns } }) :=
  always_makes (registries_autolockExcludes patterns)

/-- Locks that go in one by one stand before those that are there, the last one
first. -/
theorem addLocks_makes {α : Type} {call : α → Engine → Outcome Unit} {rule : α → LockRule}
    (each : ∀ item e, call item e = (.ok (), e.withLocks (·.prepend (rule item))))
    (items : List α) :
    Makes (forEach call items) (fun r => { r with locks := { r.locks with
      rules := (items.map rule).reverse ++ r.locks.rules } }) := by
  have prepended : ∀ r : Registries,
      items.foldl (fun r item => { r with locks := r.locks.prepend (rule item) }) r =
        { r with locks := { r.locks with
            rules := (items.map rule).reverse ++ r.locks.rules } } := by
    induction items with
    | nil => exact fun _ => rfl
    | cons item rest ih =>
      intro r
      rw [List.foldl_cons, ih]
      simp [LockPolicy.prepend]
  simp only [← prepended]
  exact forEach_makes fun item _ e => ⟨_, each item e, rfl⟩

theorem addLockEntry_eq (entry : LockEntry) (e : Engine) :
    addLockEntry entry e = (.ok (), e.withLocks (·.prepend entry.rule)) := by
  rw [addLockEntry, entry.build_eq]
  exact addLock_of_committed entry.expression (show entry.definition.committed = true from rfl) e

theorem addLockEntries_makes (entries : List LockEntry) :
    Makes (forEach addLockEntry entries)
      (fun r => { r with locks := { r.locks with
          rules := (entries.map LockEntry.rule).reverse ++ r.locks.rules } }) :=
  addLocks_makes addLockEntry_eq entries

theorem addTransientField_makes {text : String} (named : ∃ owner field, NamesField text owner field) :
    Makes (addTransientField text) (·.withTransientField text) := by
  obtain ⟨owner, field, names⟩ := named
  intro e
  simp [addTransientField, Registries.withTransientField, splitField_eq_ok_iff.2 names,
    addTransient, names.owner_ne, names.field_ne, adjust]

theorem registries_distributed (entries : List DistributedEntry) (e : Engine) :
    (entries.foldl (fun e entry => e.addDistributed ⟨entry.expression, entry.runOnAllNodes⟩)
        e).registries =
      { e.registries with
        distributed := e.registries.distributed ++
          entries.map (fun entry => ⟨entry.expression, entry.runOnAllNodes⟩) } := by
  induction entries generalizing e with
  | nil => simp
  | cons entry rest ih =>
    rw [List.foldl_cons, ih]
    simp [addDistributed, adjust]

theorem registries_rewriters (entries : List (String × String)) (e : Engine) :
    (entries.foldl (fun e p => e.addRewriter p.1 p.2) e).registries =
      { e.registries with
        rewriters := entries.foldl
          (fun rewriters p => rewriters.insert (TypeName.ofString p.1).text p.2)
          e.registries.rewriters } := by
  induction entries generalizing e with
  | nil => rfl
  | cons entry rest ih =>
    rw [List.foldl_cons, ih]
    simp [addRewriter, register]

theorem registries_setAllowsDynamicSubtypes (allow : Bool) (e : Engine) :
    (e.setAllowsDynamicSubtypes allow).registries =
      { e.registries with rules := { e.registries.rules with allowsDynamicSubtypes := allow } } := by
  unfold setAllowsDynamicSubtypes
  split
  · rename_i same
    simp [← same]
  · rfl

/-! ### The roots -/

/-- With the root of the first entry taken in, the others have to be free. -/
theorem rootsFree_cons_iff {entry : RootEntry} {rest : List RootEntry} {name : TypeName}
    {field : String} {root : RootDefinition} {roots roots' : RootRegistry}
    (denotes : entry.Denotes name field) (absent : roots.get? name field = none)
    (added : ∀ name' field', roots'.get? name' field' =
      if name' = name ∧ field' = field then some root else roots.get? name' field') :
    RootsFree (entry :: rest) roots ↔ RootsFree rest roots' := by
  constructor
  · rintro ⟨apart, free⟩
    obtain ⟨fromFirst, apart⟩ := List.pairwise_cons.1 apart
    refine ⟨apart, fun other member name' field' otherDenotes => ?_⟩
    have different : ¬ (name' = name ∧ field' = field) := by
      rintro ⟨rfl, rfl⟩
      exact fromFirst other member name' field' denotes otherDenotes
    rw [added, if_neg different]
    exact free other (List.mem_cons_of_mem _ member) name' field' otherDenotes
  · rintro ⟨apart, free⟩
    refine ⟨List.pairwise_cons.2 ⟨fun other member name' field' first second => ?_, apart⟩, ?_⟩
    · obtain ⟨rfl, rfl⟩ := denotes.unique first
      simpa [added] using free other member name field second
    · refine List.forall_mem_cons.2 ⟨fun name' field' first => ?_, fun other member => ?_⟩
      · obtain ⟨rfl, rfl⟩ := denotes.unique first
        exact absent
      · intro name' field' otherDenotes
        have gone := free other member name' field' otherDenotes
        rw [added] at gone
        split at gone
        · cases gone
        · exact gone

theorem addRootEntry_of_taken {entry : RootEntry} {name : TypeName} {field : String} {e : Engine}
    (denotes : entry.Denotes name field) (taken : e.registries.roots.get? name field ≠ none) :
    addRootEntry entry e = (.error (.error (.duplicateRoot name field)), e) := by
  obtain ⟨owner, names, rfl⟩ := denotes
  have there := Option.isSome_iff_ne_none.2 taken
  simp [addRootEntry, splitField_eq_ok_iff.2 names, addRoot, RootRegistry.add, names.field_ne,
    there, refused]

theorem addRootEntry_of_absent {entry : RootEntry} {name : TypeName} {field : String} {e : Engine}
    (denotes : entry.Denotes name field) (absent : e.registries.roots.get? name field = none) :
    ∃ root roots, addRootEntry entry e = (.ok (), e.register ({ · with roots })) ∧
      ∀ name' field', roots.get? name' field' =
        if name' = name ∧ field' = field then some root
        else e.registries.roots.get? name' field' := by
  obtain ⟨owner, names, rfl⟩ := denotes
  let root : RootDefinition :=
    { typeName := TypeName.ofString owner, fieldName := field
      rootName := entry.name, isFinal := entry.isFinal }
  have added : ∃ roots, e.registries.roots.add root = .ok roots := by
    simp [RootRegistry.add, root, names.field_ne, absent]
  obtain ⟨roots, added⟩ := added
  refine ⟨root, roots, ?_, RootRegistry.get?_add added⟩
  simp only [addRootEntry, splitField_eq_ok_iff.2 names, addRoot]
  rw [added]
  rfl

/-- How the entries of a policy end: all are taken in, or one of them stands
for a root that is there. -/
inductive RootsTaken (entries : List RootEntry) (r : Registries) : Outcome Unit → Prop
  | all {e : Engine} {roots : RootRegistry} (free : RootsFree entries r.roots)
      (left : e.registries = { r with roots }) : RootsTaken entries r (.ok (), e)
  | duplicate {e : Engine} {roots : RootRegistry} {name : TypeName} {field : String}
      (taken : ¬ RootsFree entries r.roots) (left : e.registries = { r with roots }) :
      RootsTaken entries r (.error (.error (.duplicateRoot name field)), e)

theorem forEach_rootsTaken {entries : List RootEntry}
    (named : ∀ entry ∈ entries, ∃ owner field, NamesField entry.field owner field) (e : Engine) :
    RootsTaken entries e.registries (forEach addRootEntry entries e) := by
  induction entries generalizing e with
  | nil => exact .all ⟨.nil, by simp⟩ rfl
  | cons entry rest ih =>
    obtain ⟨⟨owner, field, names⟩, named⟩ := List.forall_mem_cons.1 named
    have denotes : entry.Denotes (TypeName.ofString owner) field := ⟨owner, names, rfl⟩
    by_cases absent : e.registries.roots.get? (TypeName.ofString owner) field = none
    · -- What is behind this entry has to be free of its root too.
      obtain ⟨root, roots, done, added⟩ := addRootEntry_of_absent denotes absent
      have frees : RootsFree (entry :: rest) e.registries.roots ↔ RootsFree rest roots :=
        rootsFree_cons_iff denotes absent added
      have later := ih named (e.register ({ · with roots }))
      rw [forEach_cons, andThen_of_ok done]
      generalize forEach addRootEntry rest (e.register ({ · with roots })) = outcome at later
      cases later with
      | all free left => exact .all (frees.2 free) left
      | duplicate taken left => exact .duplicate (fun free => taken (frees.1 free)) left
    · rw [forEach_cons, andThen_of_error (addRootEntry_of_taken denotes absent)]
      exact .duplicate (fun free => absent (free.absent entry List.mem_cons_self _ _ denotes)) rfl

/-! ### The whole policy -/

theorem completed_makes {p : PolicySettings} (sound : p.Sound) :
    Makes (andThen (forEach addTransientField p.transientFields) (always fun e =>
        let e := p.distributedMethods.foldl
          (fun e entry => e.addDistributed ⟨entry.expression, entry.runOnAllNodes⟩) e
        let e := p.customRewriters.entries.foldl (fun e p => e.addRewriter p.1 p.2) e
        if p.allowDynamicSubtypes then e.setAllowsDynamicSubtypes true else e))
      (Registries.completed p) := by
  intro e
  obtain ⟨e₁, transients, left₁⟩ := forEach_makes
    (fun text member => addTransientField_makes (sound.transientFields text member)) e
  rw [andThen_of_ok transients]
  simp only [always, Registries.completed, ← left₁]
  refine ⟨_, rfl, ?_⟩
  cases p.allowDynamicSubtypes <;>
    simp [registries_setAllowsDynamicSubtypes, registries_rewriters, registries_distributed]

/-- How a policy that passes its checks is registered. -/
inductive Applied (p : PolicySettings) (r : Registries) : Outcome Unit → Prop
  | all {e : Engine} {roots : RootRegistry} (free : RootsFree p.roots r.roots)
      (left : e.registries = Registries.completed p { r.configured p with roots }) :
      Applied p r (.ok (), e)
  | duplicate {e : Engine} {roots : RootRegistry} {name : TypeName} {field : String}
      (taken : ¬ RootsFree p.roots r.roots) (left : e.registries = { r.configured p with roots }) :
      Applied p r (.error (.error (.duplicateRoot name field)), e)

theorem applyPolicy_applied {p : PolicySettings} (sound : p.Sound) (e : Engine) :
    Applied p e.registries (applyPolicy p e) := by
  have opinions : ∀ rule ∈ p.instrumentedClasses.map ClassEntry.rule,
      rule.disposition ≠ .noOpinion := by
    simpa using fun entry _ => ClassEntry.rule_disposition_ne entry
  obtain ⟨e₁, rules, left₁⟩ := addRules_makes _ opinions e
  obtain ⟨e₂, exclusions, left₂⟩ := addExclusions_makes p.permanentExcludes p.nonPortable e₁
  obtain ⟨e₃, locks, left₃⟩ := addLockEntries_makes p.locks e₂
  obtain ⟨e₄, exempt, left₄⟩ := addAutolockExcludes_makes p.autolockExcludes e₃
  have configured : e₄.registries = e.registries.configured p := by
    simp only [left₄, left₃, left₂, left₁, Registries.configured]
  -- The stages up to here succeed; the roots are the one that need not.
  have roots := forEach_rootsTaken sound.roots e₄
  rw [configured] at roots
  simp only [applyPolicy, PolicySettings.validate_eq_ok_iff.2 sound]
  rw [andThen_of_ok rules, andThen_of_ok exclusions, andThen_of_ok locks, andThen_of_ok exempt]
  generalize rooted : forEach addRootEntry p.roots e₄ = outcome at roots
  cases roots with
  | all free left =>
    obtain ⟨e', completed, left'⟩ := completed_makes sound _
    rw [andThen_of_ok rooted, completed]
    exact .all free (by rw [left', left])
  | duplicate taken left =>
    rw [andThen_of_error rooted]
    exact .duplicate taken left

end Engine

end ClassPolicy
