import ClassPolicy.Proofs.Sequencing
import ClassPolicy.Settings.Validation

/-!
# What the checks of the settings accept

The checks run through the parts of a policy one after the other and stop at
the first fault. Together they accept exactly the policies that say something
everywhere: no expression is blank, every root and transient field has a type
and a field, and no named lock passes for an autolock.
-/

set_option autoImplicit false

namespace ClassPolicy

/-- There is more in the text than blank characters. -/
def Written (text : String) : Prop := ∃ c ∈ text.toList, Text.isBlank c = false

/-- The text has a type in front of its last dot and a field behind it. -/
structure NamesField (text owner field : String) : Prop where
  spelled : text.toList = owner.toList ++ '.' :: field.toList
  last : '.' ∉ field.toList
  owner_ne : owner ≠ ""
  field_ne : field ≠ ""

/-- A named lock is not called as the autolocks are, blanks around it left out
of account, and does not ask to be auto-synchronized. -/
def LockEntry.Admissible (e : LockEntry) : Prop :=
  ∀ name, e.name = some name →
    Text.trim name.toList ≠ LockDefinition.autolockName.toList ∧ e.autoSynchronized = false

/-- The policies that pass the checks. -/
structure PolicySettings.Sound (p : PolicySettings) : Prop where
  instrumentedClasses : ∀ entry ∈ p.instrumentedClasses, Written entry.expression
  permanentExcludes : ∀ pattern ∈ p.permanentExcludes, Written pattern
  nonPortable : ∀ pattern ∈ p.nonPortable, Written pattern
  locks : ∀ entry ∈ p.locks, Written entry.expression
  lockNames : ∀ entry ∈ p.locks, entry.Admissible
  autolockExcludes : ∀ pattern ∈ p.autolockExcludes, Written pattern
  distributedMethods : ∀ entry ∈ p.distributedMethods, Written entry.expression
  roots : ∀ entry ∈ p.roots, ∃ owner field, NamesField entry.field owner field
  transientFields : ∀ text ∈ p.transientFields, ∃ owner field, NamesField text owner field

/-! ### One check -/

theorem requireExpression_eq_ok_iff {part expression : String} :
    requireExpression part expression = .ok () ↔ Written expression := by
  unfold requireExpression Written
  cases blank : Text.isBlankText expression with
  | true =>
    have all : ∀ c ∈ expression.toList, Text.isBlank c = true := List.all_eq_true.1 blank
    simpa using all
  | false =>
    simpa [Text.isBlankText] using blank

theorem splitField_eq_ok_iff {text owner field : String} :
    splitField text = .ok (owner, field) ↔ NamesField text owner field := by
  unfold splitField
  constructor
  · intro split
    split at split
    · rename_i before after cut
      split at split
      · cases split
      · rename_i filled
        cases split
        simp only [Bool.or_eq_true, List.isEmpty_iff, not_or] at filled
        obtain ⟨spelled, last⟩ := Text.cutLast?_eq_some_iff.1 cut
        refine ⟨by simpa using spelled, by simpa using last, fun empty => filled.1 ?_,
          fun empty => filled.2 ?_⟩
        · simpa using congrArg String.toList empty
        · simpa using congrArg String.toList empty
    · cases split
  · rintro ⟨spelled, last, owner_ne, field_ne⟩
    have cut : Text.cutLast? '.' text.toList = some (owner.toList, field.toList) :=
      Text.cutLast?_eq_some_iff.2 ⟨spelled, last⟩
    simp [cut, owner_ne, field_ne]

theorem checkField_eq_ok_iff {text : String} :
    checkField text = .ok () ↔ ∃ owner field, NamesField text owner field := by
  simp only [← splitField_eq_ok_iff, checkField]
  cases splitField text with
  | error e => simp [Except.map]
  | ok parts => simpa [Except.map] using ⟨parts.1, parts.2, rfl⟩

theorem LockEntry.check_eq_ok_iff {e : LockEntry} : e.check = .ok () ↔ e.Admissible := by
  unfold check Admissible
  cases e.name with
  | none => simp
  | some name =>
    by_cases reserved : Text.trim name.toList = LockDefinition.autolockName.toList
    · simp [reserved]
    · cases e.autoSynchronized <;> simp [reserved]

theorem checkAll_eq_ok_iff {α : Type} {check : α → Except SettingsError Unit} {items : List α} :
    checkAll check items = .ok () ↔ ∀ item ∈ items, check item = .ok () := by
  induction items with
  | nil => simp [checkAll]
  | cons item rest ih =>
    cases checked : check item with
    | error e => simp [checkAll, checked]
    | ok _ => simp [checkAll, checked, ih]

/-! ### The whole policy -/

theorem PolicySettings.validate_eq_ok_iff {p : PolicySettings} : p.validate = .ok () ↔ p.Sound := by
  simp only [validate, check_bind_eq_ok_iff, checkAll_eq_ok_iff, requireExpression_eq_ok_iff,
    LockEntry.checkEntry, LockEntry.check_eq_ok_iff, checkField_eq_ok_iff]
  constructor
  · rintro ⟨classes, excludes, portable, locks, exempt, distributed, roots, transients⟩
    exact ⟨classes, excludes, portable, fun e h => (locks e h).1, fun e h => (locks e h).2,
      exempt, distributed, roots, transients⟩
  · intro sound
    exact ⟨sound.instrumentedClasses, sound.permanentExcludes, sound.nonPortable,
      fun e h => ⟨sound.locks e h, sound.lockNames e h⟩, sound.autolockExcludes,
      sound.distributedMethods, sound.roots, sound.transientFields⟩

end ClassPolicy
