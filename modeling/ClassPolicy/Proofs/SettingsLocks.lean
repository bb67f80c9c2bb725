import ClassPolicy.Engine.Call
import ClassPolicy.Proofs.BootstrapOutcome
import ClassPolicy.Proofs.LockResolution

/-!
# Lock settings and the locks of a member

The lock entries of the settings are registered one before the other, so a
member meets the last entry of the file first. The checks keep the name of the
autolocks from named entries, which is all that tells the two kinds apart
afterwards.
-/

set_option autoImplicit false

namespace ClassPolicy

namespace LockEntry

/-- The definition of an entry that has a name. -/
def asNamed (entry : LockEntry) (name : String) : LockDefinition where
  name := name
  level := ⟨entry.mode, false⟩
  provenance := entry.provenance
  committed := true

/-- The definition of an entry without one. -/
def asAutolock (entry : LockEntry) : LockDefinition where
  name := LockDefinition.autolockName
  level := if entry.autoSynchronized then LockLevel.autoVariant ⟨entry.mode, false⟩
    else ⟨entry.mode, false⟩
  provenance := entry.provenance
  committed := true

theorem definition_of_name {entry : LockEntry} {name : String} (named : entry.name = some name) :
    entry.definition = entry.asNamed name := by
  simp [definition, asNamed, named]

theorem definition_of_unnamed {entry : LockEntry} (unnamed : entry.name = none) :
    entry.definition = entry.asAutolock := by
  cases raised : entry.autoSynchronized <;>
    simp [definition, asAutolock, unnamed, raised, LockLevel.autoVariant]

/-- An entry that passes the checks has the name of the autolocks only if it
has none of its own. -/
theorem Admissible.isNamed_definition {entry : LockEntry} (admissible : entry.Admissible) :
    entry.definition.isNamed = entry.name.isSome := by
  cases named : entry.name with
  | none => simp [definition, LockDefinition.isNamed, named]
  | some name =>
    have other : name ≠ LockDefinition.autolockName := by
      rintro rfl
      exact (admissible _ named).1 (by decide)
    simp [definition, LockDefinition.isNamed, named, other]

theorem isNamed_asAutolock (entry : LockEntry) : entry.asAutolock.isNamed = false := rfl

theorem Admissible.isNamed_asNamed {entry : LockEntry} (admissible : entry.Admissible)
    {name : String} (named : entry.name = some name) : (entry.asNamed name).isNamed = true := by
  rw [← definition_of_name named, admissible.isNamed_definition, named]
  rfl

end LockEntry

/-- The definitions of the named entries, the last entry first. -/
def namedLocks (entries : List LockEntry) : List LockDefinition :=
  entries.reverse.filterMap fun entry => entry.name.map entry.asNamed

theorem namedLocks_cons (entry : LockEntry) (rest : List LockEntry) :
    namedLocks (entry :: rest) = namedLocks rest ++ (entry.name.map entry.asNamed).toList := by
  cases named : entry.name <;> simp [namedLocks, named]

/-- The entries that match a member. -/
def PolicySettings.locksOn (p : PolicySettings) (m : MemberDescriptor) : List LockEntry :=
  p.locks.filter (hits ·.expression m)

/-- Whether a member is exempted from autolocks. -/
def PolicySettings.exempts (p : PolicySettings) (m : MemberDescriptor) : Bool :=
  p.autolockExcludes.any (hits · m)

/-- The expressions about members are all patterns that can be read. -/
structure PolicySettings.LockPatternsAccepted (p : PolicySettings) : Prop where
  locks : ∀ entry ∈ p.locks, ∃ q, MemberPattern.compile entry.expression = .ok q
  exceptions : ∀ pattern ∈ p.autolockExcludes, ∃ q, MemberPattern.compile pattern = .ok q

section Admissible

variable {entries : List LockEntry}

theorem isNamed_namedLocks (admissible : ∀ entry ∈ entries, entry.Admissible) :
    ∀ d ∈ namedLocks entries, d.isNamed = true := by
  intro d member
  simp only [namedLocks, List.mem_filterMap, List.mem_reverse, Option.map_eq_some_iff] at member
  obtain ⟨entry, member, name, named, rfl⟩ := member
  exact (admissible entry member).isNamed_asNamed named

/-- The definitions of entries as they are registered, less those of the unnamed ones. -/
theorem filter_isNamed_definitions (admissible : ∀ entry ∈ entries, entry.Admissible) :
    (entries.map LockEntry.definition).reverse.filter (·.isNamed) = namedLocks entries := by
  induction entries with
  | nil => rfl
  | cons entry rest ih =>
    obtain ⟨first, later⟩ := List.forall_mem_cons.1 admissible
    rw [namedLocks_cons, List.map_cons, List.reverse_cons, List.filter_append, ih later]
    cases named : entry.name with
    | none => simp [first.isNamed_definition, named]
    | some name =>
      simp [LockEntry.definition_of_name named, first.isNamed_asNamed named]

theorem reverse_definitions_of_named (admissible : ∀ entry ∈ entries, entry.Admissible)
    (named : ∀ entry ∈ entries, entry.name ≠ none) :
    (entries.map LockEntry.definition).reverse = namedLocks entries := by
  rw [← filter_isNamed_definitions admissible, eq_comm, List.filter_eq_self]
  intro d member
  obtain ⟨entry, here, rfl⟩ := List.mem_map.1 (List.mem_reverse.1 member)
  rw [(admissible entry here).isNamed_definition]
  exact Option.isSome_iff_ne_none.2 (named entry here)

theorem find?_namedLocks (admissible : ∀ entry ∈ entries, entry.Admissible) :
    (namedLocks entries).find? (!·.isNamed) = none := by
  simpa [List.find?_eq_none] using isNamed_namedLocks admissible

/-- No autolock is left when none is open, or none is there. -/
theorem capped_definitions_of_closed (admissible : ∀ entry ∈ entries, entry.Admissible)
    {exempt : Bool} (closed : exempt = true ∨ ∀ entry ∈ entries, entry.name ≠ none) :
    LockPolicy.capped (!exempt) (entries.map LockEntry.definition).reverse =
      namedLocks entries := by
  rcases closed with rfl | named
  · rw [Bool.not_true, LockPolicy.capped_false, filter_isNamed_definitions admissible]
  · rw [reverse_definitions_of_named admissible named,
      LockPolicy.capped_named (isNamed_namedLocks admissible)]

/-- Of the unnamed entries the last one gives its autolock. -/
theorem capped_definitions_of_last {before after : List LockEntry} {entry : LockEntry}
    (admissible : ∀ e ∈ before ++ entry :: after, e.Admissible) (unnamed : entry.name = none)
    (named : ∀ later ∈ after, later.name ≠ none) :
    LockPolicy.capped true ((before ++ entry :: after).map LockEntry.definition).reverse =
      namedLocks after ++ entry.asAutolock :: namedLocks before := by
  obtain ⟨admissibleBefore, fromEntry⟩ := List.forall_mem_append.1 admissible
  obtain ⟨here, admissibleAfter⟩ := List.forall_mem_cons.1 fromEntry
  have auto : entry.definition.isNamed = false := by rw [here.isNamed_definition, unnamed]; rfl
  rw [List.map_append, List.map_cons, List.reverse_append, List.reverse_cons, List.append_assoc,
    List.singleton_append, reverse_definitions_of_named admissibleAfter named,
    LockPolicy.capped_first (isNamed_namedLocks admissibleAfter) auto,
    filter_isNamed_definitions admissibleBefore, LockEntry.definition_of_unnamed unnamed]

end Admissible

theorem committed_namedLocks (entries : List LockEntry) :
    ∀ d ∈ namedLocks entries, d.committed = true := by
  intro d member
  simp only [namedLocks, List.mem_filterMap, Option.map_eq_some_iff] at member
  obtain ⟨entry, -, name, -, rfl⟩ := member
  rfl

namespace Engine

/-- With the built-in defaults left out the locks are those of the settings. -/
theorem locks_bootstrap {settings : Settings} {file : FileContent}
    (off : settings.policy.includeBuiltins = false)
    (booted : (bootstrap settings file).1 = .ok ()) :
    settings.policy.Sound ∧ (bootstrap settings file).2.registries.locks =
      ⟨(settings.policy.locks.map LockEntry.rule).reverse, settings.policy.autolockExcludes⟩ := by
  obtain ⟨sound, roots, inventory, left⟩ := registries_bootstrap booted
  refine ⟨sound, ?_⟩
  rw [left]
  simp [Registries.configured, groundFor, off, ofOptions]

/-- The definitions for a member: those of the entries that match it, the last
entry first, less the autolocks that are capped. -/
theorem definitionsFor_bootstrap {settings : Settings} {file : FileContent}
    (off : settings.policy.includeBuiltins = false)
    (booted : (bootstrap settings file).1 = .ok ())
    (accepted : settings.policy.LockPatternsAccepted) (m : MemberDescriptor) :
    (bootstrap settings file).2.registries.locks.definitionsFor m =
      .ok (LockPolicy.capped (!settings.policy.exempts m)
        ((settings.policy.locksOn m).map LockEntry.definition).reverse) := by
  obtain ⟨-, locks⟩ := locks_bootstrap off booted
  rw [LockPolicy.definitionsFor_eq_capped]
  · simp [locks, PolicySettings.exempts, PolicySettings.locksOn, List.filter_reverse,
      List.filter_map, LockEntry.rule, Function.comp_def]
  · simpa [locks, LockEntry.rule] using accepted.locks
  · simp [locks, LockEntry.rule, LockEntry.definition]
  · simpa [locks] using accepted.exceptions

theorem answers_of_capped {e : Engine} {m : MemberDescriptor} {ds : List LockDefinition}
    (definitions : e.registries.locks.definitionsFor m = .ok ds)
    (committed : ∀ d ∈ ds, d.committed = true) :
    (e.perform (.locksFor m)).1 = .ok ds ∧
      (e.perform (.autolockFor m)).1 = .ok (ds.find? (!·.isNamed)) := by
  simp [perform, LockPolicy.autolockFor, definitions, LockPolicy.firstAutolock_of_committed committed,
    Except.mapError]

/-- The locks of a member are those of the settings: every named entry that
matches gives a lock, and the last unnamed one gives an autolock unless the
member is exempted. The kinds never mix. -/
theorem locks_from_settings {settings : Settings} {file : FileContent}
    (off : settings.policy.includeBuiltins = false)
    (booted : (bootstrap settings file).1 = .ok ())
    (accepted : settings.policy.LockPatternsAccepted) (m : MemberDescriptor) :
    (settings.policy.exempts m = true ∨
        (∀ entry ∈ settings.policy.locksOn m, entry.name ≠ none) →
      ((bootstrap settings file).2.perform (.locksFor m)).1 =
          .ok (namedLocks (settings.policy.locksOn m)) ∧
        ((bootstrap settings file).2.perform (.autolockFor m)).1 = .ok none) ∧
    (settings.policy.exempts m = false → ∀ before entry after,
      settings.policy.locksOn m = before ++ entry :: after → entry.name = none →
      (∀ later ∈ after, later.name ≠ none) →
      ((bootstrap settings file).2.perform (.locksFor m)).1 =
          .ok (namedLocks after ++ entry.asAutolock :: namedLocks before) ∧
        ((bootstrap settings file).2.perform (.autolockFor m)).1 =
          .ok (some entry.asAutolock)) ∧
    ∀ entry ∈ settings.policy.locks, entry.definition.isAutolock = .ok entry.name.isNone := by
  have admissible := (locks_bootstrap off booted).1.lockNames
  have definitions := definitionsFor_bootstrap off booted accepted m
  have matching : ∀ entry ∈ settings.policy.locksOn m, entry.Admissible := fun entry member =>
    admissible entry (List.mem_of_mem_filter member)
  refine ⟨fun closed => ?_, fun exempt before entry after split unnamed named => ?_,
    fun entry member => ?_⟩
  · rw [capped_definitions_of_closed matching closed] at definitions
    obtain ⟨locks, autolock⟩ := answers_of_capped definitions (committed_namedLocks _)
    exact ⟨locks, by rw [autolock, find?_namedLocks matching]⟩
  · -- The named entries behind the last unnamed one come first and close nothing.
    rw [split] at definitions matching
    rw [exempt, Bool.not_false, capped_definitions_of_last matching unnamed named] at definitions
    have committed : ∀ d ∈ namedLocks after ++ entry.asAutolock :: namedLocks before,
        d.committed = true :=
      List.forall_mem_append.2 ⟨committed_namedLocks after,
        List.forall_mem_cons.2 ⟨rfl, committed_namedLocks before⟩⟩
    have behind : ∀ e ∈ after, e.Admissible := fun e member =>
      matching e (List.mem_append_right _ (List.mem_cons_of_mem _ member))
    obtain ⟨locks, autolock⟩ := answers_of_capped definitions committed
    refine ⟨locks, ?_⟩
    rw [autolock, List.find?_append, find?_namedLocks behind]
    simp [LockEntry.isNamed_asAutolock]
  · rw [LockDefinition.isAutolock_of_committed rfl, (admissible entry member).isNamed_definition,
      Option.not_isSome]

/-- An autolock, a named lock and an autolock for getters, in this order. -/
def guarded : Settings where
  policy :=
    { includeBuiltins := false
      locks :=
        [{ expression := "* *.*(..)", mode := .read, autoSynchronized := true },
          { expression := "* *.*(..)", name := some "audit", mode := .write },
          { expression := "* *.get*(..)", mode := .concurrent }] }

def tick : MemberDescriptor where
  declaringType := TypeName.ofString "Clock"
  name := "tick"
  modifiers := ⟨0⟩
  returnType := "void"
  parameterTypes := []

theorem tick_is_guarded :
    ((bootstrap guarded .missing).2.perform (.locksFor tick)).1 =
      .ok [{ name := "audit", level := ⟨.write, false⟩, committed := true },
        { name := "autolock", level := ⟨.read, true⟩, committed := true }] := by
  have booted : (bootstrap guarded .missing).1 = .ok () := by decide +kernel
  have read : ∀ entry ∈ guarded.policy.locks,
      (MemberPattern.compile entry.expression).isOk = true := by decide +kernel
  have accepted : guarded.policy.LockPatternsAccepted :=
    ⟨fun entry member => isOk_iff.1 (read entry member), nofun⟩
  have split : guarded.policy.locksOn tick =
      [] ++ { expression := "* *.*(..)", mode := .read, autoSynchronized := true } ::
        [{ expression := "* *.*(..)", name := some "audit", mode := .write }] := by
    decide +kernel
  exact ((locks_from_settings rfl booted accepted tick).2.1 rfl _ _ _ split rfl (by simp)).1

end Engine

end ClassPolicy
