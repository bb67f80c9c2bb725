import ClassPolicy.Lock
import Mathlib.Tactic.Common

/-!
# Which locks apply to a member

When the patterns of the rules can be evaluated, and those of the exclusions up
to the first that matches, the locks of a member are the definitions of the
rules that match it, in their order, less the autolocks that are capped: those
behind the first one, or all of them for a member that is exempted.
-/

set_option autoImplicit false

namespace ClassPolicy

/-- Whether a pattern can be read and matches. -/
def hits (pattern : String) (m : MemberDescriptor) : Bool :=
  match matchMember pattern m with
  | .ok hit => hit
  | .error _ => false

theorem matchMember_eq_hits {pattern : String} {compiled : MemberPattern}
    (accepted : MemberPattern.compile pattern = .ok compiled) (m : MemberDescriptor) :
    matchMember pattern m = .ok (hits pattern m) := by
  simp [hits, matchMember, accepted, Except.map]

/-! ### Patterns that can be evaluated -/

/-- Whether it can be told if a member matches a pattern. -/
def Evaluates (pattern : String) (m : MemberDescriptor) : Prop :=
  ∃ hit, matchMember pattern m = .ok hit

/-- Each of the patterns up to the first that matches can be evaluated. -/
def EvaluateToFirst (patterns : List String) (m : MemberDescriptor) : Prop :=
  ∀ before pattern after, patterns = before ++ pattern :: after →
    (∀ missed ∈ before, matchMember missed m = .ok false) → Evaluates pattern m

section Evaluation

variable {m : MemberDescriptor} {pattern : String}

theorem Evaluates.eq_hits (evaluates : Evaluates pattern m) :
    matchMember pattern m = .ok (hits pattern m) := by
  obtain ⟨hit, answer⟩ := evaluates
  rw [hits, answer]

/-- The member has no part in it. -/
theorem evaluates_iff : Evaluates pattern m ↔ ∃ p, MemberPattern.compile pattern = .ok p := by
  constructor
  · rintro ⟨hit, answer⟩
    cases compiled : MemberPattern.compile pattern with
    | error e => simp [matchMember, compiled, Except.map] at answer
    | ok p => exact ⟨p, rfl⟩
  · rintro ⟨p, compiled⟩
    exact ⟨_, matchMember_eq_hits compiled m⟩

theorem evaluateToFirst_of_forall {patterns : List String}
    (each : ∀ pattern ∈ patterns, Evaluates pattern m) : EvaluateToFirst patterns m := by
  intro before pattern after split _
  exact each pattern (by rw [split]; exact List.mem_append_right _ List.mem_cons_self)

theorem evaluateToFirst_cons_iff {rest : List String} :
    EvaluateToFirst (pattern :: rest) m ↔ Evaluates pattern m ∧
      (matchMember pattern m = .ok false → EvaluateToFirst rest m) := by
  constructor
  · intro each
    refine ⟨each [] pattern rest rfl nofun, fun missed before next after split others => ?_⟩
    exact each (pattern :: before) next after (by rw [split, List.cons_append])
      (List.forall_mem_cons.2 ⟨missed, others⟩)
  · rintro ⟨first, later⟩ before next after split missed
    cases before with
    | nil =>
      obtain ⟨rfl, -⟩ := List.cons.inj split
      exact first
    | cons head before =>
      obtain ⟨rfl, rfl⟩ := List.cons.inj split
      obtain ⟨here, missed⟩ := List.forall_mem_cons.1 missed
      exact later here before next after rfl missed

end Evaluation

/-! ### Locks that are capped -/

namespace LockDefinition

def isNamed (d : LockDefinition) : Bool := d.name ≠ autolockName

theorem isAutolock_of_committed {d : LockDefinition} (committed : d.committed = true) :
    d.isAutolock = .ok !d.isNamed := by
  simp [isAutolock, read, committed, isNamed]

end LockDefinition

namespace LockPolicy

/-- The definitions that are left when at most the first autolock may stay, and
none at all unless `autolockOpen`. -/
def capped : Bool → List LockDefinition → List LockDefinition
  | _, [] => []
  | autolockOpen, d :: rest =>
    if d.isNamed then d :: capped autolockOpen rest
    else if autolockOpen then d :: capped false rest
    else capped autolockOpen rest

theorem capped_false (ds : List LockDefinition) : capped false ds = ds.filter (·.isNamed) := by
  induction ds with
  | nil => rfl
  | cons d rest ih => cases named : d.isNamed <;> simp [capped, named, ih]

theorem capped_named_append {named : List LockDefinition} (all : ∀ d ∈ named, d.isNamed = true)
    (autolockOpen : Bool) (ds : List LockDefinition) :
    capped autolockOpen (named ++ ds) = named ++ capped autolockOpen ds := by
  induction named with
  | nil => rfl
  | cons d rest ih =>
    obtain ⟨first, later⟩ := List.forall_mem_cons.1 all
    simp [capped, first, ih later]

theorem capped_named {named : List LockDefinition} (all : ∀ d ∈ named, d.isNamed = true)
    (autolockOpen : Bool) : capped autolockOpen named = named := by
  simpa [capped] using capped_named_append all autolockOpen []

/-- The first autolock stays, and of what is behind it the named ones do. -/
theorem capped_first {before after : List LockDefinition} {d : LockDefinition}
    (named : ∀ d ∈ before, d.isNamed = true) (auto : d.isNamed = false) :
    capped true (before ++ d :: after) = before ++ d :: after.filter (·.isNamed) := by
  rw [capped_named_append named]
  simp [capped, auto, capped_false]

theorem capped_sublist (autolockOpen : Bool) (ds : List LockDefinition) :
    (capped autolockOpen ds).Sublist ds := by
  induction ds generalizing autolockOpen with
  | nil => exact .slnil
  | cons d rest ih =>
    rw [capped]
    split
    · exact (ih autolockOpen).cons_cons d
    · split
      · exact (ih false).cons_cons d
      · exact (ih autolockOpen).cons d

/-- No named lock is capped. -/
theorem filter_isNamed_capped (autolockOpen : Bool) (ds : List LockDefinition) :
    (capped autolockOpen ds).filter (·.isNamed) = ds.filter (·.isNamed) := by
  induction ds generalizing autolockOpen with
  | nil => rfl
  | cons d rest ih =>
    cases named : d.isNamed <;> cases autolockOpen <;> simp [capped, named, ih]

theorem find?_capped (autolockOpen : Bool) (ds : List LockDefinition) :
    (capped autolockOpen ds).find? (!·.isNamed) =
      if autolockOpen then ds.find? (!·.isNamed) else none := by
  induction ds generalizing autolockOpen with
  | nil => simp [capped]
  | cons d rest ih =>
    cases named : d.isNamed <;> cases autolockOpen <;> simp [capped, named, ih]

/-! ### The locks of a member -/

section Accepted

variable {m : MemberDescriptor}

theorem anyMatches_eq_any {patterns : List String} (evaluate : EvaluateToFirst patterns m) :
    anyMatches m patterns = .ok (patterns.any (hits · m)) := by
  induction patterns with
  | nil => rfl
  | cons pattern rest ih =>
    obtain ⟨evaluates, later⟩ := evaluateToFirst_cons_iff.1 evaluate
    have answer := evaluates.eq_hits
    cases hit : hits pattern m with
    | true => simp [anyMatches, answer, hit]
    | false =>
      rw [hit] at answer
      simp [anyMatches, answer, hit, ih (later answer)]

theorem collect_eq_capped {rules : List LockRule}
    (evaluate : ∀ rule ∈ rules, Evaluates rule.pattern m)
    (committed : ∀ rule ∈ rules, rule.definition.committed = true) (autolockOpen : Bool) :
    collect m autolockOpen rules = .ok (capped autolockOpen
      ((rules.filter (hits ·.pattern m)).map (·.definition))) := by
  induction rules generalizing autolockOpen with
  | nil => rfl
  | cons rule rest ih =>
    obtain ⟨evaluates, later⟩ := List.forall_mem_cons.1 evaluate
    obtain ⟨here, committed⟩ := List.forall_mem_cons.1 committed
    rw [collect, evaluates.eq_hits]
    cases hit : hits rule.pattern m with
    | false => simp [hit, ih later committed]
    | true =>
      rw [LockDefinition.isAutolock_of_committed here]
      cases named : rule.definition.isNamed <;> cases autolockOpen <;>
        simp [hit, named, capped, ih later committed, Except.map]

theorem definitionsFor_of_evaluate {p : LockPolicy}
    (exceptions : EvaluateToFirst p.autolockExcludes m)
    (evaluate : ∀ rule ∈ p.rules, Evaluates rule.pattern m)
    (committed : ∀ rule ∈ p.rules, rule.definition.committed = true) :
    p.definitionsFor m = .ok (capped (!p.autolockExcludes.any (hits · m))
      ((p.rules.filter (hits ·.pattern m)).map (·.definition))) := by
  simp only [definitionsFor, isAutolockExcluded, anyMatches_eq_any exceptions,
    collect_eq_capped evaluate committed]

theorem definitionsFor_eq_capped {p : LockPolicy}
    (accepted : ∀ rule ∈ p.rules, ∃ q, MemberPattern.compile rule.pattern = .ok q)
    (committed : ∀ rule ∈ p.rules, rule.definition.committed = true)
    (exceptions : ∀ pattern ∈ p.autolockExcludes, ∃ q, MemberPattern.compile pattern = .ok q) :
    p.definitionsFor m = .ok (capped (!p.autolockExcludes.any (hits · m))
      ((p.rules.filter (hits ·.pattern m)).map (·.definition))) :=
  definitionsFor_of_evaluate
    (evaluateToFirst_of_forall fun pattern member => evaluates_iff.2 (exceptions pattern member))
    (fun rule member => evaluates_iff.2 (accepted rule member)) committed

end Accepted

theorem firstAutolock_of_committed {ds : List LockDefinition}
    (committed : ∀ d ∈ ds, d.committed = true) :
    firstAutolock ds = .ok (ds.find? (!·.isNamed)) := by
  induction ds with
  | nil => rfl
  | cons d rest ih =>
    obtain ⟨here, later⟩ := List.forall_mem_cons.1 committed
    rw [firstAutolock, LockDefinition.isAutolock_of_committed here, ih later]
    cases named : d.isNamed <;> simp [named]

theorem callForLock_of_committed {ds : List LockDefinition} (instanceSynchronized : Bool)
    (committed : ∀ d ∈ ds, d.committed = true) :
    callForLock instanceSynchronized ds =
      .ok (ds.any fun d => d.isNamed || instanceSynchronized) := by
  induction ds with
  | nil => rfl
  | cons d rest ih =>
    obtain ⟨here, later⟩ := List.forall_mem_cons.1 committed
    rw [callForLock, LockDefinition.isAutolock_of_committed here, ih later]
    cases named : d.isNamed <;> cases instanceSynchronized <;> simp [named]

end LockPolicy

end ClassPolicy
