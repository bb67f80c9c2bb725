import ClassPolicy.Proofs.LockResolution
import ClassPolicy.Proofs.Sequencing
import Mathlib.Data.List.Induction

/-!
# Locks after any registrations

A lock policy is built by registering locks and exclusions from autolocks in
any order. The locks of a member are then the definitions of the rules that
match it, the latest first, with every named one and at most the first
autolock. When a pattern that has to be looked at cannot be read there is no
answer, and never a shorter list.
-/

set_option autoImplicit false

namespace ClassPolicy

/-! ### Registrations -/

/-- A registration at a lock policy. -/
inductive LockCall
  | add (pattern : String) (definition : LockDefinition)
  | addAutolockExclude (pattern : String)

namespace LockCall

/-- A definition that is not committed is refused and changes nothing. -/
def perform : LockCall → LockPolicy → LockPolicy
  | .add pattern definition, p =>
    match p.add pattern definition with
    | .ok added => added
    | .error _ => p
  | .addAutolockExclude pattern, p => p.addAutolockExclude pattern

def rule? : LockCall → Option LockRule
  | .add pattern definition => if definition.committed then some ⟨pattern, definition⟩ else none
  | .addAutolockExclude _ => none

def exclusion? : LockCall → Option String
  | .add _ _ => none
  | .addAutolockExclude pattern => some pattern

/-- The rules that are registered, the latest first. -/
def rules (calls : List LockCall) : List LockRule := (calls.filterMap rule?).reverse

def exclusions (calls : List LockCall) : List String := calls.filterMap exclusion?

theorem rules_append_singleton (calls : List LockCall) (call : LockCall) :
    rules (calls ++ [call]) = (rule? call).toList ++ rules calls := by
  cases read : rule? call <;> simp [rules, read]

theorem exclusions_append_singleton (calls : List LockCall) (call : LockCall) :
    exclusions (calls ++ [call]) = exclusions calls ++ (exclusion? call).toList := by
  cases read : exclusion? call <;> simp [exclusions, read]

/-- The definitions of the rules that match a member, the latest first. -/
def matching (calls : List LockCall) (m : MemberDescriptor) : List LockDefinition :=
  ((rules calls).filter (hits ·.pattern m)).map (·.definition)

/-- Whether a member is exempted from autolocks. -/
def exempts (calls : List LockCall) (m : MemberDescriptor) : Bool :=
  (exclusions calls).any (hits · m)

end LockCall

def LockPolicy.ofCalls (calls : List LockCall) : LockPolicy :=
  calls.foldl (fun p call => call.perform p) .empty

namespace LockPolicy

theorem ofCalls_append_singleton (calls : List LockCall) (call : LockCall) :
    ofCalls (calls ++ [call]) = call.perform (ofCalls calls) := by
  simp [ofCalls]

/-- What a policy holds, read off the registrations. -/
theorem ofCalls_eq (calls : List LockCall) :
    ofCalls calls = ⟨LockCall.rules calls, LockCall.exclusions calls⟩ := by
  induction calls using List.reverseRecOn with
  | nil => rfl
  | append_singleton calls call ih =>
    rw [ofCalls_append_singleton, ih, LockCall.rules_append_singleton,
      LockCall.exclusions_append_singleton]
    cases call with
    | add pattern definition =>
      cases committed : definition.committed <;>
        simp [LockCall.perform, LockPolicy.add, LockPolicy.prepend, LockCall.rule?,
          LockCall.exclusion?, committed]
    | addAutolockExclude pattern =>
      simp [LockCall.perform, addAutolockExclude, LockCall.rule?, LockCall.exclusion?]

theorem committed_rules {calls : List LockCall} {rule : LockRule}
    (member : rule ∈ LockCall.rules calls) : rule.definition.committed = true := by
  simp only [LockCall.rules, List.mem_reverse, List.mem_filterMap] at member
  obtain ⟨call, -, read⟩ := member
  cases call with
  | add pattern definition =>
    cases committed : definition.committed <;> simp [LockCall.rule?, committed] at read
    rw [← read]
    exact committed
  | addAutolockExclude pattern => cases read

end LockPolicy

/-! ### Patterns that cannot be evaluated -/

section Failure

variable {m : MemberDescriptor}

namespace LockPolicy

theorem anyMatches_of_not_evaluateToFirst {patterns : List String}
    (fails : ¬ EvaluateToFirst patterns m) :
    ∃ pattern ∈ patterns, ∃ e, matchMember pattern m = .error e ∧
      anyMatches m patterns = .error e := by
  induction patterns with
  | nil => exact absurd (fun before _ _ split _ => by simp at split) fails
  | cons pattern rest ih =>
    cases found : matchMember pattern m with
    | error e => exact ⟨pattern, List.mem_cons_self, e, found, by simp [anyMatches, found]⟩
    | ok hit =>
      rw [evaluateToFirst_cons_iff, not_and, Classical.not_imp] at fails
      obtain ⟨missed, later⟩ := fails ⟨hit, found⟩
      obtain ⟨failing, member, e, error, answer⟩ := ih later
      exact ⟨failing, List.mem_cons_of_mem _ member, e, error, by simp [anyMatches, missed, answer]⟩

/-- An error is the answer whether or not an autolock may still be taken. -/
theorem collect_of_not_evaluates {rules : List LockRule}
    (committed : ∀ rule ∈ rules, rule.definition.committed = true)
    (fails : ¬ ∀ rule ∈ rules, Evaluates rule.pattern m) :
    ∃ rule ∈ rules, ∃ e, matchMember rule.pattern m = .error e ∧
      ∀ autolockOpen, collect m autolockOpen rules = .error (.ofPattern e) := by
  induction rules with
  | nil => exact absurd nofun fails
  | cons rule rest ih =>
    obtain ⟨here, committed⟩ := List.forall_mem_cons.1 committed
    cases found : matchMember rule.pattern m with
    | error e => exact ⟨rule, List.mem_cons_self, e, found, fun _ => by simp [collect, found]⟩
    | ok hit =>
      rw [List.forall_mem_cons, not_and] at fails
      obtain ⟨failing, member, e, error, answer⟩ := ih committed (fails ⟨hit, found⟩)
      refine ⟨failing, List.mem_cons_of_mem _ member, e, error, fun autolockOpen => ?_⟩
      cases hit with
      | false => simp [collect, found, answer]
      | true =>
        rw [collect, found, LockDefinition.isAutolock_of_committed here]
        cases rule.definition.isNamed <;> cases autolockOpen <;> simp [answer, Except.map]

end LockPolicy

end Failure

/-! ### The locks of a member -/

namespace LockCall

/-- Every pattern that has to be looked at for a member can be evaluated. -/
structure Evaluable (calls : List LockCall) (m : MemberDescriptor) : Prop where
  exclusions : EvaluateToFirst (exclusions calls) m
  rules : ∀ rule ∈ rules calls, Evaluates rule.pattern m

/-- The patterns of the rules and the exclusions can all be read. -/
structure Accepted (calls : List LockCall) : Prop where
  exclusions : ∀ pattern ∈ exclusions calls, ∃ p, MemberPattern.compile pattern = .ok p
  rules : ∀ rule ∈ rules calls, ∃ p, MemberPattern.compile rule.pattern = .ok p

theorem Accepted.evaluable {calls : List LockCall} (accepted : Accepted calls)
    (m : MemberDescriptor) : Evaluable calls m where
  exclusions := evaluateToFirst_of_forall fun pattern member =>
    evaluates_iff.2 (accepted.exclusions pattern member)
  rules rule member := evaluates_iff.2 (accepted.rules rule member)

theorem Accepted.of_append_singleton {calls : List LockCall} {call : LockCall}
    (accepted : Accepted (calls ++ [call])) : Accepted calls where
  exclusions pattern member := accepted.exclusions pattern <| by
    rw [exclusions_append_singleton]
    exact List.mem_append_left _ member
  rules rule member := accepted.rules rule <| by
    rw [rules_append_singleton]
    exact List.mem_append_right _ member

theorem committed_matching {calls : List LockCall} {m : MemberDescriptor} :
    ∀ d ∈ matching calls m, d.committed = true := by
  intro d member
  obtain ⟨rule, taken, rfl⟩ := List.mem_map.1 member
  exact LockPolicy.committed_rules (List.mem_filter.1 taken).1

end LockCall

/-- What is kept of the definitions that match a member, given whether it is
exempted from autolocks: the named locks, and the first autolock in its place. -/
inductive KeptLocks : Bool → List LockDefinition → List LockDefinition → Prop
  | exempt (matching : List LockDefinition) :
    KeptLocks true matching (matching.filter (·.isNamed))
  | allNamed {matching : List LockDefinition} (named : ∀ d ∈ matching, d.isNamed = true) :
    KeptLocks false matching matching
  | firstAutolock {before : List LockDefinition} {d : LockDefinition}
    (named : ∀ d ∈ before, d.isNamed = true) (auto : d.isNamed = false)
    (after : List LockDefinition) :
    KeptLocks false (before ++ d :: after) (before ++ d :: after.filter (·.isNamed))

theorem keptLocks_capped (exempt : Bool) (matching : List LockDefinition) :
    KeptLocks exempt matching (LockPolicy.capped (!exempt) matching) := by
  cases exempt with
  | true =>
    rw [Bool.not_true, LockPolicy.capped_false]
    exact .exempt matching
  | false =>
    rw [Bool.not_false]
    cases found : matching.find? (!·.isNamed) with
    | none =>
      have named : ∀ d ∈ matching, d.isNamed = true := by
        simpa [List.find?_eq_none] using found
      rw [LockPolicy.capped_named named]
      exact .allNamed named
    | some d =>
      obtain ⟨auto, before, after, rfl, named⟩ := List.find?_eq_some_iff_append.1 found
      have named : ∀ d ∈ before, d.isNamed = true := by simpa using named
      have auto : d.isNamed = false := by simpa using auto
      rw [LockPolicy.capped_first named auto]
      exact .firstAutolock named auto after

namespace LockPolicy

/-- The three answers about a member whose locks are `ds`. -/
structure Answers (p : LockPolicy) (m : MemberDescriptor) (ds : List LockDefinition) : Prop where
  definitions : p.definitionsFor m = .ok ds
  autolock : ∃ found, p.autolockFor m = .ok found ∧ ds.filter (!·.isNamed) = found.toList
  lockMethod : ∃ locked, p.isLockMethod m = .ok locked ∧
    (locked = true ↔ (∃ d ∈ ds, d.isNamed = true) ∨
      (∃ d ∈ ds, d.isNamed = false) ∧
        m.modifiers.has .synchronized = true ∧ m.modifiers.has .static = false)

/-- No answer about a member can be given. -/
structure Refuses (p : LockPolicy) (m : MemberDescriptor) (failure : Failure) : Prop where
  definitions : p.definitionsFor m = .error failure
  autolock : p.autolockFor m = .error failure
  lockMethod : p.isLockMethod m = .error failure

/-- At most one autolock is left. -/
theorem filter_autolocks_capped (autolockOpen : Bool) (ds : List LockDefinition) :
    (capped autolockOpen ds).filter (!·.isNamed) =
      ((capped autolockOpen ds).find? (!·.isNamed)).toList := by
  rw [find?_capped]
  induction ds generalizing autolockOpen with
  | nil => cases autolockOpen <;> rfl
  | cons d rest ih =>
    cases named : d.isNamed <;> cases autolockOpen <;> simp [capped, named, ih]

section Calls

variable {calls : List LockCall} {m : MemberDescriptor}

open LockCall

theorem definitionsFor_of_evaluable (evaluable : Evaluable calls m) :
    (ofCalls calls).definitionsFor m =
      .ok (capped (!exempts calls m) (matching calls m)) := by
  rw [ofCalls_eq]
  exact definitionsFor_of_evaluate evaluable.exclusions evaluable.rules
    fun rule member => committed_rules member

theorem committed_capped (autolockOpen : Bool) :
    ∀ d ∈ capped autolockOpen (matching calls m), d.committed = true := fun d member =>
  committed_matching d ((capped_sublist autolockOpen _).subset member)

theorem autolockFor_of_evaluable (evaluable : Evaluable calls m) :
    (ofCalls calls).autolockFor m =
      .ok ((capped (!exempts calls m) (matching calls m)).find? (!·.isNamed)) := by
  simp only [autolockFor, definitionsFor_of_evaluable evaluable,
    firstAutolock_of_committed (committed_capped _), Except.mapError]

theorem answers_of_evaluable (evaluable : Evaluable calls m) :
    (ofCalls calls).Answers m (capped (!exempts calls m) (matching calls m)) where
  definitions := definitionsFor_of_evaluable evaluable
  autolock := ⟨_, autolockFor_of_evaluable evaluable,
    filter_autolocks_capped _ _⟩
  lockMethod := by
    have answer : (ofCalls calls).isLockMethod m =
        .ok ((capped (!exempts calls m) (matching calls m)).any
          fun d => d.isNamed || m.modifiers.isInstanceSynchronized) := by
      simp only [isLockMethod, definitionsFor_of_evaluable evaluable,
        callForLock_of_committed _ (committed_capped _), Except.mapError]
    refine ⟨_, answer, ?_⟩
    generalize capped _ _ = ds
    simp only [List.any_eq_true, Bool.or_eq_true, Modifiers.isInstanceSynchronized,
      Bool.and_eq_true, Bool.not_eq_true']
    constructor
    · rintro ⟨d, member, named | synchronized⟩
      · exact .inl ⟨d, member, named⟩
      · cases named : d.isNamed
        · exact .inr ⟨⟨d, member, named⟩, synchronized⟩
        · exact .inl ⟨d, member, named⟩
    · rintro (⟨d, member, named⟩ | ⟨⟨d, member, -⟩, synchronized⟩)
      · exact ⟨d, member, .inl named⟩
      · exact ⟨d, member, .inr synchronized⟩

theorem refuses_of_definitionsFor {p : LockPolicy} {failure : Failure}
    (failed : p.definitionsFor m = .error failure) : p.Refuses m failure where
  definitions := failed
  autolock := by simp only [autolockFor, failed]
  lockMethod := by simp only [isLockMethod, failed]

/-- The error is that of a registered pattern. -/
theorem refuses_of_not_evaluable (fails : ¬ Evaluable calls m) :
    ∃ pattern ∈ exclusions calls ++ (LockCall.rules calls).map (·.pattern), ∃ e,
      matchMember pattern m = .error e ∧ (ofCalls calls).Refuses m (.ofPattern e) := by
  by_cases reached : EvaluateToFirst (exclusions calls) m
  · have fails : ¬ ∀ rule ∈ LockCall.rules calls, Evaluates rule.pattern m := fun each =>
      fails ⟨reached, each⟩
    obtain ⟨rule, member, e, error, answer⟩ := collect_of_not_evaluates
      (fun rule member => committed_rules member) fails
    refine ⟨rule.pattern, List.mem_append_right _ (List.mem_map_of_mem member), e, error,
      refuses_of_definitionsFor ?_⟩
    simp only [ofCalls_eq, definitionsFor, isAutolockExcluded, anyMatches_eq_any reached, answer]
  · obtain ⟨pattern, member, e, error, answer⟩ := anyMatches_of_not_evaluateToFirst reached
    refine ⟨pattern, List.mem_append_left _ member, e, error, refuses_of_definitionsFor ?_⟩
    simp only [ofCalls_eq, definitionsFor, isAutolockExcluded, answer]

/-! ### One more registration -/

/-- An exclusion leaves the named locks as they are. -/
theorem named_of_addAutolockExclude {pattern : String}
    (accepted : Accepted (calls ++ [.addAutolockExclude pattern])) (m : MemberDescriptor) :
    ∃ ds excluded, (ofCalls calls).definitionsFor m = .ok ds ∧
      (ofCalls (calls ++ [.addAutolockExclude pattern])).definitionsFor m = .ok excluded ∧
      excluded.filter (·.isNamed) = ds.filter (·.isNamed) := by
  refine ⟨_, _, definitionsFor_of_evaluable (accepted.of_append_singleton.evaluable m),
    definitionsFor_of_evaluable (accepted.evaluable m), ?_⟩
  have same : matching (calls ++ [.addAutolockExclude pattern]) m = matching calls m := by
    simp [matching, rules_append_singleton, rule?]
  rw [filter_isNamed_capped, filter_isNamed_capped, same]

/-- A named lock leaves the autolock as it is. -/
theorem autolock_of_add_named {pattern : String} {definition : LockDefinition}
    (named : definition.isNamed = true)
    (accepted : Accepted (calls ++ [.add pattern definition])) (m : MemberDescriptor) :
    ∃ found, (ofCalls calls).autolockFor m = .ok found ∧
      (ofCalls (calls ++ [.add pattern definition])).autolockFor m = .ok found := by
  refine ⟨_, autolockFor_of_evaluable (accepted.of_append_singleton.evaluable m), ?_⟩
  have same : (matching (calls ++ [.add pattern definition]) m).find? (!·.isNamed) =
      (matching calls m).find? (!·.isNamed) := by
    cases committed : definition.committed <;> cases hit : hits pattern m <;>
      simp [matching, rules_append_singleton, rule?, committed, hit, named]
  have exempt : exempts (calls ++ [.add pattern definition]) m = exempts calls m := by
    simp [exempts, exclusions_append_singleton, exclusion?]
  rw [autolockFor_of_evaluable (accepted.evaluable m), find?_capped, find?_capped, same, exempt]

end Calls

/-- After any registrations the locks of a member are the definitions of the
rules that match it, the latest first: all the named ones, and the first
autolock unless the member is exempted. If a pattern that has to be looked at
cannot be evaluated there is an error instead. -/
theorem locks_of_calls (calls : List LockCall) (m : MemberDescriptor) :
    (LockCall.Evaluable calls m → ∃ ds,
      KeptLocks (LockCall.exempts calls m) (LockCall.matching calls m) ds ∧
        (ofCalls calls).Answers m ds) ∧
    (¬ LockCall.Evaluable calls m →
      ∃ pattern ∈ LockCall.exclusions calls ++ (LockCall.rules calls).map (·.pattern), ∃ e,
        matchMember pattern m = .error e ∧ (ofCalls calls).Refuses m (.ofPattern e)) ∧
    (∀ pattern, LockCall.Accepted (calls ++ [.addAutolockExclude pattern]) → ∃ ds excluded,
      (ofCalls calls).definitionsFor m = .ok ds ∧
        (ofCalls (calls ++ [.addAutolockExclude pattern])).definitionsFor m = .ok excluded ∧
        excluded.filter (·.isNamed) = ds.filter (·.isNamed)) ∧
    (∀ pattern definition, definition.isNamed = true →
      LockCall.Accepted (calls ++ [.add pattern definition]) → ∃ found,
        (ofCalls calls).autolockFor m = .ok found ∧
          (ofCalls (calls ++ [.add pattern definition])).autolockFor m = .ok found) :=
  ⟨fun evaluable => ⟨_, keptLocks_capped _ _, answers_of_evaluable evaluable⟩,
    refuses_of_not_evaluable,
    fun _ accepted => named_of_addAutolockExclude accepted m,
    fun _ _ named accepted => autolock_of_add_named named accepted m⟩

/-- Getters are exempted before the second exclusion, which cannot be read, is
looked at. -/
def tollgate : List LockCall :=
  [.add "* *.*(..)" (.committedAutolock ⟨.read, false⟩ none),
    .add "* Toll.*(..)" { name := "audit", level := ⟨.write, false⟩, committed := true },
    .add "* *.*(..)" (.committedAutolock ⟨.write, true⟩ none),
    .add "* Toll.*(..)" { name := "ledger", level := ⟨.read, false⟩, committed := true },
    .addAutolockExclude "* *.get*(..)", .addAutolockExclude "Toll"]

def tollMethod (name : String) : MemberDescriptor where
  declaringType := TypeName.ofString "Toll"
  name := name
  modifiers := ⟨0⟩
  returnType := "void"
  parameterTypes := []

theorem tollgate_locks :
    (∃ ds, KeptLocks true
        [{ name := "ledger", level := ⟨.read, false⟩, committed := true },
          .committedAutolock ⟨.write, true⟩ none,
          { name := "audit", level := ⟨.write, false⟩, committed := true },
          .committedAutolock ⟨.read, false⟩ none] ds ∧
      (ofCalls tollgate).Answers (tollMethod "getRate") ds) ∧
    ∃ failure, (ofCalls tollgate).Refuses (tollMethod "close") failure := by
  have rulesRead : ∀ rule ∈ LockCall.rules tollgate,
      (MemberPattern.compile rule.pattern).isOk = true := by decide +kernel
  have getters : (MemberPattern.compile "* *.get*(..)").isOk = true := by decide +kernel
  have unread : (MemberPattern.compile "Toll").isOk = false := by decide +kernel
  have answer (m : MemberDescriptor) : Evaluates "* *.get*(..)" m :=
    evaluates_iff.2 (isOk_iff.1 getters)
  have exempt : hits "* *.get*(..)" (tollMethod "getRate") = true := by decide +kernel
  have other : hits "* *.get*(..)" (tollMethod "close") = false := by decide +kernel
  have evaluable : LockCall.Evaluable tollgate (tollMethod "getRate") :=
    { exclusions := evaluateToFirst_cons_iff.2 ⟨answer _, fun missed => by
        rw [(answer _).eq_hits, exempt] at missed
        cases missed⟩
      rules := fun rule member => evaluates_iff.2 (isOk_iff.1 (rulesRead rule member)) }
  have stuck : ¬ LockCall.Evaluable tollgate (tollMethod "close") := fun evaluable => by
    have missed : matchMember "* *.get*(..)" (tollMethod "close") = .ok false := by
      rw [(answer _).eq_hits, other]
    have second := (evaluateToFirst_cons_iff.1 evaluable.exclusions).2 missed
    have read := isOk_iff.2 (evaluates_iff.1 (evaluateToFirst_cons_iff.1 second).1)
    exact absurd (unread.symm.trans read) (by decide)
  have matching : LockCall.matching tollgate (tollMethod "getRate") =
      (LockCall.rules tollgate).map (·.definition) := by decide +kernel
  have exempts : LockCall.exempts tollgate (tollMethod "getRate") = true := by decide +kernel
  obtain ⟨ds, kept, answers⟩ := (locks_of_calls tollgate _).1 evaluable
  obtain ⟨-, -, e, -, refuses⟩ := (locks_of_calls tollgate _).2.1 stuck
  rw [matching, exempts] at kept
  exact ⟨⟨ds, kept, answers⟩, _, refuses⟩

end LockPolicy

end ClassPolicy
