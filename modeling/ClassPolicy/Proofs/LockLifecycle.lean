import ClassPolicy.Proofs.LockHistory

/-!
# The two phases of a lock definition

A lock definition is written until it is committed, and read only from then
on, when nothing changes it any more. A lock policy takes in committed
definitions and no others, so none of its answers reads a definition too
early.
-/

set_option autoImplicit false

namespace ClassPolicy

/-- A call on a lock definition, with the type of its answer. -/
inductive DefinitionCall : Type → Type 1
  | setName (name : String) : DefinitionCall Unit
  | setLevel (level : LockLevel) : DefinitionCall Unit
  | setProvenance (text : String) : DefinitionCall Unit
  | commit : DefinitionCall Unit
  | readName : DefinitionCall String
  | readLevel : DefinitionCall LockLevel
  | readIsAutolock : DefinitionCall Bool
  | readProvenance : DefinitionCall (Option String)

structure AnyDefinitionCall where
  {answer : Type}
  call : DefinitionCall answer

namespace DefinitionCall

variable {α : Type}

/-- A call that changes the definition. The others read it. -/
def writes : DefinitionCall α → Bool
  | .setName _ | .setLevel _ | .setProvenance _ | .commit => true
  | .readName | .readLevel | .readIsAutolock | .readProvenance => false

def name? : DefinitionCall α → Option String
  | .setName name => some name
  | _ => none

def level? : DefinitionCall α → Option LockLevel
  | .setLevel level => some level
  | _ => none

def provenance? : DefinitionCall α → Option String
  | .setProvenance text => some text
  | _ => none

/-- A definition after a change. A change that fails is none. -/
def changed (outcome : Except Violation LockDefinition) (d : LockDefinition) :
    Except Violation Unit × LockDefinition :=
  match outcome with
  | .ok d => (.ok (), d)
  | .error v => (.error v, d)

def perform : DefinitionCall α → LockDefinition → Except Violation α × LockDefinition
  | .setName name, d => changed (d.setName name) d
  | .setLevel level, d => changed (d.setLevel level) d
  | .setProvenance text, d => changed (d.setProvenance text) d
  | .commit, d => changed d.commit d
  | .readName, d => (d.read (·.name), d)
  | .readLevel, d => (d.read (·.level), d)
  | .readIsAutolock, d => (d.isAutolock, d)
  | .readProvenance, d => (d.read (·.provenance), d)

/-- Which phase a definition is in decides which calls succeed. -/
theorem isOk_perform (c : DefinitionCall α) (d : LockDefinition) :
    (c.perform d).1.isOk = if c.writes then !d.committed else d.committed := by
  cases committed : d.committed <;> cases c <;>
    simp [perform, changed, writes, LockDefinition.setName, LockDefinition.setLevel,
      LockDefinition.setProvenance, LockDefinition.commit, LockDefinition.change,
      LockDefinition.isAutolock, LockDefinition.read, committed, Except.isOk, Except.toBool]

theorem perform_of_error {c : DefinitionCall α} {d : LockDefinition} {v : Violation}
    (failed : (c.perform d).1 = .error v) : (c.perform d).2 = d := by
  have kept : ∀ outcome : Except Violation LockDefinition,
      (changed outcome d).1 = .error v → (changed outcome d).2 = d := by
    rintro (_ | d') failed
    · rfl
    · cases failed
  cases c with
  | setName name => exact kept _ failed
  | setLevel level => exact kept _ failed
  | setProvenance text => exact kept _ failed
  | commit => exact kept _ failed
  | _ => rfl

theorem perform_of_committed (c : DefinitionCall α) {d : LockDefinition}
    (committed : d.committed = true) : (c.perform d).2 = d := by
  cases c <;> simp [perform, changed, LockDefinition.setName, LockDefinition.setLevel,
    LockDefinition.setProvenance, LockDefinition.commit, LockDefinition.change, committed]

end DefinitionCall

namespace LockDefinition

def run (calls : List AnyDefinitionCall) (d : LockDefinition) : LockDefinition :=
  calls.foldl (fun d c => (c.call.perform d).2) d

/-- A commit is among the calls and succeeds when its turn comes. -/
def Commits (calls : List AnyDefinitionCall) (d : LockDefinition) : Prop :=
  ∃ before after, calls = before ++ ⟨.commit⟩ :: after ∧
    (DefinitionCall.commit.perform (d.run before)).1.isOk = true

/-- The last of the values that calls write to one part of a definition. -/
def lastWritten {β : Type} (value? : AnyDefinitionCall → Option β)
    (calls : List AnyDefinitionCall) : Option β :=
  (calls.filterMap value?).getLast?

/-- A definition with the values that calls write last. -/
def written (calls : List AnyDefinitionCall) (d : LockDefinition) : LockDefinition :=
  { d with
    name := (lastWritten (·.call.name?) calls).getD d.name
    level := (lastWritten (·.call.level?) calls).getD d.level
    provenance := (lastWritten (·.call.provenance?) calls).or d.provenance }

/-- Every read of a definition answers with what another one holds. -/
structure ReadsAs (d held : LockDefinition) : Prop where
  name : (DefinitionCall.readName.perform d).1 = .ok held.name
  level : (DefinitionCall.readLevel.perform d).1 = .ok held.level
  isAutolock : (DefinitionCall.readIsAutolock.perform d).1 = .ok (held.name = autolockName)
  provenance : (DefinitionCall.readProvenance.perform d).1 = .ok held.provenance

section Run

variable {calls : List AnyDefinitionCall} {d : LockDefinition}

theorem run_append (before after : List AnyDefinitionCall) (d : LockDefinition) :
    d.run (before ++ after) = (d.run before).run after :=
  List.foldl_append

theorem run_append_singleton (calls : List AnyDefinitionCall) (c : AnyDefinitionCall)
    (d : LockDefinition) : d.run (calls ++ [c]) = (c.call.perform (d.run calls)).2 :=
  run_append calls [c] d

theorem run_of_committed (committed : d.committed = true) (calls : List AnyDefinitionCall) :
    d.run calls = d := by
  induction calls with
  | nil => rfl
  | cons c rest ih =>
    change run rest (c.call.perform d).2 = d
    rw [c.call.perform_of_committed committed, ih]

theorem isOk_commit_iff (d : LockDefinition) :
    (DefinitionCall.commit.perform d).1.isOk = true ↔ d.committed = false := by
  rw [DefinitionCall.isOk_perform]
  simp [DefinitionCall.writes]

theorem committed_perform_commit (d : LockDefinition) :
    (DefinitionCall.commit.perform d).2.committed = true := by
  cases committed : d.committed <;>
    simp [DefinitionCall.perform, DefinitionCall.changed, commit, change, committed]

/-- The call that ends the first phase is a commit. -/
theorem eq_commit_of_committed {c : AnyDefinitionCall} (opened : d.committed = false)
    (committed : (c.call.perform d).2.committed = true) : c = ⟨.commit⟩ := by
  obtain ⟨call⟩ := c
  cases call with
  | commit => rfl
  | _ => simp [DefinitionCall.perform, DefinitionCall.changed, setName, setLevel, setProvenance,
      change, opened] at committed

theorem Commits.append (commits : Commits calls d) (more : List AnyDefinitionCall) :
    Commits (calls ++ more) d := by
  obtain ⟨before, after, rfl, succeeds⟩ := commits
  exact ⟨before, after ++ more, by simp, succeeds⟩

theorem run_through_commit {before : List AnyDefinitionCall} (d : LockDefinition)
    (after : List AnyDefinitionCall) :
    d.run (before ++ ⟨.commit⟩ :: after) =
      (DefinitionCall.commit.perform (d.run before)).2 := by
  rw [run_append]
  exact run_of_committed (committed_perform_commit _) after

theorem committed_run_iff (opened : d.committed = false) :
    (d.run calls).committed = true ↔ Commits calls d := by
  constructor
  · induction calls using List.reverseRecOn with
    | nil =>
      intro committed
      rw [run, List.foldl_nil, opened] at committed
      cases committed
    | append_singleton calls c ih =>
      intro committed
      cases before : (d.run calls).committed with
      | true => exact (ih before).append [c]
      | false =>
        rw [run_append_singleton] at committed
        cases eq_commit_of_committed before committed
        exact ⟨calls, [], rfl, (isOk_commit_iff _).2 before⟩
  · rintro ⟨before, after, rfl, -⟩
    rw [run_through_commit]
    exact committed_perform_commit _

/-! ### The values written -/

theorem lastWritten_append_singleton {β : Type} (value? : AnyDefinitionCall → Option β)
    (calls : List AnyDefinitionCall) (c : AnyDefinitionCall) :
    lastWritten value? (calls ++ [c]) = (value? c).or (lastWritten value? calls) := by
  cases found : value? c <;> simp [lastWritten, found]

/-- A definition that is not yet committed holds what was written last. -/
theorem run_eq_written (opened : (d.run calls).committed = false) :
    d.run calls = written calls d := by
  induction calls using List.reverseRecOn with
  | nil => rfl
  | append_singleton calls c ih =>
    rw [run_append_singleton] at opened ⊢
    have before : (d.run calls).committed = false := by
      cases committed : (d.run calls).committed with
      | false => rfl
      | true =>
        rw [c.call.perform_of_committed committed, committed] at opened
        cases opened
    have held := ih before
    rw [held] at before ⊢
    have stays : d.committed = false := before
    obtain ⟨call⟩ := c
    cases call with
    | commit =>
      rw [held, committed_perform_commit] at opened
      cases opened
    | _ =>
      simp [written, lastWritten_append_singleton, DefinitionCall.perform,
        DefinitionCall.changed, DefinitionCall.name?, DefinitionCall.level?,
        DefinitionCall.provenance?, setName, setLevel, setProvenance, change, stays]

theorem readsAs_of_commit {before : List AnyDefinitionCall} (after : List AnyDefinitionCall)
    (succeeds : (DefinitionCall.commit.perform (d.run before)).1.isOk = true) :
    ReadsAs (d.run (before ++ ⟨.commit⟩ :: after)) (written before d) := by
  have opened := (isOk_commit_iff _).1 succeeds
  have held := run_eq_written opened
  have frozen : (DefinitionCall.commit.perform (d.run before)).2 =
      { written before d with committed := true } := by
    rw [held] at opened ⊢
    simp [DefinitionCall.perform, DefinitionCall.changed, commit, change, opened]
  rw [run_through_commit, frozen]
  constructor <;> rfl

end Run

/-- What a definition does after some calls. -/
structure TwoPhased (calls : List AnyDefinitionCall) (d : LockDefinition) : Prop where
  write : ∀ {α : Type} (c : DefinitionCall α), c.writes = true →
    ((c.perform (d.run calls)).1.isOk = true ↔ ¬ Commits calls d)
  read : ∀ {α : Type} (c : DefinitionCall α), c.writes = false →
    ((c.perform (d.run calls)).1.isOk = true ↔ Commits calls d)
  failure : ∀ {α : Type} (c : DefinitionCall α) v, (c.perform (d.run calls)).1 = .error v →
    (c.perform (d.run calls)).2 = d.run calls
  values : ∀ before after, calls = before ++ ⟨.commit⟩ :: after →
    (DefinitionCall.commit.perform (d.run before)).1.isOk = true →
      ReadsAs (d.run calls) (written before d)

theorem twoPhased_of_opened {d : LockDefinition} (opened : d.committed = false)
    (calls : List AnyDefinitionCall) : TwoPhased calls d where
  write c writes := by
    rw [c.isOk_perform, writes, if_pos rfl, ← committed_run_iff opened]
    simp
  read c reads := by
    rw [c.isOk_perform, reads, if_neg Bool.false_ne_true, committed_run_iff opened]
  failure c v failed := DefinitionCall.perform_of_error failed
  values before after split succeeds := by
    subst split
    exact readsAs_of_commit after succeeds

end LockDefinition

namespace LockPolicy

/-- No answer of a policy reads a definition too early. -/
structure Guarded (p : LockPolicy) : Prop where
  committed : ∀ rule ∈ p.rules, rule.definition.committed = true
  uncommitted : ∀ pattern definition, definition.committed = false →
    p.add pattern definition = .error (.lockUncommitted pattern) ∧
      (LockCall.add pattern definition).perform p = p
  definitionsFor : ∀ m v, p.definitionsFor m ≠ .error (.violation v)
  isLockMethod : ∀ m v, p.isLockMethod m ≠ .error (.violation v)
  autolockFor : ∀ m v, p.autolockFor m ≠ .error (.violation v)

/-- All the questions about a member are answered, or all fail for a pattern. -/
theorem answers_or_refuses (calls : List LockCall) (m : MemberDescriptor) :
    (∃ ds, (ofCalls calls).Answers m ds) ∨ ∃ e, (ofCalls calls).Refuses m (.ofPattern e) := by
  by_cases evaluable : LockCall.Evaluable calls m
  · exact .inl ⟨_, answers_of_evaluable evaluable⟩
  · obtain ⟨_, _, e, _, refuses⟩ := refuses_of_not_evaluable evaluable
    exact .inr ⟨e, refuses⟩

theorem guarded_ofCalls (calls : List LockCall) : (ofCalls calls).Guarded where
  committed rule member := by
    rw [ofCalls_eq] at member
    exact committed_rules member
  uncommitted pattern definition opened := by
    simp [add, LockCall.perform, opened]
  definitionsFor m v violated := by
    rcases answers_or_refuses calls m with ⟨ds, answers⟩ | ⟨e, refuses⟩
    · cases answers.definitions.symm.trans violated
    · cases refuses.definitions.symm.trans violated
  isLockMethod m v violated := by
    rcases answers_or_refuses calls m with ⟨ds, answers⟩ | ⟨e, refuses⟩
    · obtain ⟨locked, answer, -⟩ := answers.lockMethod
      cases answer.symm.trans violated
    · cases refuses.lockMethod.symm.trans violated
  autolockFor m v violated := by
    rcases answers_or_refuses calls m with ⟨ds, answers⟩ | ⟨e, refuses⟩
    · obtain ⟨found, answer, -⟩ := answers.autolock
      cases answer.symm.trans violated
    · cases refuses.autolock.symm.trans violated

end LockPolicy

/-- Whatever calls are made on a new definition, it can be written until the
first commit and read from then on, with the values written last before it.
Whatever is registered, a policy holds committed definitions only, and no
question about a member breaks their contract. -/
theorem LockDefinition.written_then_read (name : String) (level : LockLevel)
    (calls : List AnyDefinitionCall) (registrations : List LockCall) :
    TwoPhased calls { name, level } ∧ (LockPolicy.ofCalls registrations).Guarded :=
  ⟨twoPhased_of_opened rfl calls, LockPolicy.guarded_ofCalls registrations⟩

end ClassPolicy
