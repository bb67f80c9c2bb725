import ClassPolicy.ModeDecision
import Mathlib.Tactic.Common

/-!
# The order in which a mode is decided

A mode is decided by the first step that applies. The steps above a type are
its ancestors by position: the first one that is adaptable only, that is not
portable or about which the question of portability fails. The questions that
are put on the way are read off a traced run of the decision, and nothing else
is looked at: facts that answer these alike decide alike, whatever they say
otherwise.
-/

set_option autoImplicit false

namespace ClassPolicy

/-- What a subtype knows of the ancestor at a position of its chain. -/
def TypeDescriptor.ancestorAt (chain : List TypeName) (i : Nat) (name : TypeName) :
    TypeDescriptor :=
  { named name with ancestors := chain.drop (i + 1) }

/-- A question put to the facts. -/
inductive ModeQuestion
  | explicitMode (name : TypeName)
  | isLogical (name : TypeName)
  | isIncluded (ty : TypeDescriptor)
  | isNonPortable (ty : TypeDescriptor)
deriving DecidableEq

/-- Both facts give the question one answer or one failure. -/
def ModeQuestion.AnsweredAlike (facts facts' : ModeFacts) : ModeQuestion → Prop
  | .explicitMode name => facts'.explicitMode name = facts.explicitMode name
  | .isLogical name => facts'.isLogical name = facts.isLogical name
  | .isIncluded ty => facts'.isIncluded ty = facts.isIncluded ty
  | .isNonPortable ty => facts'.isNonPortable ty = facts.isNonPortable ty

instance (facts facts' : ModeFacts) :
    (q : ModeQuestion) → Decidable (q.AnsweredAlike facts facts')
  | .explicitMode _ => inferInstanceAs (Decidable (_ = _))
  | .isLogical _ => inferInstanceAs (Decidable (_ = _))
  | .isIncluded _ => inferInstanceAs (Decidable (_ = _))
  | .isNonPortable _ => inferInstanceAs (Decidable (_ = _))

/-- An answer or a failure, with the questions that were asked for it. -/
structure Traced (α : Type) where
  asked : List ModeQuestion
  answer : Except PatternError α

namespace Traced

variable {α β : Type}

instance : Monad Traced where
  pure a := ⟨[], .ok a⟩
  bind t next :=
    match t.answer with
    | .error e => ⟨t.asked, .error e⟩
    | .ok a => ⟨t.asked ++ (next a).asked, (next a).answer⟩

/-- Answers are put together as they are without the questions. -/
theorem answer_bind {t : Traced α} {next : α → Traced β} {answer : Except PatternError α}
    {later : α → Except PatternError β} (first : t.answer = answer)
    (rest : ∀ a, (next a).answer = later a) : (t >>= next).answer = answer >>= later := by
  obtain ⟨asked, error | a⟩ := t
  · rw [← first]
    rfl
  · rw [← first]
    exact rest a

/-- What was asked first stands in front. -/
theorem asked_prefix_bind (t : Traced α) (next : α → Traced β) :
    t.asked <+: (t >>= next).asked := by
  obtain ⟨asked, error | a⟩ := t
  · exact List.prefix_rfl
  · exact List.prefix_append asked _

theorem asked_bind_ne_nil {t : Traced α} {next : α → Traced β} (some : t.asked ≠ []) :
    (t >>= next).asked ≠ [] :=
  fun none => some (List.prefix_nil.1 (none ▸ asked_prefix_bind t next))

/-- The second run goes as the first one when its facts answer alike whatever
the first one asked. -/
def Follows (facts facts' : ModeFacts) (t t' : Traced α) : Prop :=
  (∀ q ∈ t.asked, q.AnsweredAlike facts facts') → t' = t

namespace Follows

variable {facts facts' : ModeFacts}

theorem pure (a : α) : Follows facts facts' (Pure.pure a) (Pure.pure a) := fun _ => rfl

theorem bind {t t' : Traced α} {next next' : α → Traced β} (first : Follows facts facts' t t')
    (later : ∀ a, Follows facts facts' (next a) (next' a)) :
    Follows facts facts' (t >>= next) (t' >>= next') := by
  intro alike
  rw [first fun q member => alike q ((asked_prefix_bind t next).subset member)]
  obtain ⟨asked, error | a⟩ := t
  · rfl
  · have same : next' a = next a :=
      later a fun q member => alike q (List.mem_append_right asked member)
    show Traced.mk (asked ++ (next' a).asked) (next' a).answer = _
    rw [same]
    rfl

end Follows

end Traced

namespace ModeFacts

open TypeDescriptor (ancestorAt ancestorsAlone)

variable (facts : ModeFacts)

/-! ### What the ancestors leave -/

/-- The ancestor at a position settles the mode, or keeps it from being settled. -/
def StopsAt (chain : List TypeName) (i : Nat) : Prop :=
  ∃ name, chain[i]? = some name ∧ (facts.explicitMode name = .adaptableOnly ∨
    facts.isNonPortable (ancestorAt chain i name) ≠ .ok false)

/-- What the first ancestor that stops, if there is one, makes of the mode. -/
inductive Inherits (chain : List TypeName) : Except PatternError TransformMode → Prop
  | limited {i : Nat} {name : TypeName} (nearer : ∀ j < i, ¬ facts.StopsAt chain j)
      (here : chain[i]? = some name)
      (limits : facts.explicitMode name = .adaptableOnly ∨
        facts.isNonPortable (ancestorAt chain i name) = .ok true) :
      Inherits chain (.ok .adaptableOnly)
  | failed {i : Nat} {name : TypeName} {error : PatternError}
      (nearer : ∀ j < i, ¬ facts.StopsAt chain j) (here : chain[i]? = some name)
      (unlimited : facts.explicitMode name ≠ .adaptableOnly)
      (fails : facts.isNonPortable (ancestorAt chain i name) = .error error) :
      Inherits chain (.error error)
  | free (passed : ∀ i, ¬ facts.StopsAt chain i) : Inherits chain (.ok .fullyTransformable)

variable {facts} {chain : List TypeName} {first : TypeName}
  {answer : Except PatternError TransformMode}

theorem stopsAt_zero_iff :
    facts.StopsAt (first :: chain) 0 ↔ facts.explicitMode first = .adaptableOnly ∨
      facts.isNonPortable (ancestorAt (first :: chain) 0 first) ≠ .ok false := by
  simp [StopsAt]

theorem stopsAt_succ_iff {i : Nat} :
    facts.StopsAt (first :: chain) (i + 1) ↔ facts.StopsAt chain i := Iff.rfl

/-- An ancestor that does not stop leaves the matter to those behind it. -/
theorem Inherits.behind (passed : ¬ facts.StopsAt (first :: chain) 0)
    (above : facts.Inherits chain answer) : facts.Inherits (first :: chain) answer := by
  have shifted : ∀ i, (∀ j < i, ¬ facts.StopsAt chain j) →
      ∀ j < i + 1, ¬ facts.StopsAt (first :: chain) j := by
    intro i nearer j before
    cases j with
    | zero => exact passed
    | succ j =>
      rw [stopsAt_succ_iff]
      exact nearer j (by omega)
  cases above with
  | @limited i name nearer here limits => exact .limited (shifted i nearer) here limits
  | @failed i name error nearer here unlimited fails =>
    exact .failed (shifted i nearer) here unlimited fails
  | free all =>
    apply Inherits.free
    intro i
    cases i with
    | zero => exact passed
    | succ i =>
      rw [stopsAt_succ_iff]
      exact all i

theorem inherits_inherited (chain : List TypeName) :
    facts.Inherits chain (facts.inherited (ancestorsAlone chain)) := by
  induction chain with
  | nil => exact .free (by simp [StopsAt])
  | cons name above ih =>
    have nearer : ∀ j < 0, ¬ facts.StopsAt (name :: above) j := by simp
    let alone := ancestorAt (name :: above) 0 name
    show facts.Inherits (name :: above) (facts.inherited (alone :: ancestorsAlone above))
    rw [inherited_cons, show alone.name = name from rfl]
    by_cases own : facts.explicitMode name = .adaptableOnly
    · rw [if_pos own]
      exact .limited nearer rfl (.inl own)
    · rw [if_neg own]
      cases asked : facts.isNonPortable alone with
      | error error => exact .failed nearer rfl own asked
      | ok barred =>
        cases barred with
        | true => exact .limited nearer rfl (.inr asked)
        | false =>
          have passed : ¬ facts.StopsAt (name :: above) 0 := by
            rw [stopsAt_zero_iff]
            simp [own, alone, asked]
          exact ih.behind passed

theorem inherited_of_passed (passed : ¬ facts.StopsAt (first :: chain) 0) :
    facts.inherited (ancestorsAlone (first :: chain)) =
      facts.inherited (ancestorsAlone chain) := by
  rw [stopsAt_zero_iff, not_or, not_not] at passed
  obtain ⟨own, asked⟩ := passed
  show facts.inherited (ancestorAt (first :: chain) 0 first :: ancestorsAlone chain) = _
  rw [inherited_cons, show (ancestorAt (first :: chain) 0 first).name = first from rfl,
    if_neg own, asked]

/-- The ancestors in front of the first one that stops may be left out. -/
theorem inherited_of_nearer {i : Nat} {name : TypeName}
    (nearer : ∀ j < i, ¬ facts.StopsAt chain j) (here : chain[i]? = some name) :
    facts.inherited (ancestorsAlone chain) =
      facts.inherited (ancestorAt chain i name :: ancestorsAlone (chain.drop (i + 1))) := by
  induction i generalizing chain with
  | zero =>
    cases chain with
    | nil => simp at here
    | cons first above =>
      have same : first = name := by simpa using here
      rw [same]
      rfl
  | succ i ih =>
    cases chain with
    | nil => simp at here
    | cons first above =>
      rw [inherited_of_passed (nearer 0 (by omega))]
      apply ih
      · intro j before
        rw [← stopsAt_succ_iff]
        exact nearer (j + 1) (by omega)
      · simpa using here

theorem inherited_of_free (passed : ∀ i, ¬ facts.StopsAt chain i) :
    facts.inherited (ancestorsAlone chain) = .ok .fullyTransformable := by
  induction chain with
  | nil => rfl
  | cons first above ih =>
    rw [inherited_of_passed (passed 0)]
    apply ih
    intro i
    rw [← stopsAt_succ_iff]
    exact passed (i + 1)

/-- What the ancestors leave is the one answer that their order gives. -/
theorem inherited_eq_iff :
    facts.inherited (ancestorsAlone chain) = answer ↔ facts.Inherits chain answer := by
  constructor
  · intro answered
    rw [← answered]
    exact inherits_inherited chain
  · intro given
    cases given with
    | @limited i name nearer here limits =>
      rw [inherited_of_nearer nearer here, inherited_cons]
      rcases limits with own | barred
      · exact if_pos own
      · rw [barred]
        exact ite_self _
    | @failed i name error nearer here unlimited fails =>
      rw [inherited_of_nearer nearer here, inherited_cons, fails]
      exact if_neg unlimited
    | free passed => exact inherited_of_free passed

/-! ### The steps of the decision -/

variable (facts) in
/-- Nothing about the type itself settles its mode, its rules apart. -/
structure Unsettled (ty : TypeDescriptor) (transformable : Bool) : Prop where
  concrete : ty.isInterface = false
  accepted : transformable = true
  unset : facts.explicitMode ty.name = .unset
  plain : facts.isLogical ty.name = false

variable (facts) in
/-- The decision by the first step that applies. -/
inductive Decides (ty : TypeDescriptor) (transformable : Bool) :
    Except PatternError TransformMode → Prop
  | barred (closed : ty.isInterface = true ∨ transformable = false) :
      Decides ty transformable (.ok .notAdaptable)
  | explicit (concrete : ty.isInterface = false) (accepted : transformable = true)
      (set : facts.explicitMode ty.name ≠ .unset) :
      Decides ty transformable (.ok (facts.explicitMode ty.name))
  | logical (concrete : ty.isInterface = false) (accepted : transformable = true)
      (unset : facts.explicitMode ty.name = .unset) (logical : facts.isLogical ty.name = true) :
      Decides ty transformable (.ok .fullyTransformable)
  | failed {error : PatternError} (unsettled : facts.Unsettled ty transformable)
      (fails : facts.isIncluded ty = .error error) : Decides ty transformable (.error error)
  | included (unsettled : facts.Unsettled ty transformable)
      (included : facts.isIncluded ty = .ok true) :
      Decides ty transformable (.ok .fullyTransformable)
  | inherited {answer : Except PatternError TransformMode}
      (unsettled : facts.Unsettled ty transformable) (apart : facts.isIncluded ty = .ok false)
      (above : facts.Inherits ty.ancestors answer) : Decides ty transformable answer

variable {ty : TypeDescriptor} {transformable : Bool}

/-! One equation for each step, under which it applies. -/

theorem decide_of_closed (closed : ty.isInterface = true ∨ transformable = false) :
    facts.decide ty transformable = .ok .notAdaptable := by
  have guard : (ty.isInterface || !transformable) = true := by simpa using closed
  rw [decide_eq, if_pos guard]

theorem decide_of_set (concrete : ty.isInterface = false) (accepted : transformable = true)
    (set : facts.explicitMode ty.name ≠ .unset) :
    facts.decide ty transformable = .ok (facts.explicitMode ty.name) := by
  simp [decide_eq, concrete, accepted, TransformMode.isSet, set]

theorem decide_of_logical (concrete : ty.isInterface = false) (accepted : transformable = true)
    (unset : facts.explicitMode ty.name = .unset) (logical : facts.isLogical ty.name = true) :
    facts.decide ty transformable = .ok .fullyTransformable := by
  simp [decide_eq, concrete, accepted, TransformMode.isSet, unset, logical]

theorem decide_of_unsettled (unsettled : facts.Unsettled ty transformable) :
    facts.decide ty transformable =
      match facts.isIncluded ty with
      | .error e => .error e
      | .ok true => .ok .fullyTransformable
      | .ok false => facts.inherited (ancestorsAlone ty.ancestors) := by
  have guard : ¬ (ty.isInterface || !transformable) = true := by
    simp [unsettled.concrete, unsettled.accepted]
  have unset : ¬ (facts.explicitMode ty.name).isSet = true := by
    simp [TransformMode.isSet, unsettled.unset]
  have plain : ¬ facts.isLogical ty.name = true := by simp [unsettled.plain]
  have steps := facts.decide_eq ty transformable
  rw [if_neg guard, if_neg unset, if_neg plain] at steps
  exact steps

theorem decides_decide (facts : ModeFacts) (ty : TypeDescriptor) (transformable : Bool) :
    facts.Decides ty transformable (facts.decide ty transformable) := by
  by_cases closed : ty.isInterface = true ∨ transformable = false
  · rw [decide_of_closed closed]
    exact .barred closed
  rw [not_or, Bool.not_eq_true, Bool.not_eq_false] at closed
  obtain ⟨concrete, accepted⟩ := closed
  by_cases unset : facts.explicitMode ty.name = .unset
  · by_cases logical : facts.isLogical ty.name = true
    · rw [decide_of_logical concrete accepted unset logical]
      exact .logical concrete accepted unset logical
    · have unsettled : facts.Unsettled ty transformable :=
        ⟨concrete, accepted, unset, by simpa using logical⟩
      rw [decide_of_unsettled unsettled]
      cases asked : facts.isIncluded ty with
      | error error => exact .failed unsettled asked
      | ok included =>
        cases included with
        | true => exact .included unsettled asked
        | false => exact .inherited unsettled asked (inherits_inherited ty.ancestors)
  · rw [decide_of_set concrete accepted unset]
    exact .explicit concrete accepted unset

theorem decide_eq_iff : facts.decide ty transformable = answer ↔
    facts.Decides ty transformable answer := by
  constructor
  · intro answered
    rw [← answered]
    exact decides_decide facts ty transformable
  · intro given
    cases given with
    | barred closed => exact decide_of_closed closed
    | explicit concrete accepted set => exact decide_of_set concrete accepted set
    | logical concrete accepted unset logical =>
      exact decide_of_logical concrete accepted unset logical
    | failed unsettled fails => rw [decide_of_unsettled unsettled, fails]
    | included unsettled included => rw [decide_of_unsettled unsettled, included]
    | inherited unsettled apart above =>
      rw [decide_of_unsettled unsettled, apart]
      exact inherited_eq_iff.2 above

theorem not_inherits_unset : ¬ facts.Inherits chain (.ok .unset) := by
  intro given
  cases given

theorem decide_ne_unset (facts : ModeFacts) (ty : TypeDescriptor) (transformable : Bool) :
    facts.decide ty transformable ≠ .ok .unset := by
  intro answered
  have given := decides_decide facts ty transformable
  generalize facts.decide ty transformable = answer at answered given
  cases given with
  | explicit concrete accepted set => exact set (by simpa using answered)
  | inherited unsettled apart above =>
    rw [answered] at above
    exact not_inherits_unset above
  | _ => cases answered

/-! ### The questions on the way -/

/-- The facts, asked in such a way that the questions are kept. -/
def traced (facts : ModeFacts) : ModeQueries Traced where
  explicitMode name := ⟨[.explicitMode name], .ok (facts.explicitMode name)⟩
  isLogical name := ⟨[.isLogical name], .ok (facts.isLogical name)⟩
  isIncluded ty := ⟨[.isIncluded ty], facts.isIncluded ty⟩
  isNonPortable ty := ⟨[.isNonPortable ty], facts.isNonPortable ty⟩

/-- The questions put for the decision, in their order. -/
def questions (facts : ModeFacts) (ty : TypeDescriptor) (transformable : Bool) :
    List ModeQuestion := (facts.traced.decide ty transformable).asked

theorem answer_traced_inherited (facts : ModeFacts) (ancestors : List TypeDescriptor) :
    (facts.traced.inherited ancestors).answer = facts.inherited ancestors := by
  induction ancestors with
  | nil => rfl
  | cons ancestor rest ih =>
    refine Traced.answer_bind rfl fun explicit => ?_
    split
    · rfl
    · refine Traced.answer_bind rfl fun barred => ?_
      split
      · rfl
      · exact ih

/-- To keep the questions changes no answer. -/
theorem answer_traced_decide (facts : ModeFacts) (ty : TypeDescriptor) (transformable : Bool) :
    (facts.traced.decide ty transformable).answer = facts.decide ty transformable := by
  unfold decide ModeQueries.decide
  split
  · rfl
  refine Traced.answer_bind rfl fun explicit => ?_
  split
  · rfl
  refine Traced.answer_bind rfl fun logical => ?_
  split
  · rfl
  refine Traced.answer_bind rfl fun included => ?_
  split
  · rfl
  · exact answer_traced_inherited facts _

theorem questions_eq_nil_iff : facts.questions ty transformable = [] ↔
    ty.isInterface = true ∨ transformable = false := by
  have guard : (ty.isInterface || !transformable) = true ↔
      ty.isInterface = true ∨ transformable = false := by simp
  rw [questions, ModeQueries.decide, ← guard]
  split
  · rename_i closed
    exact iff_of_true rfl closed
  · rename_i opened
    exact iff_of_false (Traced.asked_bind_ne_nil (List.cons_ne_nil _ _)) opened

/-! ### Facts that answer alike -/

section Alike

variable (facts' : ModeFacts)

/-! One question is put to both facts alike. -/

theorem follows_explicitMode (name : TypeName) : Traced.Follows facts facts'
    (facts.traced.explicitMode name) (facts'.traced.explicitMode name) := by
  intro alike
  have same : facts'.explicitMode name = facts.explicitMode name := alike _ List.mem_cons_self
  simp only [traced, same]

theorem follows_isLogical (name : TypeName) : Traced.Follows facts facts'
    (facts.traced.isLogical name) (facts'.traced.isLogical name) := by
  intro alike
  have same : facts'.isLogical name = facts.isLogical name := alike _ List.mem_cons_self
  simp only [traced, same]

theorem follows_isIncluded (ty : TypeDescriptor) : Traced.Follows facts facts'
    (facts.traced.isIncluded ty) (facts'.traced.isIncluded ty) := by
  intro alike
  have same : facts'.isIncluded ty = facts.isIncluded ty := alike _ List.mem_cons_self
  simp only [traced, same]

theorem follows_isNonPortable (ty : TypeDescriptor) : Traced.Follows facts facts'
    (facts.traced.isNonPortable ty) (facts'.traced.isNonPortable ty) := by
  intro alike
  have same : facts'.isNonPortable ty = facts.isNonPortable ty := alike _ List.mem_cons_self
  simp only [traced, same]

theorem follows_inherited (ancestors : List TypeDescriptor) :
    Traced.Follows facts facts' (facts.traced.inherited ancestors)
      (facts'.traced.inherited ancestors) := by
  induction ancestors with
  | nil => exact .pure _
  | cons ancestor rest ih =>
    refine .bind (follows_explicitMode facts' ancestor.name) fun explicit => ?_
    split
    · exact .pure _
    · refine .bind (follows_isNonPortable facts' ancestor) fun barred => ?_
      split
      · exact .pure _
      · exact ih

theorem follows_decide (ty : TypeDescriptor) (transformable : Bool) :
    Traced.Follows facts facts' (facts.traced.decide ty transformable)
      (facts'.traced.decide ty transformable) := by
  unfold ModeQueries.decide
  split
  · exact .pure _
  refine .bind (follows_explicitMode facts' ty.name) fun explicit => ?_
  split
  · exact .pure _
  refine .bind (follows_isLogical facts' ty.name) fun logical => ?_
  split
  · exact .pure _
  refine .bind (follows_isIncluded facts' ty) fun included => ?_
  split
  · exact .pure _
  · exact follows_inherited facts' _

variable {facts'}

theorem decide_of_answeredAlike
    (alike : ∀ q ∈ facts.questions ty transformable, q.AnsweredAlike facts facts') :
    facts'.decide ty transformable = facts.decide ty transformable := by
  rw [← answer_traced_decide, ← answer_traced_decide, follows_decide facts' ty transformable alike]

end Alike

/-- The decision is the one of the first step that applies, and never leaves
the mode unset. A type that is not open to a mode is asked nothing about. What
the facts say behind the step that decides, be it a failure, does not matter. -/
theorem decide_by_first_step (facts : ModeFacts) (ty : TypeDescriptor) (transformable : Bool) :
    (∀ answer, facts.decide ty transformable = answer ↔
      facts.Decides ty transformable answer) ∧
    facts.decide ty transformable ≠ .ok .unset ∧
    (facts.questions ty transformable = [] ↔
      ty.isInterface = true ∨ transformable = false) ∧
    ∀ facts' : ModeFacts,
      (∀ q ∈ facts.questions ty transformable, q.AnsweredAlike facts facts') →
        facts'.decide ty transformable = facts.decide ty transformable := by
  refine ⟨fun answer => decide_eq_iff, decide_ne_unset facts ty transformable,
    questions_eq_nil_iff, ?_⟩
  intro facts' alike
  exact decide_of_answeredAlike alike

def teapot : TypeDescriptor :=
  { TypeDescriptor.named (TypeName.ofString "acme.Teapot") with
    ancestors := ["acme.Pot", "acme.Vessel", "acme.Thing"].map TypeName.ofString }

/-- The second ancestor is adaptable only, and portability is an open question
from there on. -/
def vesselLimited : ModeFacts where
  explicitMode name := if name = TypeName.ofString "acme.Vessel" then .adaptableOnly else .unset
  isLogical _ := false
  isIncluded _ := .ok false
  isNonPortable ty := if ty.name = TypeName.ofString "acme.Pot" then .ok false else .error .empty

/-- The same up to the second ancestor, with answers behind it. -/
def vesselAnswered : ModeFacts := { vesselLimited with isNonPortable := fun _ => .ok false }

theorem teapot_decided :
    vesselLimited.decide teapot true = .ok .adaptableOnly ∧
      vesselAnswered.decide teapot true = .ok .adaptableOnly := by
  obtain ⟨decided, -, -, behind⟩ := decide_by_first_step vesselLimited teapot true
  have passed : ¬ vesselLimited.StopsAt teapot.ancestors 0 := by
    rw [show teapot.ancestors = TypeName.ofString "acme.Pot" :: teapot.ancestors.tail from rfl,
      stopsAt_zero_iff]
    decide +kernel
  have limited : vesselLimited.decide teapot true = .ok .adaptableOnly := by
    rw [decided]
    refine .inherited ⟨rfl, rfl, by decide +kernel, rfl⟩ rfl
      (.limited (i := 1) (fun j before => ?_) rfl (.inl (by decide +kernel)))
    rwa [Nat.lt_one_iff.1 before]
  exact ⟨limited, (behind vesselAnswered (by decide +kernel)).trans limited⟩

end ModeFacts

end ClassPolicy
