import ClassPolicy.Pattern.Cache
import Mathlib.Data.List.Dedup

/-!
# Matching with remembered patterns

A matcher keeps the patterns it has compiled. Whatever it was asked before, it
answers as one that was asked nothing, and it keeps one entry for every text
that compiles, in each of the two roles a text can have.
-/

set_option autoImplicit false

namespace ClassPolicy

/-- A question put to a matcher. -/
inductive MatchCall
  | type (pattern : String) (ty : TypeDescriptor)
  | member (pattern : String) (m : MemberDescriptor)

namespace PatternCache

/-! ### One role -/

section Known

variable {α : Type} {compile : String → Except PatternError α} {texts : List String}
  {known : SortedMap α}

/-- What is known are the texts that compile, each as it compiles. -/
def Knows (compile : String → Except PatternError α) (texts : List String)
    (known : SortedMap α) : Prop :=
  ∀ text a, known.get? text = some a ↔ text ∈ texts ∧ compile text = .ok a

theorem knows_empty (compile : String → Except PatternError α) : Knows compile [] .empty := by
  intro text a
  simp

theorem Knows.compileOnce_fst (knows : Knows compile texts known) (pattern : String) :
    (compileOnce compile pattern known).1 = compile pattern := by
  unfold compileOnce
  cases found : known.get? pattern with
  | some a => exact ((knows pattern a).1 found).2.symm
  | none => cases compile pattern <;> rfl

theorem Knows.compileOnce (knows : Knows compile texts known) (pattern : String) :
    Knows compile (texts ++ [pattern]) (compileOnce compile pattern known).2 := by
  intro text a
  have before := knows text a
  unfold PatternCache.compileOnce
  by_cases same : text = pattern
  · subst same
    cases found : known.get? text with
    | some b =>
      obtain ⟨member, compiles⟩ := (knows text b).1 found
      simp [before, member, compiles]
    | none =>
      cases compiled : compile text with
      | error e => simp [found]
      | ok b => simp [SortedMap.get?_insert]
  · have other : text ∈ texts ++ [pattern] ↔ text ∈ texts := by simp [same]
    rw [other, ← before]
    cases known.get? pattern with
    | some b => rfl
    | none => cases compile pattern <;> simp [SortedMap.get?_insert, same]

/-- One entry for every text that compiles. -/
theorem Knows.size (knows : Knows compile texts known) :
    known.size = (texts.filter (fun text => (compile text).isOk)).dedup.length := by
  refine SortedMap.size_eq_length (List.nodup_dedup _) fun text => ?_
  have known := knows text
  rw [SortedMap.contains, Option.isSome_iff_exists, List.mem_dedup, List.mem_filter]
  cases compiled : compile text <;> simp [known, compiled, Except.isOk, Except.toBool]

end Known

/-! ### Calls -/

def ask : MatchCall → PatternCache → Except PatternError Bool × PatternCache
  | .type pattern ty => matchType pattern ty
  | .member pattern m => matchMember pattern m

/-- The answers to some calls, and the cache after them. -/
def run : List MatchCall → PatternCache → List (Except PatternError Bool) × PatternCache
  | [], c => ([], c)
  | call :: rest, c =>
    let (answer, c) := ask call c
    let (answers, c) := run rest c
    (answer :: answers, c)

/-- The texts used as type patterns. -/
def typeTexts (calls : List MatchCall) : List String :=
  calls.filterMap fun
    | .type pattern _ => some pattern
    | .member _ _ => none

/-- The texts used as member patterns. -/
def memberTexts (calls : List MatchCall) : List String :=
  calls.filterMap fun
    | .type _ _ => none
    | .member pattern _ => some pattern

/-- The answer of a matcher that keeps nothing. -/
def answer : MatchCall → Except PatternError Bool
  | .type pattern ty => ClassPolicy.matchType pattern ty
  | .member pattern m => ClassPolicy.matchMember pattern m

/-- In both roles a cache knows the texts that were used. -/
structure Follows (calls : List MatchCall) (c : PatternCache) : Prop where
  types : Knows TypePattern.compile (typeTexts calls) c.types
  members : Knows MemberPattern.compile (memberTexts calls) c.members

theorem follows_empty : Follows [] empty := ⟨knows_empty _, knows_empty _⟩

section Asking

variable {earlier : List MatchCall} {c : PatternCache}

theorem Follows.ask_fst (follows : Follows earlier c) (call : MatchCall) :
    (ask call c).1 = answer call := by
  cases call with
  | type pattern ty =>
    simp only [ask, matchType, typePattern, follows.types.compileOnce_fst, answer,
      ClassPolicy.matchType]
  | member pattern m =>
    simp only [ask, matchMember, memberPattern, follows.members.compileOnce_fst, answer,
      ClassPolicy.matchMember]

theorem Follows.ask (follows : Follows earlier c) (call : MatchCall) :
    Follows (earlier ++ [call]) (ask call c).2 := by
  cases call with
  | type pattern ty =>
    have typed : typeTexts (earlier ++ [.type pattern ty]) = typeTexts earlier ++ [pattern] := by
      simp [typeTexts]
    have same : memberTexts (earlier ++ [.type pattern ty]) = memberTexts earlier := by
      simp [memberTexts]
    exact ⟨typed ▸ follows.types.compileOnce pattern, same ▸ follows.members⟩
  | member pattern m =>
    have same : typeTexts (earlier ++ [.member pattern m]) = typeTexts earlier := by
      simp [typeTexts]
    have used : memberTexts (earlier ++ [.member pattern m]) =
        memberTexts earlier ++ [pattern] := by
      simp [memberTexts]
    exact ⟨same ▸ follows.types, used ▸ follows.members.compileOnce pattern⟩

/-- Through a run the answers are those of a matcher that keeps nothing. -/
theorem Follows.run (follows : Follows earlier c) (calls : List MatchCall) :
    (run calls c).1 = calls.map answer ∧ Follows (earlier ++ calls) (run calls c).2 := by
  induction calls generalizing earlier c with
  | nil =>
    rw [List.append_nil]
    exact ⟨rfl, follows⟩
  | cons call rest ih =>
    obtain ⟨answers, left⟩ := ih (follows.ask call)
    rw [List.append_assoc, List.singleton_append] at left
    exact ⟨congrArg₂ List.cons (follows.ask_fst call) answers, left⟩

theorem Follows.compiledCount (follows : Follows earlier c) : c.compiledCount =
    ((typeTexts earlier).filter fun text => (TypePattern.compile text).isOk).dedup.length +
      ((memberTexts earlier).filter fun text => (MemberPattern.compile text).isOk).dedup.length :=
  congrArg₂ Nat.add follows.types.size follows.members.size

end Asking

/-! ### Transparency -/

/-- What a matcher does that is asked some calls, as compared to new ones. -/
structure Transparent (calls : List MatchCall) : Prop where
  answers : (run calls empty).1 = calls.map fun call => (ask call empty).1
  uncached : ∀ call, (ask call (run calls empty).2).1 = answer call
  typeFailure : ∀ pattern ty e, (matchType pattern ty (run calls empty).2).1 = .error e ↔
    TypePattern.compile pattern = .error e
  memberFailure : ∀ pattern m e, (matchMember pattern m (run calls empty).2).1 = .error e ↔
    MemberPattern.compile pattern = .error e
  count : (run calls empty).2.compiledCount =
    ((typeTexts calls).filter fun text => (TypePattern.compile text).isOk).dedup.length +
      ((memberTexts calls).filter fun text => (MemberPattern.compile text).isOk).dedup.length

/-- Every call is answered as by a new matcher, fails only for its pattern
text, and leaves an entry for each text that compiles in its role. -/
theorem transparent (calls : List MatchCall) : Transparent calls := by
  obtain ⟨answered, follows⟩ := follows_empty.run calls
  rw [List.nil_append] at follows
  refine ⟨?_, follows.ask_fst, fun pattern ty e => ?_, fun pattern m e => ?_,
    follows.compiledCount⟩
  · rw [answered]
    exact List.map_congr_left fun call _ => (follows_empty.ask_fst call).symm
  · have answer := follows.ask_fst (.type pattern ty)
    exact (Eq.congr_left answer).trans matchType_eq_error_iff
  · have answer := follows.ask_fst (.member pattern m)
    exact (Eq.congr_left answer).trans matchMember_eq_error_iff

end PatternCache

end ClassPolicy
