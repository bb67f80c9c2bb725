import ClassPolicy.Pattern.MemberPattern
import Mathlib.Data.List.Forall2
import Mathlib.Tactic.Common

/-!
# Parameter lists as cuts

Types follow a list of parameter patterns when they can be cut into consecutive
pieces, one for each pattern in order: a type pattern takes one type that it
matches, and `..` takes any run of types. While a list of patterns is gone
through, the open slots are the lengths of the beginnings of the types that can
be cut for the patterns so far. One `..` takes what several in a row take, so
merging them changes no answer.
-/

set_option autoImplicit false

namespace ClassPolicy

/-- The types follow the list, where any run of them may stand for a `..`. -/
inductive TypesMatch : List ParameterPattern → List String → Prop
  | nil : TypesMatch [] []
  | anyRun {rest : List ParameterPattern} {run types : List String}
      (later : TypesMatch rest types) : TypesMatch (.anyRun :: rest) (run ++ types)
  | type {p : TypePattern} {rest : List ParameterPattern} {type : String} {types : List String}
      (here : p.matchesName type = true) (later : TypesMatch rest types) :
      TypesMatch (.type p :: rest) (type :: types)

namespace TypesMatch

variable {rest : List ParameterPattern} {types : List String}

theorem nil_iff : TypesMatch [] types ↔ types = [] := by
  constructor
  · rintro ⟨⟩
    rfl
  · rintro rfl
    exact .nil

theorem anyRun_cons_iff :
    TypesMatch (.anyRun :: rest) types ↔
      ∃ run later, types = run ++ later ∧ TypesMatch rest later := by
  constructor
  · rintro (_ | @⟨_, run, later, matched⟩)
    exact ⟨run, later, rfl, matched⟩
  · rintro ⟨run, later, rfl, matched⟩
    exact .anyRun matched

theorem type_cons_iff {p : TypePattern} :
    TypesMatch (.type p :: rest) types ↔
      ∃ type later, types = type :: later ∧ p.matchesName type = true ∧ TypesMatch rest later := by
  constructor
  · rintro (_ | _ | @⟨_, _, type, later, here, matched⟩)
    exact ⟨type, later, rfl, here, matched⟩
  · rintro ⟨type, later, rfl, here, matched⟩
    exact .type here matched

/-- Two runs in a row are one run. -/
theorem anyRun_anyRun_iff :
    TypesMatch (.anyRun :: .anyRun :: rest) types ↔ TypesMatch (.anyRun :: rest) types := by
  constructor
  · rw [anyRun_cons_iff]
    rintro ⟨run, later, rfl, matched⟩
    obtain ⟨run', later', rfl, matched'⟩ := anyRun_cons_iff.1 matched
    rw [← List.append_assoc]
    exact .anyRun matched'
  · intro matched
    exact anyRun_cons_iff.2 ⟨[], types, rfl, matched⟩

end TypesMatch

/-- Whether a parameter pattern may stand for a piece of the types. -/
def ParameterPattern.Takes : ParameterPattern → List String → Prop
  | .anyRun, _ => True
  | .type p, piece => ∃ type, piece = [type] ∧ p.matchesName type = true

/-- The types can be cut into consecutive pieces, one for each pattern. -/
def Cuttable (patterns : List ParameterPattern) (types : List String) : Prop :=
  ∃ pieces : List (List String), pieces.flatten = types ∧
    List.Forall₂ ParameterPattern.Takes patterns pieces

theorem TypesMatch.cuttable {patterns : List ParameterPattern} {types : List String}
    (matched : TypesMatch patterns types) : Cuttable patterns types := by
  induction matched with
  | nil => exact ⟨[], rfl, .nil⟩
  | @anyRun rest run types _ ih =>
    obtain ⟨pieces, rfl, each⟩ := ih
    exact ⟨run :: pieces, rfl, .cons trivial each⟩
  | @type p rest type types here _ ih =>
    obtain ⟨pieces, rfl, each⟩ := ih
    exact ⟨[type] :: pieces, rfl, .cons ⟨type, rfl, here⟩ each⟩

theorem Cuttable.typesMatch {patterns : List ParameterPattern} {types : List String}
    (cut : Cuttable patterns types) : TypesMatch patterns types := by
  obtain ⟨pieces, rfl, each⟩ := cut
  induction each with
  | nil => exact .nil
  | @cons p piece rest pieces here _ ih =>
    cases p with
    | anyRun => exact .anyRun ih
    | type p =>
      obtain ⟨type, rfl, matched⟩ := here
      exact .type matched ih

theorem typesMatch_iff_cuttable (patterns : List ParameterPattern) (types : List String) :
    TypesMatch patterns types ↔ Cuttable patterns types :=
  ⟨TypesMatch.cuttable, Cuttable.typesMatch⟩

/-- A cut for two lists in a row is a cut for each of them. -/
theorem cuttable_append_iff {before after : List ParameterPattern} {types : List String} :
    Cuttable (before ++ after) types ↔
      ∃ first later, types = first ++ later ∧ Cuttable before first ∧ Cuttable after later := by
  constructor
  · rintro ⟨pieces, rfl, each⟩
    have front := List.forall₂_take before.length each
    have back := List.forall₂_drop before.length each
    rw [List.take_left] at front
    rw [List.drop_left] at back
    refine ⟨_, _, ?_, ⟨_, rfl, front⟩, ⟨_, rfl, back⟩⟩
    rw [← List.flatten_append, List.take_append_drop]
  · rintro ⟨_, _, rfl, ⟨pieces, rfl, each⟩, ⟨pieces', rfl, each'⟩⟩
    exact ⟨pieces ++ pieces', List.flatten_append, List.rel_append each each'⟩

/-- Two neighbouring runs take what one takes, wherever they stand. -/
theorem cuttable_merge_iff {before after : List ParameterPattern} {types : List String} :
    Cuttable (before ++ .anyRun :: .anyRun :: after) types ↔
      Cuttable (before ++ .anyRun :: after) types := by
  have here (later : List String) : Cuttable (.anyRun :: .anyRun :: after) later ↔
      Cuttable (.anyRun :: after) later := by
    rw [← typesMatch_iff_cuttable, ← typesMatch_iff_cuttable, TypesMatch.anyRun_anyRun_iff]
  simp only [cuttable_append_iff, here]

/-! ### Beginnings of the types -/

section Beginnings

variable {before : List ParameterPattern} {types : List String} {n : ℕ}

/-- A beginning is cut for two lists in a row where a shorter one is cut for
the first of them. -/
theorem cuttable_take_append_iff {after : List ParameterPattern} (within : n ≤ types.length) :
    Cuttable (before ++ after) (types.take n) ↔
      ∃ k ≤ n, Cuttable before (types.take k) ∧ Cuttable after ((types.take n).drop k) := by
  rw [cuttable_append_iff]
  constructor
  · rintro ⟨first, later, split, front, back⟩
    have total : n = first.length + later.length := by
      have lengths := congrArg List.length split
      rwa [List.length_append, List.length_take_of_le within] at lengths
    have short : first.length ≤ n := by omega
    have begins : types.take first.length = first := by
      rw [← Nat.min_eq_left short, ← List.take_take, split, List.take_left]
    refine ⟨first.length, short, ?_, ?_⟩
    · rwa [begins]
    · rwa [split, List.drop_left]
  · rintro ⟨k, short, front, back⟩
    refine ⟨types.take k, (types.take n).drop k, ?_, front, back⟩
    rw [← Nat.min_eq_left short, ← List.take_take, Nat.min_eq_left short, List.take_append_drop]

theorem cuttable_anyRun (run : List String) : Cuttable [.anyRun] run :=
  ⟨[run], by simp, .cons trivial .nil⟩

theorem cuttable_type_iff {p : TypePattern} :
    Cuttable [.type p] types ↔ ∃ type, types = [type] ∧ p.matchesName type = true := by
  constructor
  · rintro ⟨_, rfl, _ | ⟨⟨type, rfl, matched⟩, ⟨⟩⟩⟩
    exact ⟨type, rfl, matched⟩
  · rintro ⟨type, rfl, matched⟩
    exact ⟨[[type]], rfl, .cons ⟨type, rfl, matched⟩ .nil⟩

theorem cuttable_take_anyRun_iff (within : n ≤ types.length) :
    Cuttable (before ++ [.anyRun]) (types.take n) ↔ ∃ k ≤ n, Cuttable before (types.take k) := by
  simp only [cuttable_take_append_iff within, cuttable_anyRun, and_true]

theorem not_cuttable_type_nil {p : TypePattern} : ¬ Cuttable (before ++ [.type p]) [] := by
  rw [cuttable_append_iff]
  rintro ⟨first, later, split, -, back⟩
  obtain ⟨type, rfl, -⟩ := cuttable_type_iff.1 back
  exact absurd split (by simp)

theorem cuttable_take_type_iff {p : TypePattern} (within : n < types.length) :
    Cuttable (before ++ [.type p]) (types.take (n + 1)) ↔
      Cuttable before (types.take n) ∧ p.matchesName types[n] = true := by
  have lastOf : (types.take (n + 1)).drop n = [types[n]] := by
    rw [List.take_succ_eq_append_getElem within, List.drop_left']
    exact List.length_take_of_le (Nat.le_of_succ_le within)
  simp only [cuttable_take_append_iff within, cuttable_type_iff]
  constructor
  · rintro ⟨k, short, front, type, single, matched⟩
    have last : k = n := by
      have length := congrArg List.length single
      simp only [List.length_drop, List.length_take_of_le within, List.length_singleton] at length
      omega
    subst last
    obtain rfl : types[k] = type := by simpa [lastOf] using single
    exact ⟨front, matched⟩
  · rintro ⟨front, matched⟩
    exact ⟨n, n.le_succ, front, types[n], lastOf, matched⟩

end Beginnings

namespace MemberPattern

/-! ### The slots -/

/-- The open slots are the lengths of the beginnings that can be cut for the
patterns gone through. -/
structure Tracks (types : List String) (before : List ParameterPattern) (slots : List Bool) :
    Prop where
  size : slots.length = types.length + 1
  open_iff : ∀ n ≤ types.length, slots[n]? = some true ↔ Cuttable before (types.take n)

theorem tracks_start (types : List String) :
    Tracks types [] ((List.replicate (types.length + 1) false).set 0 true) where
  size := by simp
  open_iff n within := by
    rw [← typesMatch_iff_cuttable, TypesMatch.nil_iff, List.take_eq_nil_iff, List.getElem?_set]
    rcases n with _ | n
    · simp
    · have some : types ≠ [] := List.ne_nil_of_length_pos (by omega)
      simp [List.getElem?_replicate, some]

theorem length_openOnward (seen : Bool) (slots : List Bool) :
    (openOnward seen slots).length = slots.length := by
  induction slots generalizing seen with
  | nil => rfl
  | cons slot slots ih => simp [openOnward, ih]

theorem getElem?_openOnward {seen : Bool} {slots : List Bool} {n : ℕ} (within : n < slots.length) :
    (openOnward seen slots)[n]? = some true ↔ seen = true ∨ ∃ k ≤ n, slots[k]? = some true := by
  induction slots generalizing seen n with
  | nil => simp at within
  | cons slot slots ih =>
    cases n with
    | zero => simp [openOnward]
    | succ n =>
      have later : n < slots.length := Nat.lt_of_succ_lt_succ within
      rw [openOnward, List.getElem?_cons_succ, ih later, Bool.or_eq_true, or_assoc]
      refine or_congr Iff.rfl ?_
      constructor
      · rintro (here | ⟨k, before, opened⟩)
        · exact ⟨0, Nat.zero_le _, by simp [here]⟩
        · exact ⟨k + 1, Nat.succ_le_succ before, opened⟩
      · rintro ⟨_ | k, before, opened⟩
        · exact .inl (by simpa using opened)
        · exact .inr ⟨k, Nat.le_of_succ_le_succ before, opened⟩

theorem length_moveOn (p : TypePattern) (types : List String) (last : ℕ) (slots : List Bool) :
    (moveOn p types last slots).length = slots.length := by
  induction last generalizing slots with
  | zero => rfl
  | succ last ih => rw [moveOn, ih, List.length_set]

/-- A slot is overwritten while the slot before it still holds its old value,
since the slots are gone through from the last one down. -/
theorem getElem?_moveOn {p : TypePattern} {types : List String} {last n : ℕ} {slots : List Bool}
    (within : last < slots.length) :
    (moveOn p types last slots)[n + 1]? =
      if n < last then some (slots.getD n false && types[n]?.any p.matchesName)
      else slots[n + 1]? := by
  induction last generalizing slots with
  | zero => rfl
  | succ last ih =>
    rw [moveOn, ih (by rw [List.length_set]; omega)]
    rcases Nat.lt_trichotomy n last with before | rfl | after
    · have untouched : (slots.set (last + 1) (slots.getD last false &&
          types[last]?.any p.matchesName)).getD n false = slots.getD n false := by
        rw [List.getD_eq_getElem?_getD, List.getElem?_set_ne (by omega),
          ← List.getD_eq_getElem?_getD]
      rw [if_pos before, if_pos (by omega), untouched]
    · rw [if_neg (by omega), if_pos (by omega), List.getElem?_set_self within]
    · rw [if_neg (by omega), if_neg (by omega), List.getElem?_set_ne (by omega)]

/-- One pattern keeps the slots right, for the list with that pattern at its
end. -/
theorem Tracks.advance {types : List String} {before : List ParameterPattern} {slots : List Bool}
    (tracked : Tracks types before slots) (p : ParameterPattern) :
    Tracks types (before ++ [p]) (MemberPattern.advance types slots p) := by
  cases p with
  | anyRun =>
    refine ⟨(length_openOnward false slots).trans tracked.size, fun n within => ?_⟩
    rw [MemberPattern.advance, getElem?_openOnward (by rw [tracked.size]; omega),
      cuttable_take_anyRun_iff within]
    simp only [Bool.false_eq_true, false_or]
    exact exists_congr fun k => and_congr_right fun short =>
      tracked.open_iff k (Nat.le_trans short within)
  | type p =>
    refine ⟨by simp [MemberPattern.advance, length_moveOn, tracked.size], fun n within => ?_⟩
    rw [MemberPattern.advance]
    cases n with
    | zero =>
      simp only [List.take_zero, not_cuttable_type_nil, iff_false]
      simp [length_moveOn, tracked.size]
    | succ n =>
      have inside : n < types.length := within
      have held := tracked.open_iff n (Nat.le_of_succ_le within)
      rw [List.getElem?_set_ne (by omega), getElem?_moveOn (by rw [tracked.size]; omega),
        if_pos inside, cuttable_take_type_iff inside, ← held, List.getD_eq_getElem?_getD,
        List.getElem?_eq_getElem inside]
      have slot : n < slots.length := by rw [tracked.size]; omega
      simp [List.getElem?_eq_getElem slot]

/-- From slots that are right for the patterns so far, the rest of the pass
tells whether the types can be cut for all of them. When no slot is open, no
later pattern opens one. -/
theorem matchesFrom_iff {types : List String} {before after : List ParameterPattern}
    {slots : List Bool} (tracked : Tracks types before slots) :
    matchesFrom types after slots = true ↔ Cuttable (before ++ after) types := by
  induction after generalizing before slots with
  | nil =>
    have last := tracked.open_iff types.length (Nat.le_refl _)
    rw [List.take_length] at last
    rw [List.append_nil, ← last, matchesFrom, List.getD_eq_getElem?_getD]
    cases slots[types.length]? <;> simp
  | cons p rest ih =>
    have moved := tracked.advance p
    have joined : before ++ p :: rest = before ++ [p] ++ rest := by simp
    rw [matchesFrom, joined]
    split
    · exact ih moved
    · rename_i closed
      simp only [Bool.false_eq_true, false_iff, @cuttable_append_iff (before ++ [p])]
      rintro ⟨first, later, rfl, front, -⟩
      refine closed (List.contains_iff_mem.2 (List.mem_of_getElem? (i := first.length) ?_))
      rw [moved.open_iff first.length (by simp), List.take_left]
      exact front

/-- Types match a list of patterns exactly when they follow it. -/
theorem matchesParameters_iff (patterns : List ParameterPattern) (types : List String) :
    matchesParameters patterns types = true ↔ TypesMatch patterns types := by
  rw [typesMatch_iff_cuttable]
  exact matchesFrom_iff (tracks_start types)

theorem typesMatch_mergeRuns_iff (parameters : List ParameterPattern) (types : List String) :
    TypesMatch (mergeRuns parameters) types ↔ TypesMatch parameters types := by
  fun_induction mergeRuns parameters generalizing types with
  | case1 rest ih => rw [ih, TypesMatch.anyRun_anyRun_iff]
  | case2 p rest single ih =>
    cases p with
    | anyRun => simp only [TypesMatch.anyRun_cons_iff, ih]
    | type p => simp only [TypesMatch.type_cons_iff, ih]
  | case3 => rfl

/-- Types match a list of patterns exactly when they can be cut for it, and to
merge two neighbouring `..`, or all of them as in the reading of a pattern,
makes no difference. -/
theorem matchesParameters_as_cut (patterns : List ParameterPattern) (types : List String) :
    (matchesParameters patterns types = true ↔ Cuttable patterns types) ∧
      (∀ before after, matchesParameters (before ++ .anyRun :: .anyRun :: after) types =
        matchesParameters (before ++ .anyRun :: after) types) ∧
      matchesParameters (mergeRuns patterns) types = matchesParameters patterns types := by
  have meaning (patterns : List ParameterPattern) :
      matchesParameters patterns types = true ↔ Cuttable patterns types :=
    matchesFrom_iff (tracks_start types)
  refine ⟨meaning patterns, ?_, ?_⟩
  · intro before after
    rw [Bool.eq_iff_iff, meaning, meaning, cuttable_merge_iff]
  · rw [Bool.eq_iff_iff, matchesParameters_iff, matchesParameters_iff, typesMatch_mergeRuns_iff]

end MemberPattern

end ClassPolicy
