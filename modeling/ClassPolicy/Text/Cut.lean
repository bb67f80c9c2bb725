/-!
# Cutting a text at a character

A text is cut at the first or the last occurrence of a character, which itself
belongs to neither part.
-/

set_option autoImplicit false

namespace ClassPolicy.Text

def cutFirst? (c : Char) : List Char → Option (List Char × List Char)
  | [] => none
  | x :: s => if x = c then some ([], s) else (cutFirst? c s).map (fun p => (x :: p.1, p.2))

def cutLast? (c : Char) : List Char → Option (List Char × List Char)
  | [] => none
  | x :: s =>
    match cutLast? c s with
    | some p => some (x :: p.1, p.2)
    | none => if x = c then some ([], s) else none

/-- Whether `part` stands somewhere in the text, unbroken. -/
def occursIn (part : List Char) : List Char → Bool
  | [] => part.isEmpty
  | x :: s => part.isPrefixOf (x :: s) || occursIn part s

theorem occursIn_iff {part s : List Char} : occursIn part s = true ↔ part <:+: s := by
  induction s with
  | nil => simp [occursIn]
  | cons x s ih =>
    simp only [occursIn, Bool.or_eq_true, List.isPrefixOf_iff_prefix, ih, List.infix_cons_iff]

theorem cutFirst?_eq_none_iff {c : Char} {s : List Char} : cutFirst? c s = none ↔ c ∉ s := by
  induction s with
  | nil => simp [cutFirst?]
  | cons x s ih =>
    by_cases h : x = c
    · simp [cutFirst?, h]
    · simp [cutFirst?, h, ih, Ne.symm h]

theorem cutFirst?_eq_some_iff {c : Char} {s a b : List Char} :
    cutFirst? c s = some (a, b) ↔ s = a ++ c :: b ∧ c ∉ a := by
  induction s generalizing a with
  | nil => simp [cutFirst?]
  | cons x s ih =>
    by_cases h : x = c
    · subst h
      cases a with
      | nil => simp [cutFirst?, eq_comm]
      | cons y a => simp [cutFirst?, eq_comm]; intro e; simp [e]
    · cases a with
      | nil => simp [cutFirst?, h]
      | cons y a =>
        simp only [cutFirst?, h, if_false, Option.map_eq_some_iff, Prod.exists, Prod.mk.injEq,
          List.cons.injEq, List.cons_append, List.mem_cons, not_or]
        constructor
        · rintro ⟨u, v, hs, ⟨rfl, rfl⟩, rfl⟩
          have := ih.1 hs
          exact ⟨⟨rfl, this.1⟩, fun e => h e.symm, this.2⟩
        · rintro ⟨⟨rfl, hs⟩, _, ha⟩
          exact ⟨a, b, ih.2 ⟨hs, ha⟩, ⟨rfl, rfl⟩, rfl⟩

theorem cutLast?_eq_none_iff {c : Char} {s : List Char} : cutLast? c s = none ↔ c ∉ s := by
  induction s with
  | nil => simp [cutLast?]
  | cons x s ih =>
    cases hs : cutLast? c s with
    | none =>
      have := ih.1 hs
      by_cases h : x = c
      · simp [cutLast?, hs, h]
      · simp [cutLast?, hs, h, this, Ne.symm h]
    | some p =>
      have : c ∈ s := by
        by_cases hm : c ∈ s
        · exact hm
        · simp [ih.2 hm] at hs
      simp [cutLast?, hs, this]

theorem cutLast?_eq_some_iff {c : Char} {s a b : List Char} :
    cutLast? c s = some (a, b) ↔ s = a ++ c :: b ∧ c ∉ b := by
  induction s generalizing a b with
  | nil => simp [cutLast?]
  | cons x s ih =>
    cases hs : cutLast? c s with
    | none =>
      have hn := cutLast?_eq_none_iff.1 hs
      cases a with
      | nil =>
        by_cases h : x = c
        · simp only [cutLast?, hs, h, if_true, Option.some.injEq, Prod.mk.injEq, true_and,
            List.nil_append, List.cons.injEq]
          exact ⟨fun e => ⟨e, e ▸ hn⟩, fun e => e.1⟩
        · simp [cutLast?, hs, h]
      | cons y a =>
        by_cases h : x = c <;> simp [cutLast?, hs, h] <;> rintro - rfl <;> simp at hn
    | some p =>
      obtain ⟨u, v⟩ := p
      have hp := ih.1 hs
      cases a with
      | nil =>
        simp only [cutLast?, hs, Option.some.injEq, Prod.mk.injEq, reduceCtorEq, false_and,
          List.nil_append, List.cons.injEq, false_iff, not_and]
        rintro ⟨-, rfl⟩ hb
        exact hb (by simp [hp.1])
      | cons y a =>
        have key : s = a ++ c :: b ∧ c ∉ b ↔ u = a ∧ v = b := by
          rw [← ih, hs]; simp
        simp only [cutLast?, hs, Option.some.injEq, Prod.mk.injEq, List.cons.injEq,
          List.cons_append]
        constructor
        · rintro ⟨⟨rfl, rfl⟩, rfl⟩
          have := key.2 ⟨rfl, rfl⟩
          exact ⟨⟨rfl, this.1⟩, this.2⟩
        · rintro ⟨⟨rfl, e⟩, f⟩
          have := key.1 ⟨e, f⟩
          exact ⟨⟨rfl, this.1⟩, this.2⟩

end ClassPolicy.Text
