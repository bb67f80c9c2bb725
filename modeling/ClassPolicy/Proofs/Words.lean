import ClassPolicy.Text.Blank
import Mathlib.Data.List.DropRight
import Mathlib.Data.List.TakeWhile
import Mathlib.Tactic.Common

/-!
# Words between blanks

What it means that a text consists of some words: blanks part the words and may
stand before the first and after the last. A text consists of exactly the words
that it is cut into. Any other character ends the blanks that are trimmed off
and belongs to one of the words.
-/

set_option autoImplicit false

namespace ClassPolicy.Text

/-- The words stand in the text in this order, with nothing but blanks around
and between them. -/
inductive Spaced : List (List Char) → List Char → Prop
  | blank {blanks : List Char} (only : ∀ c ∈ blanks, isBlank c = true) : Spaced [] blanks
  | word {blanks word rest : List Char} {words : List (List Char)}
      (only : ∀ c ∈ blanks, isBlank c = true) (nonempty : word ≠ [])
      (solid : ∀ c ∈ word, isBlank c = false) (apart : ∀ c ∈ rest.head?, isBlank c = true)
      (later : Spaced words rest) : Spaced (word :: words) (blanks ++ word ++ rest)

theorem words_blank_append {blanks : List Char} (only : ∀ c ∈ blanks, isBlank c = true)
    (s : List Char) : words (blanks ++ s) = words s := by
  induction blanks with
  | nil => rfl
  | cons c blanks ih =>
    have here : isBlank c = true := only c List.mem_cons_self
    have later := ih fun d member => only d (List.mem_cons_of_mem _ member)
    rw [List.cons_append, words, List.splitOnP_cons_eq_if_modifyHead, if_pos here]
    exact later

theorem words_word_append {word rest : List Char} (nonempty : word ≠ [])
    (solid : ∀ c ∈ word, isBlank c = false) (apart : ∀ c ∈ rest.head?, isBlank c = true) :
    words (word ++ rest) = word :: words rest := by
  have kept : (!word.isEmpty) = true := by simpa using nonempty
  cases rest with
  | nil =>
    rw [List.append_nil, words, List.splitOnP_eq_singleton solid, List.filter_cons, if_pos kept]
    rfl
  | cons c rest =>
    have blank : isBlank c = true := apart c rfl
    have skipped : words ([c] ++ rest) = words rest :=
      words_blank_append (by simpa using blank) rest
    rw [List.singleton_append] at skipped
    rw [skipped, words, List.splitOnP_append_cons_of_forall_mem solid c blank,
      List.filter_cons, if_pos kept]
    rfl

/-- A word is made of characters of the text. -/
theorem Spaced.subset {s word : List Char} {ws : List (List Char)} (spaced : Spaced ws s)
    (member : word ∈ ws) : word ⊆ s := by
  induction spaced with
  | blank only => cases member
  | @word blanks first rest words only nonempty solid apart later ih =>
    intro c inside
    rcases List.mem_cons.1 member with rfl | member
    · exact List.mem_append_left _ (List.mem_append_right _ inside)
    · exact List.mem_append_right _ (ih member inside)

theorem Spaced.words_eq {s : List Char} {ws : List (List Char)} (spaced : Spaced ws s) :
    words s = ws := by
  induction spaced with
  | @blank blanks only =>
    have none := words_blank_append only []
    rw [List.append_nil] at none
    rw [none]
    rfl
  | word only nonempty solid apart later ih =>
    rw [List.append_assoc, words_blank_append only, words_word_append nonempty solid apart, ih]

theorem blank_after_word (s : List Char) :
    ∀ c ∈ (s.dropWhile (!isBlank ·)).head?, isBlank c = true := by
  intro c first
  have stopped := List.head?_dropWhile_not (!isBlank ·) s
  rw [first] at stopped
  simpa using stopped

theorem exists_spaced (s : List Char) : ∃ ws, Spaced ws s := by
  induction size : s.length using Nat.strongRecOn generalizing s with
  | _ n ih =>
    subst size
    have cut : s.takeWhile isBlank ++ s.dropWhile isBlank = s := List.takeWhile_append_dropWhile
    have only : ∀ c ∈ s.takeWhile isBlank, isBlank c = true :=
      fun c member => List.mem_takeWhile_imp member
    cases filled : s.dropWhile isBlank with
    | nil =>
      rw [filled, List.append_nil] at cut
      rw [cut] at only
      exact ⟨[], .blank only⟩
    | cons c after =>
      have first : isBlank c = false := by
        have stopped := List.head?_dropWhile_not isBlank s
        rw [filled] at stopped
        simpa using stopped
      have cut' : after.takeWhile (!isBlank ·) ++ after.dropWhile (!isBlank ·) = after :=
        List.takeWhile_append_dropWhile
      have solid : ∀ d ∈ c :: after.takeWhile (!isBlank ·), isBlank d = false := by
        intro d member
        rcases List.mem_cons.1 member with rfl | member
        · exact first
        · simpa using List.mem_takeWhile_imp member
      have shorter : (after.dropWhile (!isBlank ·)).length < s.length := by
        have bound := List.length_dropWhile_le (!isBlank ·) after
        have whole := congrArg List.length cut
        rw [filled, List.length_append, List.length_cons] at whole
        omega
      obtain ⟨ws, later⟩ := ih _ shorter _ rfl
      have spaced := Spaced.word only (List.cons_ne_nil _ _) solid (blank_after_word after) later
      rw [List.append_assoc, List.cons_append, cut', ← filled, cut] at spaced
      exact ⟨_, spaced⟩

theorem words_eq_iff {s : List Char} {ws : List (List Char)} : words s = ws ↔ Spaced ws s := by
  constructor
  · rintro rfl
    obtain ⟨ws, spaced⟩ := exists_spaced s
    rw [spaced.words_eq]
    exact spaced
  · exact fun spaced => spaced.words_eq

/-- The blanks at the front do not count. -/
theorem words_dropWhile_isBlank (s : List Char) : words (s.dropWhile isBlank) = words s := by
  have only : ∀ c ∈ s.takeWhile isBlank, isBlank c = true :=
    fun c member => List.mem_takeWhile_imp member
  rw [← words_blank_append only (s.dropWhile isBlank), List.takeWhile_append_dropWhile]

theorem words_append_cons (before after : List Char) {c : Char} (blank : isBlank c = true) :
    words (before ++ c :: after) = words before ++ words after := by
  rw [words, List.splitOnP_append_cons _ _ blank, List.filter_append]
  rfl

/-- The word around a character that is not blank, with the words before and
after it. -/
theorem words_through (before after : List Char) {c : Char} (solid : isBlank c = false) :
    words (before ++ c :: after) =
      words (before.rdropWhile (!isBlank ·)) ++
        (before.rtakeWhile (!isBlank ·) ++ c :: after.takeWhile (!isBlank ·)) ::
          words (after.dropWhile (!isBlank ·)) := by
  have filled : before.rtakeWhile (!isBlank ·) ++ c :: after.takeWhile (!isBlank ·) ≠ [] := by simp
  have inside : ∀ d ∈ before.rtakeWhile (!isBlank ·) ++ c :: after.takeWhile (!isBlank ·),
      isBlank d = false := by
    intro d member
    rcases List.mem_append.1 member with member | member
    · simpa using List.mem_rtakeWhile_imp member
    · rcases List.mem_cons.1 member with rfl | member
      · exact solid
      · simpa using List.mem_takeWhile_imp member
  have word := words_word_append filled inside (blank_after_word after)
  rw [List.append_assoc, List.cons_append, List.takeWhile_append_dropWhile] at word
  have cut : before = before.rdropWhile (!isBlank ·) ++ before.rtakeWhile (!isBlank ·) :=
    List.rdropWhile_append_rtakeWhile.symm
  rw [← word]
  conv_lhs => rw [cut, List.append_assoc]
  rcases List.eq_nil_or_concat (before.rdropWhile (!isBlank ·)) with none | ⟨front, d, ends⟩
  · rw [none]
    rfl
  · have blank : isBlank d = true := by
      have stopped := List.rdropWhile_last_not (!isBlank ·) before (by rw [ends]; simp)
      simpa [ends] using stopped
    rw [ends, List.concat_eq_append, List.append_assoc, List.singleton_append,
      words_append_cons _ _ blank, words_append_cons _ _ blank]
    simp [words]

theorem dropWhile_through (before after : List Char) {c : Char} (solid : isBlank c = false) :
    (before ++ c :: after).dropWhile isBlank = before.dropWhile isBlank ++ c :: after := by
  have stops : (c :: after).dropWhile isBlank = c :: after :=
    List.dropWhile_cons_of_neg (by simp [solid])
  rw [List.dropWhile_append, stops]
  split_ifs with none
  · rw [List.isEmpty_iff.1 none, List.nil_append]
  · rfl

theorem rdropWhile_through (before after : List Char) {c : Char} (solid : isBlank c = false) :
    (before ++ c :: after).rdropWhile isBlank = before ++ c :: after.rdropWhile isBlank := by
  have reversed : (before ++ c :: after).reverse = after.reverse ++ c :: before.reverse := by simp
  rw [List.rdropWhile, reversed, dropWhile_through _ _ solid]
  simp [List.rdropWhile]

/-- A character that is not blank stops the trimming at either end. -/
theorem trim_through (before after : List Char) {c : Char} (solid : isBlank c = false) :
    trim (before ++ c :: after) =
      before.dropWhile isBlank ++ c :: after.rdropWhile isBlank := by
  have trimmed : trim (before ++ c :: after) =
      ((before ++ c :: after).dropWhile isBlank).rdropWhile isBlank := rfl
  rw [trimmed, dropWhile_through _ _ solid, rdropWhile_through _ _ solid]

theorem trim_subset (s : List Char) : trim s ⊆ s := fun _ member =>
  List.dropWhile_subset _ ((List.rdropWhile_prefix isBlank _).subset member)

/-- What a text is cut into at a character is made of its other characters. -/
theorem mem_of_mem_splitOn {c d : Char} {s part : List Char} (member : part ∈ s.splitOn c)
    (inside : d ∈ part) : d ∈ s ∧ d ≠ c := by
  induction s generalizing part with
  | nil =>
    rw [List.splitOn_nil, List.mem_singleton] at member
    rw [member] at inside
    cases inside
  | cons e s ih =>
    rw [List.splitOn_cons_eq_if_modifyHead] at member
    by_cases here : e = c
    · rw [if_pos (by simpa using here)] at member
      rcases List.mem_cons.1 member with rfl | member
      · cases inside
      · exact (ih member inside).imp_left (List.mem_cons_of_mem _)
    · rw [if_neg (by simpa using here)] at member
      cases split : s.splitOn c with
      | nil => exact absurd split (List.splitOn_ne_nil _ _)
      | cons first rest =>
        rw [split] at member ih
        rcases List.mem_cons.1 member with rfl | member
        · rcases List.mem_cons.1 inside with rfl | inside
          · exact ⟨List.mem_cons_self, here⟩
          · exact (ih List.mem_cons_self inside).imp_left (List.mem_cons_of_mem _)
        · exact (ih (List.mem_cons_of_mem _ member) inside).imp_left (List.mem_cons_of_mem _)

theorem not_mem_of_mem_splitOn {c : Char} {s part : List Char} (member : part ∈ s.splitOn c) :
    c ∉ part := fun inside => (mem_of_mem_splitOn member inside).2 rfl

end ClassPolicy.Text
