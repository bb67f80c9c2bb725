import ClassPolicy.Pattern.Glob
import Mathlib.Tactic.Common

/-!
# Stars in globs

What a glob says that is written with stars: a star stands for any run of
characters of some kind, every other character for itself. The pieces made of
such a text take just the texts that it stands for.
-/

set_option autoImplicit false

namespace ClassPolicy

/-- Putting a run of free characters for each star of the glob gives the text. -/
inductive StarMatch (free : Char → Prop) : List Char → List Char → Prop
  | nil : StarMatch free [] []
  | char {c : Char} {glob text : List Char} (plain : c ≠ '*') (rest : StarMatch free glob text) :
      StarMatch free (c :: glob) (c :: text)
  | star {run glob text : List Char} (allowed : ∀ x ∈ run, free x)
      (rest : StarMatch free glob text) : StarMatch free ('*' :: glob) (run ++ text)

namespace StarMatch

variable {free : Char → Prop} {glob text : List Char}

/-- A text without a character is matched with runs that do not hold it. -/
theorem avoiding {stop : Char} (h : StarMatch (fun _ => True) glob text) (absent : stop ∉ text) :
    StarMatch (· ≠ stop) glob text := by
  induction h with
  | nil => exact .nil
  | char plain rest ih =>
    have later := ih fun member => absent (List.mem_cons_of_mem _ member)
    exact .char plain later
  | @star run glob text allowed rest ih =>
    have later := ih fun member => absent (List.mem_append_right run member)
    refine .star (fun x member same => ?_) later
    subst same
    exact absent (List.mem_append_left text member)

theorem unrestricted (h : StarMatch free glob text) : StarMatch (fun _ => True) glob text := by
  induction h with
  | nil => exact .nil
  | char plain rest ih => exact .char plain ih
  | star allowed rest ih => exact .star (fun _ _ => trivial) ih

theorem append {glob' text' : List Char} (h : StarMatch free glob text)
    (h' : StarMatch free glob' text') : StarMatch free (glob ++ glob') (text ++ text') := by
  induction h with
  | nil => exact h'
  | char plain rest ih => exact .char plain ih
  | star allowed rest ih =>
    rw [List.append_assoc]
    exact .star allowed ih

theorem not_mem {stop : Char} (h : StarMatch (· ≠ stop) glob text) (absent : stop ∉ glob) :
    stop ∉ text := by
  induction h with
  | nil => exact absent
  | char plain rest ih =>
    rw [List.mem_cons, not_or] at absent ⊢
    exact ⟨absent.1, ih absent.2⟩
  | star allowed rest ih =>
    rw [List.mem_append, not_or]
    refine ⟨fun member => allowed _ member rfl, ?_⟩
    exact ih fun member => absent (List.mem_cons_of_mem _ member)

end StarMatch

namespace Glob

/-- The piece for one character of a glob whose stars stop at a character. -/
def starPiece (stop c : Char) : Piece := if c = '*' then .run stop else .char c

theorem takes_nil_iff {s : List Char} : takes [] s = true ↔ s = [] := List.isEmpty_iff

theorem takes_char_iff {c : Char} {rest : Glob} {s : List Char} :
    takes (.char c :: rest) s = true ↔ ∃ later, s = c :: later ∧ takes rest later = true := by
  cases s with
  | nil => simp [takes, Suffixes.oneThen]
  | cons x s =>
    simp only [takes, Suffixes.oneThen, Bool.and_eq_true, beq_iff_eq, List.cons.injEq]
    constructor
    · rintro ⟨taken, rfl⟩
      exact ⟨s, ⟨rfl, rfl⟩, taken⟩
    · rintro ⟨later, ⟨rfl, rfl⟩, taken⟩
      exact ⟨taken, rfl⟩

theorem takes_run_iff {stop : Char} {rest : Glob} {s : List Char} :
    takes (.run stop :: rest) s = true ↔
      ∃ run later, s = run ++ later ∧ (∀ x ∈ run, x ≠ stop) ∧ takes rest later = true := by
  simp only [takes, Suffixes.manyThen_eq_true_iff, bne_iff_ne]

/-- The pieces of a glob take a part that it stands for, and what follows them
takes what is left. -/
theorem takes_stars_iff {stop : Char} {glob : List Char} {rest : Glob} {s : List Char} :
    takes (glob.map (starPiece stop) ++ rest) s = true ↔
      ∃ part later, s = part ++ later ∧ StarMatch (· ≠ stop) glob part ∧
        takes rest later = true := by
  induction glob generalizing s with
  | nil =>
    constructor
    · intro taken
      exact ⟨[], s, rfl, .nil, taken⟩
    · rintro ⟨part, later, rfl, matched, taken⟩
      cases matched
      exact taken
  | cons c glob ih =>
    by_cases star : c = '*'
    · subst star
      simp only [List.map_cons, List.cons_append, starPiece, if_true, takes_run_iff]
      constructor
      · rintro ⟨run, later, rfl, allowed, taken⟩
        obtain ⟨part, later, rfl, matched, taken⟩ := ih.1 taken
        exact ⟨run ++ part, later, (List.append_assoc ..).symm, .star allowed matched, taken⟩
      · rintro ⟨part, later, rfl, matched, taken⟩
        cases matched with
        | char plain => exact absurd rfl plain
        | @star run _ text allowed matched =>
          have left := ih.2 ⟨text, later, rfl, matched, taken⟩
          exact ⟨run, text ++ later, List.append_assoc .., allowed, left⟩
    · simp only [List.map_cons, List.cons_append, starPiece, if_neg star, takes_char_iff]
      constructor
      · rintro ⟨later, rfl, taken⟩
        obtain ⟨part, later, rfl, matched, taken⟩ := ih.1 taken
        exact ⟨c :: part, later, rfl, .char star matched, taken⟩
      · rintro ⟨part, later, rfl, matched, taken⟩
        cases matched with
        | star => exact absurd rfl star
        | @char _ _ text _ matched =>
          exact ⟨text ++ later, rfl, ih.2 ⟨text, later, rfl, matched, taken⟩⟩

/-- A glob of stars and characters takes the texts that it stands for. -/
theorem takes_map_starPiece_iff {stop : Char} {glob s : List Char} :
    takes (glob.map (starPiece stop)) s = true ↔ StarMatch (· ≠ stop) glob s := by
  rw [← List.append_nil (glob.map (starPiece stop)), takes_stars_iff]
  constructor
  · rintro ⟨part, later, rfl, matched, taken⟩
    rw [takes_nil_iff.1 taken, List.append_nil]
    exact matched
  · intro matched
    exact ⟨s, [], (List.append_nil s).symm, matched, rfl⟩

end Glob

end ClassPolicy
