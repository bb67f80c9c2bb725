import ClassPolicy.Pattern.Suffixes

/-!
# Globs

The compiled form of a type or member name pattern: characters that stand for
themselves, runs of any characters but one, and runs of whole packages. A glob
matches a name when its pieces take the name from end to end.
-/

set_option autoImplicit false

namespace ClassPolicy

inductive Piece
  | char (c : Char)
  /-- Any run of characters other than `stop`. -/
  | run (stop : Char)
  /-- Any number of non-empty segments, each with the dot after it. -/
  | packages
deriving DecidableEq, Repr

abbrev Glob := List Piece

namespace Glob

/-- For each suffix: whether some packages and then the rest take it, and
whether they do so from within a segment already begun. -/
def packageTable : List Char → List Bool → List (Bool × Bool)
  | c :: s, b :: later =>
    let rest := packageTable s later
    let next := rest.headD (false, false)
    if c = '.' then (b, next.1) :: rest else (b || next.2, next.2) :: rest
  | _, table => [(table.headD false, false)]

def extend : Piece → List Char → List Bool → List Bool
  | .char c, s, table => Suffixes.one (· == c) s table
  | .run stop, s, table => Suffixes.many (· != stop) s table
  | .packages, s, table => (packageTable s table).map (·.1)

def table (s : List Char) : Glob → List Bool
  | [] => Suffixes.atEnd s
  | piece :: rest => extend piece s (table s rest)

/-- The characters that a glob begins with are compared one by one; a table
is made for what follows them. -/
def matchesChars : Glob → List Char → Bool
  | .char c :: rest, x :: s => x == c && matchesChars rest s
  | g, s => (table s g).headD false

def matchesText (g : Glob) (s : String) : Bool := matchesChars g s.toList

mutual

/-- Some packages, then whatever `k` takes. -/
def packagesThen (k : List Char → Bool) : List Char → Bool
  | [] => k []
  | c :: s => k (c :: s) || (c != '.' && segmentThen k s)

/-- The rest of a segment and its dot, some packages, then what `k` takes. -/
def segmentThen (k : List Char → Bool) : List Char → Bool
  | [] => false
  | c :: s => if c = '.' then packagesThen k s else segmentThen k s

end

/-- What a glob takes, read off its pieces one after the other. -/
def takes : Glob → List Char → Bool
  | [] => List.isEmpty
  | .char c :: rest => Suffixes.oneThen (· == c) (takes rest)
  | .run stop :: rest => Suffixes.manyThen (· != stop) (takes rest)
  | .packages :: rest => packagesThen (takes rest)

theorem packageTable_tabulate (k : List Char → Bool) (s : List Char) :
    (packageTable s (Suffixes.tabulate k s)).map (·.1) = Suffixes.tabulate (packagesThen k) s ∧
      (packageTable s (Suffixes.tabulate k s)).headD (false, false) =
        (packagesThen k s, segmentThen k s) := by
  induction s with
  | nil => simp [packageTable, Suffixes.tabulate, packagesThen, segmentThen]
  | cons c s ih =>
    obtain ⟨hmap, hhead⟩ := ih
    rw [List.headD_eq_head?_getD] at hhead
    by_cases h : c = '.'
    · simp [packageTable, Suffixes.tabulate, packagesThen, segmentThen, h, hmap, hhead]
    · simp [packageTable, Suffixes.tabulate, packagesThen, segmentThen, h, hmap, hhead, bne,
        beq_false_of_ne h]

theorem table_eq_tabulate (g : Glob) (s : List Char) :
    table s g = Suffixes.tabulate (takes g) s := by
  induction g with
  | nil => exact Suffixes.atEnd_eq s
  | cons piece rest ih =>
    cases piece with
    | char c => simp only [table, extend, ih, Suffixes.one_tabulate, takes]
    | run stop => simp only [table, extend, ih, Suffixes.many_tabulate, takes]
    | packages => simp only [table, extend, ih, (packageTable_tabulate _ s).1, takes]

/-- Comparing and the table answer as the pieces do. -/
theorem matchesChars_eq_takes (g : Glob) (s : List Char) : matchesChars g s = takes g s := by
  fun_induction matchesChars g s with
  | case1 c rest x s ih => simp only [ih, takes, Suffixes.oneThen, Bool.and_comm]
  | case2 g s => rw [table_eq_tabulate, Suffixes.headD_tabulate]

end Glob

end ClassPolicy
