import ClassPolicy.Proofs.Spelling
import ClassPolicy.Proofs.TypePatternMeaning

/-!
# Type patterns over names in either spelling

A type pattern is compared with a dotted name, and nothing turns a name in
slash form into one. A bare star, and one name without packages and stars, are
blind to the spelling. Any other pattern tells some dotted name from its slash
form, since a dot in it takes no slash, its stars take slashes and no dots, and
its packages end in dots.
-/

set_option autoImplicit false

namespace ClassPolicy

/-! ### The slash form -/

/-- A dot becomes a slash. -/
def slashed (c : Char) : Char := if c = '.' then '/' else c

def slashedText (text : String) : String := text.map slashed

@[simp] theorem toList_slashedText (text : String) :
    (slashedText text).toList = text.toList.map slashed :=
  String.toList_map

@[simp] theorem dotted_slashed (c : Char) : dotted (slashed c) = dotted c := by
  unfold slashed
  split
  · rename_i dot
    rw [dot]
    decide
  · rfl

theorem slashed_ne_dot (c : Char) : slashed c ≠ '.' := by
  unfold slashed
  split
  · decide
  · assumption

theorem dot_not_mem_map_slashed (s : List Char) : '.' ∉ s.map slashed := by
  simp [slashed_ne_dot]

@[simp] theorem dottedText_slashedText (text : String) :
    dottedText (slashedText text) = dottedText text :=
  String.toList_injective (by simp [Function.comp_def])

/-- A change that leaves each character of a text leaves the text. -/
theorem map_of_unchanged {change : Char → Char} {s : List Char} (unchanged : ∀ c ∈ s, change c = c) :
    s.map change = s :=
  (List.map_congr_left unchanged).trans (List.map_id s)

theorem map_dotted_of_slashless {s : List Char} (slashless : '/' ∉ s) : s.map dotted = s :=
  map_of_unchanged fun _ member => if_neg (ne_of_mem_of_not_mem member slashless)

theorem map_slashed_of_dotless {s : List Char} (dotless : '.' ∉ s) : s.map slashed = s :=
  map_of_unchanged fun _ member => if_neg (ne_of_mem_of_not_mem member dotless)

/-- A name with neither dots nor slashes has one spelling. -/
theorem map_dotted_eq_iff {text s : List Char} (dot : '.' ∉ text) (slash : '/' ∉ text) :
    s.map dotted = text ↔ s = text := by
  constructor
  · intro spelled
    have none : '/' ∉ s := by
      intro member
      refine dot ?_
      rw [← spelled]
      exact List.mem_map_of_mem (f := dotted) member
    rwa [map_dotted_of_slashless none] at spelled
  · rintro rfl
    exact map_dotted_of_slashless slash

/-! ### Names that a glob takes -/

namespace Glob

/-- What a glob takes when nothing is put for its stars and packages. -/
def sample (g : Glob) : List Char :=
  g.filterMap fun
    | .char c => some c
    | _ => none

theorem takes_sample (g : Glob) : takes g g.sample = true := by
  induction g with
  | nil => rfl
  | cons piece rest ih =>
    cases piece with
    | char c => exact takes_char_iff.2 ⟨_, rfl, ih⟩
    | run stop => exact takes_run_iff.2 ⟨[], _, rfl, List.forall_mem_nil _, ih⟩
    | packages => exact SegmentGlob.packagesThen_iff.2 (.inl ih)

theorem mem_sample {g : Glob} {c : Char} : c ∈ g.sample ↔ .char c ∈ g := by
  simp only [sample, List.mem_filterMap]
  constructor
  · rintro ⟨piece, member, found⟩
    cases piece with
    | char c' =>
      cases found
      exact member
    | _ => cases found
  · exact fun member => ⟨.char c, member, rfl⟩

/-- The characters of a glob are in all that it takes. -/
theorem mem_of_takes {g : Glob} {c : Char} (member : .char c ∈ g) {s : List Char}
    (taken : takes g s = true) : c ∈ s := by
  induction g generalizing s with
  | nil => cases member
  | cons piece rest ih =>
    cases piece with
    | char c' =>
      obtain ⟨later, rfl, rest⟩ := takes_char_iff.1 taken
      rcases List.mem_cons.1 member with here | there
      · cases here
        exact List.mem_cons_self
      · exact List.mem_cons_of_mem _ (ih there rest)
    | run stop =>
      obtain ⟨run, later, rfl, -, rest⟩ := takes_run_iff.1 taken
      exact List.mem_append_right _ (ih (by simpa using member) rest)
    | packages =>
      obtain ⟨passed, later, rfl, -, -, rest⟩ := SegmentGlob.takes_packages_iff.1 taken
      exact List.mem_append_right _ (ih (by simpa using member) rest)

theorem takes_map_char_iff {text s : List Char} :
    takes (text.map Piece.char) s = true ↔ s = text := by
  induction text generalizing s with
  | nil => exact takes_nil_iff
  | cons c text ih => simp [takes_char_iff, ih]

end Glob

namespace TypePattern

/-- A bare star, or one name without packages. -/
def SpellingBlind (p : TypePattern) : Prop :=
  p.glob = [.run '\n'] ∨ ∃ text : List Char, p.glob = text.map .char ∧ '.' ∉ text ∧ '/' ∉ text

theorem matchesName_iff_takes (p : TypePattern) (name : String) :
    p.matchesName name = true ↔ Glob.takes p.glob name.toList = true := by
  rw [matchesName, Glob.matchesText, Glob.matchesChars_eq_takes]

theorem matchesName_sample (p : TypePattern) :
    p.matchesName (String.ofList p.glob.sample) = true := by
  rw [matchesName_iff_takes, String.toList_ofList]
  exact p.glob.takes_sample

theorem SpellingBlind.matchesName_dottedText {p : TypePattern} (blind : p.SpellingBlind)
    (name : String) : p.matchesName (dottedText name) = p.matchesName name := by
  rw [Bool.eq_iff_iff]
  rcases blind with star | ⟨text, glob, dot, slash⟩
  · rw [matchesName_star_iff star, matchesName_star_iff star, toList_dottedText]
    simp [dotted_eq_iff]
  · rw [matchesName_iff_takes, matchesName_iff_takes, glob, Glob.takes_map_char_iff,
      Glob.takes_map_char_iff, toList_dottedText, map_dotted_eq_iff dot slash]

end TypePattern

/-! ### Names that are told apart -/

namespace Glob

/-- The glob takes one of a dotted name and its slash form, and not the other. -/
def TellsApart (g : Glob) : Prop := ∃ s, '/' ∉ s ∧ takes g (s.map slashed) ≠ takes g s

/-- A glob with a dot takes no slash form at all. -/
theorem tellsApart_of_dot {g : Glob} (dot : .char '.' ∈ g) (slash : .char '/' ∉ g) :
    g.TellsApart := by
  refine ⟨g.sample, mt mem_sample.1 slash, ?_⟩
  rw [takes_sample]
  exact fun taken => dot_not_mem_map_slashed _ (mem_of_takes dot taken)

end Glob

namespace SegmentGlob

open Glob (starPiece TellsApart)

variable {text : List Char}

/-- The characters of a glob for one segment, its stars left out. -/
def plain (text : List Char) : List Char := text.filter (· ≠ '*')

theorem plain_sublist (text : List Char) : (plain text).Sublist text := List.filter_sublist

theorem starMatch_plain (free : Char → Prop) (text : List Char) :
    StarMatch free text (plain text) := by
  induction text with
  | nil => exact .nil
  | cons c text ih =>
    by_cases star : c = '*'
    · subst star
      exact .star (List.forall_mem_nil _) ih
    · have kept : plain (c :: text) = c :: plain text := by simp [plain, star]
      rw [kept]
      exact .char star ih

theorem length_plain_le {free : Char → Prop} {s : List Char} (matched : StarMatch free text s) :
    (plain text).length ≤ s.length := by
  induction matched with
  | nil => exact Nat.le_refl _
  | @char c text s other rest ih =>
    have kept : plain (c :: text) = c :: plain text := by simp [plain, other]
    rw [kept]
    exact Nat.succ_le_succ ih
  | @star run text s allowed rest ih =>
    have left : plain ('*' :: text) = plain text := by simp [plain]
    rw [left, List.length_append]
    exact Nat.le_add_left_of_le ih

/-- A segment and its dot leave too few characters for the glob. -/
theorem not_takes_of_short {gap : Bool} (dotless : '.' ∉ text) {s : List Char} (dot : '.' ∈ s)
    (short : s.length ≤ (plain text).length + 1) :
    ¬ Glob.takes (gapPieces gap ++ text.map (starPiece '.')) s = true := by
  intro taken
  obtain ⟨passed, later, rfl, -, full, -, left⟩ := takes_gapPieces_iff.1 taken
  rw [Glob.takes_map_starPiece_iff] at left
  cases passed with
  | nil => exact left.not_mem dotless dot
  | cons segment passed =>
    have least := length_plain_le left
    have filled : segment.length ≠ 0 := by
      intro none
      exact full (by simp [List.length_eq_zero_iff.1 none])
    simp only [dotAfter, List.flatMap_cons, List.length_append, List.length_cons,
      List.length_nil] at short
    omega

/-- A star takes a slash, and it takes no dot. -/
theorem tellsApart_of_star (gap : Bool) (dotless : '.' ∉ text) (slashless : '/' ∉ text)
    (star : '*' ∈ text) : TellsApart (gapPieces gap ++ text.map (starPiece '.')) := by
  obtain ⟨before, after, rfl⟩ := List.append_of_mem star
  have whole : plain (before ++ '*' :: after) = plain before ++ plain after := by simp [plain]
  have subset : plain before ++ plain after ⊆ before ++ '*' :: after := by
    rw [← whole]
    exact (plain_sublist _).subset
  refine ⟨plain before ++ '.' :: plain after, ?_, fun same => ?_⟩
  · intro member
    refine slashless (subset ?_)
    simpa using member
  · have matched : StarMatch (· ≠ '.') (before ++ '*' :: after)
        (plain before ++ (['/'] ++ plain after)) :=
      (starMatch_plain _ before).append (.star (by simp) (starMatch_plain _ after))
    have spelled : (plain before ++ '.' :: plain after).map slashed =
        plain before ++ (['/'] ++ plain after) := by
      have inBefore : '.' ∉ plain before := fun member =>
        dotless (subset (List.mem_append_left _ member))
      have inAfter : '.' ∉ plain after := fun member =>
        dotless (subset (List.mem_append_right _ member))
      rw [List.map_append, List.map_cons, map_slashed_of_dotless inBefore,
        map_slashed_of_dotless inAfter]
      rfl
    have taken : Glob.takes (gapPieces gap ++ (before ++ '*' :: after).map (starPiece '.'))
        (plain before ++ (['/'] ++ plain after)) = true :=
      takes_gapPieces_iff.2 ⟨[], _, rfl, fun filled => absurd rfl filled, List.not_mem_nil,
        List.forall_mem_nil _, Glob.takes_map_starPiece_iff.2 matched⟩
    rw [spelled, taken] at same
    refine not_takes_of_short dotless (by simp) ?_ same.symm
    simp [whole]
    omega

/-- Without stars a glob takes one segment only, and packages take more. -/
theorem tellsApart_of_gap (filled : text ≠ []) (dotless : '.' ∉ text) (slashless : '/' ∉ text) :
    TellsApart (.packages :: text.map .char) := by
  refine ⟨text ++ '.' :: text, by simp [slashless], fun same => ?_⟩
  have taken : Glob.takes (.packages :: text.map .char) (text ++ '.' :: text) = true := by
    refine takes_packages_iff.2 ⟨[text], text, by simp [dotAfter], ?_, ?_, ?_⟩
    · simpa using filled.symm
    · simpa using dotless
    · exact Glob.takes_map_char_iff.2 rfl
  rw [taken] at same
  obtain ⟨passed, later, spelled, -, -, left⟩ := takes_packages_iff.1 same
  cases passed with
  | nil =>
    have lengths := congrArg List.length spelled
    simp [dotAfter, Glob.takes_map_char_iff.1 left] at lengths
  | cons segment passed =>
    refine dot_not_mem_map_slashed (text ++ '.' :: text) ?_
    rw [spelled]
    simp [dotAfter]

theorem globOf_written {g : SegmentGlob} {rest : List SegmentGlob}
    (several : written (g :: rest) ≠ ['*']) :
    TypePattern.globOf (written (g :: rest)) = gapPieces g.gap ++
      (g.text.map (starPiece '.') ++ TypePattern.pieces (continued rest)) := by
  have both := (dot_cons_globOf several).trans (pieces_continued g rest)
  exact (List.cons.inj both).2

theorem map_starPiece_of_starless (starless : '*' ∉ text) :
    text.map (starPiece '.') = text.map .char :=
  List.map_congr_left fun c member => if_neg fun same : c = '*' => starless (same ▸ member)

end SegmentGlob

namespace TypePattern

/-- The characters of a glob stand in the text that it is made of. -/
theorem char_mem_pieces {c : Char} {s : List Char} (member : .char c ∈ pieces s) : c ∈ s := by
  fun_induction pieces s with
  | case1 rest ih =>
    have places : c = '.' ∨ .char c ∈ pieces rest := by simpa using member
    rcases places with rfl | later
    · exact List.mem_cons_self
    · exact List.mem_cons_of_mem _ (List.mem_cons_of_mem _ (ih later))
  | case2 rest ih =>
    have later : .char c ∈ pieces rest := by simpa using member
    exact List.mem_cons_of_mem _ (ih later)
  | case3 c' rest _ _ ih =>
    have places : c = c' ∨ .char c ∈ pieces rest := by simpa using member
    rcases places with rfl | later
    · exact List.mem_cons_self
    · exact List.mem_cons_of_mem _ (ih later)
  | case4 => cases member

theorem char_mem_globOf {c : Char} {body : List Char} (member : .char c ∈ globOf body) :
    c ∈ body := by
  unfold globOf at member
  split at member
  · cases List.mem_singleton.1 member
  · rename_i rest
    have later : .char c ∈ pieces rest := by simpa using member
    exact List.mem_cons_of_mem _ (List.mem_cons_of_mem _ (char_mem_pieces later))
  · exact char_mem_pieces member

theorem slash_not_mem_body (pattern : String) : '/' ∉ body pattern := by
  intro member
  obtain ⟨c, -, same⟩ := List.mem_map.1 member
  exact dotted_ne_slash c same

variable {pattern : String} {p : TypePattern}

/-- A pattern that is not blind tells some dotted name from its slash form. -/
theorem tellsApart_of_sighted (accepted : compile pattern = .ok p) (sighted : ¬p.SpellingBlind) :
    p.glob.TellsApart := by
  obtain ⟨faultless, rfl⟩ := eq_of_compile accepted
  obtain ⟨filled, sound⟩ := sound_of_fault?_eq_none faultless
  obtain ⟨globs, spelled⟩ := SegmentGlob.exists_written filled sound
  have slash : .char '/' ∉ globOf (body pattern) := fun member =>
    slash_not_mem_body pattern (char_mem_globOf member)
  have several : SegmentGlob.written globs ≠ ['*'] := by
    intro star
    rw [spelled] at star
    exact sighted (.inl (by rw [star]; rfl))
  rw [← spelled] at filled slash sighted ⊢
  cases globs with
  | nil => exact absurd rfl filled
  | cons g rest =>
    have glob := SegmentGlob.globOf_written several
    cases rest with
    | cons next rest =>
      refine Glob.tellsApart_of_dot ?_ slash
      rw [glob, SegmentGlob.pieces_continued]
      simp
    | nil =>
      have single : globOf (SegmentGlob.written [g]) =
          SegmentGlob.gapPieces g.gap ++ g.text.map (Glob.starPiece '.') := by
        rw [glob]
        simp [SegmentGlob.continued, pieces]
      have slashless : '/' ∉ g.text := by
        intro member
        refine slash ?_
        rw [single]
        exact List.mem_append_right _ (List.mem_map_of_mem (f := Glob.starPiece '.') member)
      simp only [SpellingBlind, single] at sighted ⊢
      by_cases star : '*' ∈ g.text
      · exact SegmentGlob.tellsApart_of_star g.gap g.dotless slashless star
      · rw [SegmentGlob.map_starPiece_of_starless star] at sighted ⊢
        cases gap : g.gap with
        | true => exact SegmentGlob.tellsApart_of_gap g.nonempty g.dotless slashless
        | false =>
          rw [gap] at sighted
          exact absurd (.inr ⟨g.text, rfl, g.dotless, slashless⟩) sighted

/-- The patterns that are blind are just those that answer alike for every
dotted name and its slash form. -/
theorem spellingBlind_iff (accepted : compile pattern = .ok p) :
    p.SpellingBlind ↔ ∀ name : String, '/' ∉ name.toList →
      p.matchesName (slashedText name) = p.matchesName name := by
  constructor
  · intro blind name _
    rw [← blind.matchesName_dottedText, dottedText_slashedText, blind.matchesName_dottedText]
  · intro same
    by_contra sighted
    obtain ⟨s, slashless, apart⟩ := tellsApart_of_sighted accepted sighted
    refine apart ?_
    have answer := same (String.ofList s) (by simpa using slashless)
    simpa [matchesName, Glob.matchesText, Glob.matchesChars_eq_takes] using answer

theorem exists_respelled_apart (accepted : compile pattern = .ok p)
    (sighted : ¬p.SpellingBlind) :
    ∃ name : String, '/' ∉ name.toList ∧ p.matchesName (slashedText name) ≠ p.matchesName name := by
  simpa only [not_forall, exists_prop] using mt (spellingBlind_iff accepted).2 sighted

end TypePattern

end ClassPolicy
