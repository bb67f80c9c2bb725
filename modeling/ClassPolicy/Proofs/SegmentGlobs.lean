import ClassPolicy.Pattern.TypePattern
import ClassPolicy.Proofs.Stars
import ClassPolicy.Proofs.Words

/-!
# Globs for segments

A name is split at its dots into segments, and the body of a type pattern is
written as globs for single segments. The pieces of a body take a name when its
globs take the segments one after the other, where only segments before a `..`
are passed over and none of them is empty.
-/

set_option autoImplicit false

namespace ClassPolicy

/-- A glob for one segment of a name. -/
structure SegmentGlob where
  /-- Whether segments may be passed over before it. -/
  gap : Bool
  text : List Char
  nonempty : text ≠ []
  dotless : '.' ∉ text

namespace SegmentGlob

def dots (g : SegmentGlob) : List Char := if g.gap then ['.', '.'] else ['.']

/-- Globs that go on a pattern. -/
def continued (globs : List SegmentGlob) : List Char := globs.flatMap (fun g => g.dots ++ g.text)

/-- Globs that are a whole pattern: the first one has two dots before it or
none. -/
def written : List SegmentGlob → List Char
  | [] => []
  | g :: rest => (if g.gap then ['.', '.'] else []) ++ g.text ++ continued rest

/-- The globs take the segments one after the other. -/
inductive Takes : List SegmentGlob → List (List Char) → Prop
  | nil : Takes [] []
  | cons {g : SegmentGlob} {rest : List SegmentGlob} {passed segments : List (List Char)}
      {segment : List Char} (allowed : passed ≠ [] → g.gap = true) (full : [] ∉ passed)
      (matched : StarMatch (· ≠ '.') g.text segment) (later : Takes rest segments) :
      Takes (g :: rest) (passed ++ segment :: segments)

/-! ### What the pieces take -/

/-- A dot before each segment. -/
def dotBefore (segments : List (List Char)) : List Char := segments.flatMap ('.' :: ·)

/-- A dot after each segment. -/
def dotAfter (segments : List (List Char)) : List Char := segments.flatMap (· ++ ['.'])

theorem dot_cons_dotAfter (segments : List (List Char)) (s : List Char) :
    '.' :: (dotAfter segments ++ s) = dotBefore segments ++ '.' :: s := by
  induction segments with
  | nil => rfl
  | cons segment rest ih =>
    simp only [dotAfter, dotBefore, List.flatMap_cons, List.append_assoc, List.cons_append,
      List.nil_append] at ih ⊢
    rw [ih]

theorem dotBefore_eq_cons {segments : List (List Char)} (filled : segments ≠ []) :
    dotBefore segments = '.' :: ['.'].intercalate segments := by
  induction segments with
  | nil => exact absurd rfl filled
  | cons segment rest ih =>
    cases rest with
    | nil => simp [dotBefore]
    | cons next rest =>
      have later := ih (List.cons_ne_nil _ _)
      simp only [dotBefore] at later ⊢
      rw [List.flatMap_cons, later, List.intercalate_cons_cons]
      simp

theorem dotBefore_splitOn (s : List Char) : dotBefore (s.splitOn '.') = '.' :: s := by
  rw [dotBefore_eq_cons (List.splitOn_ne_nil _ _), List.intercalate_splitOn]

theorem splitOn_of_dotBefore {segments : List (List Char)} {s : List Char}
    (dotless : ∀ segment ∈ segments, '.' ∉ segment) (spelled : '.' :: s = dotBefore segments) :
    s.splitOn '.' = segments := by
  have filled : segments ≠ [] := by
    rintro rfl
    cases spelled
  rw [dotBefore_eq_cons filled, List.cons.injEq] at spelled
  rw [spelled.2]
  exact List.splitOn_intercalate '.' dotless filled

theorem segmentThen_iff {k : List Char → Bool} {s : List Char} :
    Glob.segmentThen k s = true ↔
      ∃ segment later, s = segment ++ '.' :: later ∧ '.' ∉ segment ∧
        Glob.packagesThen k later = true := by
  induction s with
  | nil => simp [Glob.segmentThen]
  | cons c s ih =>
    rw [Glob.segmentThen]
    by_cases dot : c = '.'
    · subst dot
      rw [if_pos rfl]
      constructor
      · exact fun taken => ⟨[], s, rfl, List.not_mem_nil, taken⟩
      · rintro ⟨segment, later, spelled, dotless, taken⟩
        cases segment with
        | nil =>
          cases spelled
          exact taken
        | cons x segment =>
          cases spelled
          exact absurd List.mem_cons_self dotless
    · rw [if_neg dot, ih]
      constructor
      · rintro ⟨segment, later, rfl, dotless, taken⟩
        refine ⟨c :: segment, later, rfl, ?_, taken⟩
        rw [List.mem_cons, not_or]
        exact ⟨fun same => dot same.symm, dotless⟩
      · rintro ⟨segment, later, spelled, dotless, taken⟩
        cases segment with
        | nil =>
          cases spelled
          exact absurd rfl dot
        | cons x segment =>
          cases spelled
          exact ⟨segment, later, rfl, fun member => dotless (List.mem_cons_of_mem _ member), taken⟩

/-- Packages stop here, or one of them comes first. -/
theorem packagesThen_iff {k : List Char → Bool} {s : List Char} :
    Glob.packagesThen k s = true ↔
      k s = true ∨ ∃ segment later, s = segment ++ '.' :: later ∧ segment ≠ [] ∧
        '.' ∉ segment ∧ Glob.packagesThen k later = true := by
  cases s with
  | nil => simp [Glob.packagesThen]
  | cons c s =>
    simp only [Glob.packagesThen, Bool.or_eq_true, Bool.and_eq_true, bne_iff_ne]
    refine or_congr_right ?_
    rw [segmentThen_iff]
    constructor
    · rintro ⟨plain, segment, later, rfl, dotless, taken⟩
      refine ⟨c :: segment, later, rfl, List.cons_ne_nil _ _, ?_, taken⟩
      rw [List.mem_cons, not_or]
      exact ⟨fun same => plain same.symm, dotless⟩
    · rintro ⟨segment, later, spelled, filled, dotless, taken⟩
      cases segment with
      | nil => exact absurd rfl filled
      | cons x segment =>
        cases spelled
        rw [List.mem_cons, not_or] at dotless
        exact ⟨fun same => dotless.1 same.symm, segment, later, rfl, dotless.2, taken⟩

theorem takes_packages_iff {rest : Glob} {s : List Char} :
    Glob.takes (.packages :: rest) s = true ↔
      ∃ passed later, s = dotAfter passed ++ later ∧ [] ∉ passed ∧
        (∀ segment ∈ passed, '.' ∉ segment) ∧ Glob.takes rest later = true := by
  rw [Glob.takes]
  constructor
  · intro taken
    induction size : s.length using Nat.strongRecOn generalizing s with
    | _ n ih =>
      subst size
      rcases packagesThen_iff.1 taken with taken | ⟨segment, later, rfl, filled, dotless, taken⟩
      · exact ⟨[], s, rfl, List.not_mem_nil, List.forall_mem_nil _, taken⟩
      · obtain ⟨passed, later, rfl, full, dotless', taken⟩ :=
          ih later.length (by simp; omega) taken rfl
        refine ⟨segment :: passed, later, by simp [dotAfter], ?_, ?_, taken⟩
        · rw [List.mem_cons, not_or]
          exact ⟨fun none => filled none.symm, full⟩
        · simpa using ⟨dotless, dotless'⟩
  · rintro ⟨passed, later, rfl, full, dotless, taken⟩
    induction passed with
    | nil => exact packagesThen_iff.2 (.inl taken)
    | cons segment passed ih =>
      rw [List.mem_cons, not_or] at full
      rw [List.forall_mem_cons] at dotless
      refine packagesThen_iff.2 (.inr ⟨segment, dotAfter passed ++ later, by simp [dotAfter],
        fun none => full.1 none.symm, dotless.1, ih full.2 dotless.2⟩)

/-- The pieces for a place where segments may or may not be passed over. -/
def gapPieces (gap : Bool) : Glob := if gap then [.packages] else []

theorem takes_gapPieces_iff {gap : Bool} {rest : Glob} {s : List Char} :
    Glob.takes (gapPieces gap ++ rest) s = true ↔
      ∃ passed later, s = dotAfter passed ++ later ∧ (passed ≠ [] → gap = true) ∧
        [] ∉ passed ∧ (∀ segment ∈ passed, '.' ∉ segment) ∧ Glob.takes rest later = true := by
  cases gap with
  | true =>
    refine takes_packages_iff.trans ?_
    simp
  | false =>
    constructor
    · intro taken
      refine ⟨[], s, rfl, fun filled => absurd rfl filled, List.not_mem_nil, ?_, taken⟩
      exact List.forall_mem_nil _
    · rintro ⟨passed, later, rfl, allowed, -, -, taken⟩
      cases passed with
      | nil => exact taken
      | cons segment passed => cases allowed (List.cons_ne_nil _ _)

theorem pieces_dotless_append {text : List Char} (dotless : '.' ∉ text) (rest : List Char) :
    TypePattern.pieces (text ++ rest) =
      text.map (Glob.starPiece '.') ++ TypePattern.pieces rest := by
  induction text with
  | nil => rfl
  | cons c text ih =>
    rw [List.mem_cons, not_or] at dotless
    have later := ih dotless.2
    by_cases star : c = '*'
    · subst star
      simp [TypePattern.pieces, Glob.starPiece, later]
    · have plain : c ≠ '.' := fun same => dotless.1 same.symm
      rw [List.cons_append, TypePattern.pieces]
      · simp [Glob.starPiece, star, later]
      · intro _ same
        exact absurd same plain
      · exact star

theorem exists_text_eq_cons (g : SegmentGlob) : ∃ c text, g.text = c :: text ∧ c ≠ '.' := by
  obtain ⟨c, text, spelled⟩ := List.exists_cons_of_ne_nil g.nonempty
  refine ⟨c, text, spelled, ?_⟩
  rintro rfl
  exact g.dotless (by rw [spelled]; exact List.mem_cons_self)

theorem pieces_continued (g : SegmentGlob) (rest : List SegmentGlob) :
    TypePattern.pieces (continued (g :: rest)) =
      .char '.' :: (gapPieces g.gap ++
        (g.text.map (Glob.starPiece '.') ++ TypePattern.pieces (continued rest))) := by
  rw [← pieces_dotless_append g.dotless]
  obtain ⟨c, text, spelled, plain⟩ := g.exists_text_eq_cons
  cases gap : g.gap with
  | true => simp [continued, dots, gap, gapPieces, TypePattern.pieces]
  | false =>
    simp only [continued, List.flatMap_cons, dots, gap, gapPieces, spelled]
    simp [TypePattern.pieces, plain]

theorem takes_continued_iff (globs : List SegmentGlob) (s : List Char) :
    Glob.takes (TypePattern.pieces (continued globs)) s = true ↔
      ∃ segments, (∀ segment ∈ segments, '.' ∉ segment) ∧ Takes globs segments ∧
        s = dotBefore segments := by
  induction globs generalizing s with
  | nil =>
    constructor
    · intro taken
      exact ⟨[], nofun, .nil, Glob.takes_nil_iff.1 taken⟩
    · rintro ⟨segments, -, takes, rfl⟩
      cases takes
      rfl
  | cons g rest ih =>
    rw [pieces_continued, Glob.takes_char_iff]
    constructor
    · rintro ⟨_, rfl, taken⟩
      obtain ⟨passed, _, rfl, allowed, full, dotless, taken⟩ := takes_gapPieces_iff.1 taken
      obtain ⟨segment, later, rfl, matched, taken⟩ := Glob.takes_stars_iff.1 taken
      obtain ⟨segments, dotless', takes, rfl⟩ := (ih later).1 taken
      refine ⟨passed ++ segment :: segments, ?_, .cons allowed full matched takes, ?_⟩
      · have here := matched.not_mem g.dotless
        simp only [List.mem_append, List.mem_cons]
        rintro other (member | rfl | member)
        · exact dotless other member
        · exact here
        · exact dotless' other member
      · rw [dot_cons_dotAfter]
        simp [dotBefore]
    · rintro ⟨_, dotless, takes, rfl⟩
      cases takes with
      | @cons _ _ passed segments segment allowed full matched later =>
        simp only [List.mem_append, List.mem_cons] at dotless
        have taken := (ih (dotBefore segments)).2
          ⟨segments, fun other member => dotless other (.inr (.inr member)), later, rfl⟩
        refine ⟨dotAfter passed ++ (segment ++ dotBefore segments), ?_, ?_⟩
        · rw [dot_cons_dotAfter]
          simp [dotBefore]
        · refine takes_gapPieces_iff.2 ⟨passed, _, rfl, allowed, full,
            fun other member => dotless other (.inl member), ?_⟩
          exact Glob.takes_stars_iff.2 ⟨segment, _, rfl, matched, taken⟩

/-! ### How bodies are written -/

theorem written_of_gap {g : SegmentGlob} (gap : g.gap = true) (rest : List SegmentGlob) :
    written (g :: rest) = continued (g :: rest) := by
  simp [written, continued, dots, gap]

theorem continued_of_flat {g : SegmentGlob} (flat : g.gap = false) (rest : List SegmentGlob) :
    continued (g :: rest) = '.' :: written (g :: rest) := by
  simp [written, continued, dots, flat]

/-- With a dot before it, a pattern of several pieces is read as what follows
another glob. -/
theorem dot_cons_globOf {g : SegmentGlob} {rest : List SegmentGlob}
    (several : written (g :: rest) ≠ ['*']) :
    .char '.' :: TypePattern.globOf (written (g :: rest)) =
      TypePattern.pieces (continued (g :: rest)) := by
  cases gap : g.gap with
  | true =>
    rw [written_of_gap gap]
    simp [continued, dots, gap, TypePattern.globOf, TypePattern.pieces]
  | false =>
    obtain ⟨c, text, spelled, plain⟩ := g.exists_text_eq_cons
    have start : written (g :: rest) = c :: (text ++ continued rest) := by
      simp [written, gap, spelled]
    rw [continued_of_flat gap]
    rw [start] at several ⊢
    have whole : TypePattern.globOf (c :: (text ++ continued rest)) =
        TypePattern.pieces (c :: (text ++ continued rest)) := by
      unfold TypePattern.globOf
      split
      · rename_i single
        exact absurd single several
      · rename_i double
        rw [List.cons.injEq] at double
        exact absurd double.1 plain
      · rfl
    rw [whole]
    simp [TypePattern.pieces, plain]

theorem matchesChars_written_iff {globs : List SegmentGlob} (filled : globs ≠ [])
    (several : written globs ≠ ['*']) (s : List Char) :
    Glob.matchesChars (TypePattern.globOf (written globs)) s = true ↔
      Takes globs (s.splitOn '.') := by
  obtain ⟨g, rest, rfl⟩ := List.exists_cons_of_ne_nil filled
  have dotted : Glob.takes (TypePattern.globOf (written (g :: rest))) s = true ↔
      Glob.takes (TypePattern.pieces (continued (g :: rest))) ('.' :: s) = true := by
    rw [← dot_cons_globOf several, Glob.takes_char_iff]
    simp
  rw [Glob.matchesChars_eq_takes, dotted, takes_continued_iff]
  constructor
  · rintro ⟨segments, dotless, takes, spelled⟩
    rw [splitOn_of_dotBefore dotless spelled]
    exact takes
  · intro takes
    exact ⟨s.splitOn '.', fun _ => Text.not_mem_of_mem_splitOn, takes, (dotBefore_splitOn s).symm⟩

/-- A text begins with one dot or two, if no three. -/
theorem exists_dots {s : List Char} (pairs : ¬['.', '.', '.'] <+: '.' :: s) :
    ∃ (gap : Bool) (after : List Char),
      '.' :: s = (if gap then ['.', '.'] else ['.']) ++ after ∧ after.head? ≠ some '.' := by
  by_cases double : s.head? = some '.'
  · obtain ⟨after, rfl⟩ := List.head?_eq_some_iff.1 double
    refine ⟨true, after, rfl, fun triple => pairs ?_⟩
    obtain ⟨rest, rfl⟩ := List.head?_eq_some_iff.1 triple
    exact ⟨rest, rfl⟩
  · exact ⟨false, s, rfl, double⟩

/-- A text goes up to its first dot. -/
theorem exists_text {s : List Char} (filled : s ≠ []) (plain : s.head? ≠ some '.') :
    ∃ text later, s = text ++ later ∧ text ≠ [] ∧ '.' ∉ text ∧
      ∀ c ∈ later.head?, c = '.' := by
  refine ⟨s.takeWhile (· ≠ '.'), s.dropWhile (· ≠ '.'), List.takeWhile_append_dropWhile.symm,
    ?_, ?_, ?_⟩
  · obtain ⟨c, s, rfl⟩ := List.exists_cons_of_ne_nil filled
    have other : c ≠ '.' := fun same => plain (by rw [same]; rfl)
    simp [other]
  · intro member
    simpa using List.mem_takeWhile_imp member
  · intro c first
    have stopped := List.head?_dropWhile_not (fun x => decide (x ≠ '.')) s
    rw [first] at stopped
    simpa using stopped

/-- A text that begins with a dot, has at most two dots in a row and none at
its end is written as globs. -/
theorem exists_continued (s : List Char) (start : ∀ c ∈ s.head?, c = '.')
    (pairs : ¬['.', '.', '.'] <:+: s) (closed : s.getLast? ≠ some '.') :
    ∃ globs, continued globs = s := by
  induction size : s.length using Nat.strongRecOn generalizing s with
  | _ n ih =>
    subst size
    cases s with
    | nil => exact ⟨[], rfl⟩
    | cons c s =>
      obtain rfl : c = '.' := start c rfl
      obtain ⟨gap, after, spelled, plain⟩ := exists_dots fun triple => pairs triple.isInfix
      rw [spelled] at pairs closed ih ⊢
      have filled : after ≠ [] := by
        rintro rfl
        cases gap <;> exact closed rfl
      obtain ⟨text, later, rfl, nonempty, dotless, start'⟩ := exists_text filled plain
      have pairs' : ¬['.', '.', '.'] <:+: later := by
        intro triple
        refine pairs (triple.trans ?_)
        rw [← List.append_assoc]
        exact (List.suffix_append _ _).isInfix
      have closed' : later.getLast? ≠ some '.' := by
        intro last
        refine closed ?_
        rw [List.getLast?_append, List.getLast?_append, last]
        rfl
      have shorter : later.length <
          ((if gap then ['.', '.'] else ['.']) ++ (text ++ later)).length := by
        have positive := List.length_pos_iff.2 nonempty
        simp only [List.length_append]
        omega
      obtain ⟨globs, rfl⟩ := ih later.length shorter later start' pairs' closed' rfl
      exact ⟨⟨gap, text, nonempty, dotless⟩ :: globs, by simp [continued, dots]⟩

theorem hasEmptySegment_eq_false_iff {body : List Char} :
    TypePattern.hasEmptySegment body = false ↔
      ¬['.', '.', '.'] <:+: body ∧ body.getLast? ≠ some '.' ∧
        (body.head? = some '.' → ['.', '.'] <+: body) := by
  rw [← Bool.not_eq_true, ← Text.occursIn_iff, ← List.isPrefixOf_iff_prefix]
  simp [TypePattern.hasEmptySegment, and_assoc]

/-- Every body without an empty segment is written as globs. -/
theorem exists_written {body : List Char} (filled : body ≠ [])
    (sound : TypePattern.hasEmptySegment body = false) : ∃ globs, written globs = body := by
  obtain ⟨pairs, closed, start⟩ := hasEmptySegment_eq_false_iff.1 sound
  by_cases dot : body.head? = some '.'
  · obtain ⟨after, rfl⟩ := start dot
    obtain ⟨globs, spelled⟩ := exists_continued _ (by simp) pairs closed
    cases globs with
    | nil => cases spelled
    | cons g rest =>
      refine ⟨g :: rest, ?_⟩
      cases gap : g.gap with
      | true => rw [written_of_gap gap, spelled]
      | false =>
        obtain ⟨c, text, same, plain⟩ := g.exists_text_eq_cons
        simp only [continued, List.flatMap_cons, dots, gap, same] at spelled
        cases spelled
        exact absurd rfl plain
  · have pairs' : ¬['.', '.', '.'] <:+: '.' :: body := by
      rw [List.infix_cons_iff]
      rintro (⟨rest, triple⟩ | triple)
      · cases triple
        exact dot rfl
      · exact pairs triple
    have closed' : ('.' :: body).getLast? ≠ some '.' := by
      rw [List.getLast?_cons_of_ne_nil filled]
      exact closed
    obtain ⟨globs, spelled⟩ := exists_continued ('.' :: body) (by simp) pairs' closed'
    cases globs with
    | nil => cases spelled
    | cons g rest =>
      refine ⟨g :: rest, ?_⟩
      cases gap : g.gap with
      | true =>
        simp only [continued, List.flatMap_cons, dots, gap] at spelled
        cases spelled
        exact absurd rfl dot
      | false =>
        rw [continued_of_flat gap, List.cons.injEq] at spelled
        exact spelled.2

end SegmentGlob

end ClassPolicy
