import ClassPolicy.Proofs.SegmentGlobs

/-!
# What type patterns mean

A type pattern matches a name when its globs can be placed on segments of the
name, in order and up to the last one, so that only segments before a `..` are
passed over and none of them is empty. With a `+` it is enough that some name
of the lineage of a type matches.
-/

set_option autoImplicit false

namespace ClassPolicy

namespace SegmentGlob

/-- The globs sit on the segments that `place` says. -/
structure Placement (globs : List SegmentGlob) (segments : List (List Char)) (place : ℕ → ℕ) :
    Prop where
  increasing : ∀ i, i + 1 < globs.length → place i < place (i + 1)
  last : place (globs.length - 1) + 1 = segments.length
  matched : ∀ i g, globs[i]? = some g →
    ∃ segment, segments[place i]? = some segment ∧ StarMatch (· ≠ '.') g.text segment
  first : ∀ g, globs[0]? = some g → g.gap = false → place 0 = 0
  adjacent : ∀ i g, globs[i + 1]? = some g → g.gap = false → place (i + 1) = place i + 1
  passed : ∀ j segment, segments[j]? = some segment → (∀ i < globs.length, place i ≠ j) →
    segment ≠ []

section Placing

variable {globs : List SegmentGlob} {segments : List (List Char)} {place : ℕ → ℕ}

/-- The first glob sits on segment `n`, the others beyond it. -/
def shifted (n : ℕ) (place : ℕ → ℕ) : ℕ → ℕ
  | 0 => n
  | i + 1 => n + 1 + place i

/-- Without a gap before the glob no segment is passed over. -/
theorem length_eq_zero_of_flat {g : SegmentGlob} {passed : List (List Char)}
    (allowed : passed ≠ [] → g.gap = true) (flat : g.gap = false) : passed.length = 0 := by
  rw [List.length_eq_zero_iff]
  by_contra some
  rw [allowed some] at flat
  cases flat

theorem Placement.single {g : SegmentGlob} {passed : List (List Char)} {segment : List Char}
    (allowed : passed ≠ [] → g.gap = true) (full : [] ∉ passed)
    (matched : StarMatch (· ≠ '.') g.text segment) :
    Placement [g] (passed ++ [segment]) (fun _ => passed.length) where
  increasing := by
    intro i later
    simp at later
  last := by simp
  matched := by
    intro i g' found
    obtain ⟨rfl, rfl⟩ : i = 0 ∧ g = g' := by simpa [List.getElem?_singleton] using found
    exact ⟨segment, by simp, matched⟩
  first := by
    intro g' found flat
    obtain rfl : g = g' := by simpa using found
    exact length_eq_zero_of_flat allowed flat
  adjacent := by
    intro i g' found
    simp at found
  passed := by
    intro j segment' found free none
    subst none
    have before : j < passed.length := by
      have other := free 0 Nat.one_pos
      have bound := (List.getElem?_eq_some_iff.1 found).1
      simp only [List.length_append, List.length_singleton] at bound
      omega
    rw [List.getElem?_append_left before] at found
    exact full (List.mem_of_getElem? found)

theorem Placement.cons {g g' : SegmentGlob} {rest : List SegmentGlob}
    {passed segments : List (List Char)} {segment : List Char}
    (allowed : passed ≠ [] → g.gap = true) (full : [] ∉ passed)
    (matched : StarMatch (· ≠ '.') g.text segment)
    (later : Placement (g' :: rest) segments place) :
    Placement (g :: g' :: rest) (passed ++ segment :: segments)
      (shifted passed.length place) where
  increasing := by
    intro i inside
    cases i with
    | zero =>
      simp only [shifted]
      omega
    | succ i =>
      have step := later.increasing i (by simpa using inside)
      simp only [shifted]
      omega
  last := by
    have last := later.last
    simp only [List.length_cons, Nat.add_sub_cancel] at last
    simp only [List.length_cons, Nat.add_sub_cancel, List.length_append, shifted]
    omega
  matched := by
    intro i g'' found
    cases i with
    | zero =>
      obtain rfl : g = g'' := by simpa using found
      exact ⟨segment, by simp [shifted], matched⟩
    | succ i =>
      obtain ⟨segment', here, matched'⟩ := later.matched i g'' (by simpa using found)
      refine ⟨segment', ?_, matched'⟩
      have beyond : shifted passed.length place (i + 1) - passed.length = place i + 1 := by
        simp only [shifted]
        omega
      rw [List.getElem?_append_right (by simp only [shifted]; omega), beyond]
      simpa using here
  first := by
    intro g'' found flat
    obtain rfl : g = g'' := by simpa using found
    exact length_eq_zero_of_flat allowed flat
  adjacent := by
    intro i g'' found flat
    cases i with
    | zero =>
      have first := later.first g'' (by simpa using found) flat
      simp only [shifted]
      omega
    | succ i =>
      have step := later.adjacent i g'' (by simpa using found) flat
      simp only [shifted]
      omega
  passed := by
    intro j segment' found free
    have other : j ≠ passed.length := fun same => free 0 (by simp) same.symm
    by_cases before : j < passed.length
    · rw [List.getElem?_append_left before] at found
      rintro rfl
      exact full (List.mem_of_getElem? found)
    · obtain ⟨k, rfl⟩ : ∃ k, j = passed.length + (k + 1) := ⟨j - passed.length - 1, by omega⟩
      rw [List.getElem?_append_right (by omega), Nat.add_sub_cancel_left,
        List.getElem?_cons_succ] at found
      refine later.passed k segment' found fun i inside same => ?_
      refine free (i + 1) (by simpa using inside) ?_
      simp only [shifted]
      omega

theorem Takes.exists_placement (takes : Takes globs segments) (filled : globs ≠ []) :
    ∃ place, Placement globs segments place := by
  induction takes with
  | nil => exact absurd rfl filled
  | @cons g rest passed segments segment allowed full matched later ih =>
    cases rest with
    | nil =>
      cases later
      exact ⟨_, .single allowed full matched⟩
    | cons g' rest =>
      obtain ⟨place, placed⟩ := ih (List.cons_ne_nil _ _)
      exact ⟨_, .cons allowed full matched placed⟩

theorem Placement.first_add_le (placed : Placement globs segments place) {i : ℕ}
    (inside : i < globs.length) : place 0 + i ≤ place i := by
  induction i with
  | zero => exact Nat.le_refl _
  | succ i ih =>
    have before := ih (by omega)
    have step := placed.increasing i inside
    omega

theorem Placement.tail {g g' : SegmentGlob} {rest : List SegmentGlob}
    (placed : Placement (g :: g' :: rest) segments place) :
    Placement (g' :: rest) (segments.drop (place 0 + 1))
      (fun i => place (i + 1) - (place 0 + 1)) where
  increasing := by
    intro i inside
    have step := placed.increasing (i + 1) (by simpa using inside)
    have beyond := placed.first_add_le (i := i + 1) (by simp at inside ⊢; omega)
    omega
  last := by
    have last := placed.last
    have beyond := placed.first_add_le (i := rest.length + 1) (by simp)
    simp only [List.length_cons, Nat.add_sub_cancel, List.length_drop] at last ⊢
    omega
  matched := by
    intro i g'' found
    obtain ⟨segment, here, matched⟩ := placed.matched (i + 1) g'' (by simpa using found)
    refine ⟨segment, ?_, matched⟩
    have inside := (List.getElem?_eq_some_iff.1 found).1
    have beyond := placed.first_add_le (i := i + 1) (by simp at inside ⊢; omega)
    rw [List.getElem?_drop, ← here]
    congr 1
    omega
  first := by
    intro g'' found flat
    have step := placed.adjacent 0 g'' (by simpa using found) flat
    omega
  adjacent := by
    intro i g'' found flat
    have step := placed.adjacent (i + 1) g'' (by simpa using found) flat
    have inside := (List.getElem?_eq_some_iff.1 found).1
    have beyond := placed.first_add_le (i := i + 1) (by simp at inside ⊢; omega)
    omega
  passed := by
    intro j segment found free
    rw [List.getElem?_drop] at found
    refine placed.passed _ segment found fun i inside same => ?_
    cases i with
    | zero => omega
    | succ i =>
      refine free i (by simpa using inside) ?_
      omega

theorem Placement.takes (placed : Placement globs segments place) (filled : globs ≠ []) :
    Takes globs segments := by
  induction globs generalizing segments place with
  | nil => exact absurd rfl filled
  | cons g rest ih =>
    obtain ⟨segment, here, matched⟩ := placed.matched 0 g rfl
    obtain ⟨inside, here⟩ := List.getElem?_eq_some_iff.1 here
    have split : segments = segments.take (place 0) ++ segment :: segments.drop (place 0 + 1) := by
      rw [← here, ← List.drop_eq_getElem_cons, List.take_append_drop]
    have allowed : segments.take (place 0) ≠ [] → g.gap = true := by
      intro filled
      by_contra flat
      rw [Bool.not_eq_true] at flat
      refine filled ?_
      rw [placed.first g rfl flat]
      rfl
    have full : [] ∉ segments.take (place 0) := by
      intro member
      obtain ⟨j, bound, found⟩ := List.mem_iff_getElem.1 member
      have before : j < place 0 := by
        rw [List.length_take] at bound
        omega
      rw [List.getElem_take] at found
      refine placed.passed j [] (List.getElem?_eq_some_iff.2 ⟨_, found⟩) (fun i inside same => ?_)
        rfl
      have beyond := placed.first_add_le inside
      omega
    rw [split]
    refine .cons allowed full matched ?_
    cases rest with
    | nil =>
      have last := placed.last
      have none : segments.drop (place 0 + 1) = [] :=
        List.drop_eq_nil_of_le (Nat.le_of_eq last.symm)
      rw [none]
      exact .nil
    | cons g' rest => exact ih placed.tail (List.cons_ne_nil _ _)

theorem exists_placement_iff (filled : globs ≠ []) :
    (∃ place, Placement globs segments place) ↔ Takes globs segments := by
  constructor
  · rintro ⟨place, placed⟩
    exact placed.takes filled
  · exact fun takes => takes.exists_placement filled

end Placing

end SegmentGlob

namespace TypePattern

/-- The pattern without a `+` at its end, in the dotted spelling. -/
def body (pattern : String) : List Char := (cutSubtypes (Text.trim pattern.toList)).1.map dotted

/-- Whether a `+` ends the pattern. -/
def endsInPlus (pattern : String) : Bool := (Text.trim pattern.toList).getLast? = some '+'

theorem cutSubtypes_snd (s : List Char) : (cutSubtypes s).2 = decide (s.getLast? = some '+') := by
  by_cases plus : s.getLast? = some '+' <;> simp [cutSubtypes, plus]

theorem trim_isEmpty (pattern : String) :
    (Text.trim pattern.toList).isEmpty = Text.isBlankText pattern := by
  rw [Bool.eq_iff_iff, List.isEmpty_iff, Text.trim_eq_nil_iff, Text.isBlankText]

/-- What becomes of a text depends on its body and its `+`. -/
theorem compile_eq (pattern : String) :
    compile pattern = if Text.isBlankText pattern then .error .empty
      else match glob? (body pattern) with
        | .error fault => .error (.malformed pattern fault)
        | .ok glob => .ok ⟨glob, endsInPlus pattern⟩ := by
  simp only [compile, trim_isEmpty, cutSubtypes_snd]
  rfl

theorem fault?_eq_none_iff {body : List Char} :
    fault? body = none ↔
      body ≠ [] ∧ (∀ c ∈ body, isNameChar c = true) ∧ hasEmptySegment body = false := by
  by_cases nothing : body = []
  · simp [fault?, nothing]
  · rw [fault?, if_neg (by simpa using nothing)]
    cases illegal : body.find? (fun c => !isNameChar c) with
    | some c =>
      have bad := List.find?_some illegal
      refine iff_of_false (by simp) fun passes => ?_
      simp [passes.2.1 c (List.mem_of_find?_eq_some illegal)] at bad
    | none =>
      have legal : ∀ c ∈ body, isNameChar c = true := by simpa using illegal
      simp only [ite_eq_right_iff, reduceCtorEq, imp_false, Bool.not_eq_true]
      exact ⟨fun sound => ⟨nothing, legal, sound⟩, fun passes => passes.2.2⟩

theorem sound_of_fault?_eq_none {body : List Char} (faultless : fault? body = none) :
    body ≠ [] ∧ hasEmptySegment body = false := by
  obtain ⟨filled, -, sound⟩ := fault?_eq_none_iff.1 faultless
  exact ⟨filled, sound⟩

/-- An accepted text has no fault, and its body and its `+` make the pattern. -/
theorem eq_of_compile {pattern : String} {p : TypePattern} (accepted : compile pattern = .ok p) :
    fault? (body pattern) = none ∧ p = ⟨globOf (body pattern), endsInPlus pattern⟩ := by
  rw [compile_eq] at accepted
  split at accepted
  · cases accepted
  · split at accepted
    · cases accepted
    · rename_i glob made
      unfold glob? at made
      split at made
      · cases made
      · rename_i faultless
        obtain ⟨-, rfl⟩ := Glob.bounded?_eq_ok_iff.1 made
        cases accepted
        exact ⟨faultless, rfl⟩

theorem matchesName_star_iff {p : TypePattern} (star : p.glob = globOf ['*']) (name : String) :
    p.matchesName name = true ↔ '\n' ∉ name.toList := by
  rw [matchesName, Glob.matchesText, star, Glob.matchesChars_eq_takes]
  refine Glob.takes_run_iff.trans ?_
  constructor
  · rintro ⟨run, later, spelled, allowed, taken⟩ member
    rw [spelled, Glob.takes_nil_iff.1 taken, List.append_nil] at member
    exact allowed _ member rfl
  · intro absent
    refine ⟨name.toList, [], (List.append_nil _).symm, ?_, rfl⟩
    rintro x member rfl
    exact absent member

theorem matchesType_iff (p : TypePattern) (ty : TypeDescriptor) :
    p.matchesType ty = true ↔
      if p.subtypes then ∃ name ∈ ty.lineage, p.matchesName name.text = true
      else p.matchesName ty.name.text = true := by
  cases plus : p.subtypes with
  | true => simp [matchesType, plus, TypeDescriptor.lineage, or_and_right, exists_or]
  | false => simp [matchesType, plus]

/-- An accepted pattern is a bare `*`, which matches every name without a line
feed, or it is written as globs for segments and matches the names on whose
segments the globs can be placed. With a `+` it matches a type when it matches a
name of its lineage, without one when it matches its own name. -/
theorem means_placement {pattern : String} {p : TypePattern} (accepted : compile pattern = .ok p) :
    (body pattern = ['*'] → ∀ name : String, p.matchesName name = true ↔ '\n' ∉ name.toList) ∧
      (body pattern ≠ ['*'] →
        (∃ globs, SegmentGlob.written globs = body pattern) ∧
          ∀ globs, SegmentGlob.written globs = body pattern → ∀ name : String,
            p.matchesName name = true ↔
              ∃ place, SegmentGlob.Placement globs (name.toList.splitOn '.') place) ∧
      ∀ ty : TypeDescriptor, matchType pattern ty = .ok true ↔
        if endsInPlus pattern then ∃ name ∈ ty.lineage, p.matchesName name.text = true
        else p.matchesName ty.name.text = true := by
  obtain ⟨faultless, rfl⟩ := eq_of_compile accepted
  obtain ⟨filled, sound⟩ := sound_of_fault?_eq_none faultless
  refine ⟨fun star => matchesName_star_iff (by rw [star]), fun several => ⟨?_, ?_⟩, fun ty => ?_⟩
  · exact SegmentGlob.exists_written filled sound
  · intro globs spelled name
    have some : globs ≠ [] := by
      rintro rfl
      exact filled spelled.symm
    rw [SegmentGlob.exists_placement_iff some]
    rw [← spelled] at several
    have meaning := SegmentGlob.matchesChars_written_iff some several name.toList
    rw [spelled] at meaning
    exact meaning
  · rw [matchType, accepted, Except.map, Except.ok.injEq]
    exact matchesType_iff _ ty

/-- The types of `acme` and below whose names begin with `B`. -/
def baseOfAcme : TypePattern where
  glob := "acme".toList.map .char ++ [.char '.', .packages, .char 'B', .run '.']
  subtypes := true

def baseOfAcmeGlobs : List SegmentGlob :=
  [⟨false, "acme".toList, by decide, by decide⟩, ⟨true, "B*".toList, by decide, by decide⟩]

def invoice : TypeDescriptor :=
  { TypeDescriptor.named (TypeName.ofString "sales.Invoice") with
    ancestors := [TypeName.ofString "acme/util/Base"] }

theorem baseOfAcme_means :
    compile "acme..B*+" = .ok baseOfAcme ∧
      (∃ place, SegmentGlob.Placement baseOfAcmeGlobs ("acme.util.Base".toList.splitOn '.') place) ∧
      matchType "acme..B*+" invoice = .ok true := by
  have accepted : compile "acme..B*+" = .ok baseOfAcme := by decide +kernel
  have plus : endsInPlus "acme..B*+" = true := by decide +kernel
  have several : body "acme..B*+" ≠ ['*'] := by decide +kernel
  have spelled : SegmentGlob.written baseOfAcmeGlobs = body "acme..B*+" := by decide +kernel
  obtain ⟨-, placed, lineage⟩ := means_placement accepted
  refine ⟨accepted, ((placed several).2 _ spelled _).1 ?_, (lineage invoice).2 ?_⟩
  · decide +kernel
  · rw [if_pos plus]
    refine ⟨TypeName.ofString "acme/util/Base", by simp [TypeDescriptor.lineage, invoice], ?_⟩
    decide +kernel

end TypePattern

end ClassPolicy
