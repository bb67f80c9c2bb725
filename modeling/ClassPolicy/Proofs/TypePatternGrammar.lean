import ClassPolicy.Proofs.TypePatternMeaning

/-!
# The grammar of type patterns

The body of a type pattern is not parsed but put to a few tests, each on the
whole text. They let through exactly the bodies that consist of segments, each
two joined by one dot or by two, with two dots before the first one or none.
-/

set_option autoImplicit false

namespace ClassPolicy

namespace TypePattern

/-! ### The grammar -/

def isSegmentChar (c : Char) : Bool :=
  Text.isAlphanumeric c || c = '_' || c = '$' || c = '*' || c = '[' || c = ']'

def IsSegment (s : List Char) : Prop := s ≠ [] ∧ ∀ c ∈ s, isSegmentChar c = true

/-- Segments, each two joined by one dot or by two. -/
inductive Joined : List Char → Prop
  | segment {s : List Char} (segment : IsSegment s) : Joined s
  | join {s dots rest : List Char} (segment : IsSegment s)
      (joint : dots = ['.'] ∨ dots = ['.', '.']) (later : Joined rest) :
      Joined (s ++ (dots ++ rest))

/-- Joined segments, with two dots before them or none. -/
inductive Grammatical : List Char → Prop
  | joined {s : List Char} (joined : Joined s) : Grammatical s
  | below {s : List Char} (joined : Joined s) : Grammatical (['.', '.'] ++ s)

theorem isSegmentChar_dot : isSegmentChar '.' = false := by decide +kernel

theorem isNameChar_iff {c : Char} : isNameChar c = true ↔ isSegmentChar c = true ∨ c = '.' := by
  simp only [isNameChar, isSegmentChar, Bool.or_eq_true, decide_eq_true_eq]
  tauto

theorem IsSegment.dotless {s : List Char} (segment : IsSegment s) : '.' ∉ s := by
  intro member
  have dot := segment.2 '.' member
  rw [isSegmentChar_dot] at dot
  cases dot

/-! ### What is grammatical passes the tests -/

/-- The tests on a body that begins with a segment. -/
structure Passes (s : List Char) : Prop where
  filled : s ≠ []
  legal : ∀ c ∈ s, isNameChar c = true
  start : s.head? ≠ some '.'
  closed : s.getLast? ≠ some '.'
  pairs : ¬['.', '.', '.'] <:+: s

theorem IsSegment.passes {s : List Char} (segment : IsSegment s) : Passes s where
  filled := segment.1
  legal c member := isNameChar_iff.2 (.inl (segment.2 c member))
  start first := segment.dotless (List.mem_of_mem_head? first)
  closed last := segment.dotless (List.mem_of_getLast? last)
  pairs triple := segment.dotless (triple.subset List.mem_cons_self)

/-- Three dots in a row stand behind the segment that a text begins with. -/
theorem triple_infix_append {s rest : List Char} (dotless : '.' ∉ s)
    (triple : ['.', '.', '.'] <:+: s ++ rest) : ['.', '.', '.'] <:+: rest := by
  induction s with
  | nil => exact triple
  | cons c s ih =>
    rw [List.mem_cons, not_or] at dotless
    rw [List.cons_append, List.infix_cons_iff] at triple
    rcases triple with triple | triple
    · exact absurd (List.cons_prefix_cons.1 triple).1 dotless.1
    · exact ih dotless.2 triple

/-- One dot or two before a text that begins with another character are no
three. -/
theorem not_triple_infix_joint {dots rest : List Char} (joint : dots = ['.'] ∨ dots = ['.', '.'])
    (start : rest.head? ≠ some '.') (pairs : ¬['.', '.', '.'] <:+: rest) :
    ¬['.', '.', '.'] <:+: dots ++ rest := by
  have single : ¬['.', '.', '.'] <:+: '.' :: rest := by
    rw [List.infix_cons_iff]
    rintro (⟨more, same⟩ | triple)
    · cases same
      exact start rfl
    · exact pairs triple
  rcases joint with rfl | rfl
  · exact single
  · show ¬['.', '.', '.'] <:+: '.' :: '.' :: rest
    rw [List.infix_cons_iff]
    rintro (⟨more, same⟩ | triple)
    · cases same
      exact start rfl
    · exact single triple

theorem Joined.passes {s : List Char} (joined : Joined s) : Passes s := by
  induction joined with
  | segment segment => exact segment.passes
  | @join s dots rest segment joint later ih =>
    have before := segment.passes
    refine ⟨by simp [ih.filled], ?_, ?_, ?_, ?_⟩
    · simp only [List.mem_append]
      rintro c (member | member | member)
      · exact before.legal c member
      · refine isNameChar_iff.2 (.inr ?_)
        rcases joint with rfl | rfl <;> simpa using member
      · exact ih.legal c member
    · rw [List.head?_append_of_ne_nil _ before.filled]
      exact before.start
    · rw [← List.append_assoc, List.getLast?_append_of_ne_nil _ ih.filled]
      exact ih.closed
    · exact fun triple =>
        not_triple_infix_joint joint ih.start ih.pairs (triple_infix_append segment.dotless triple)

theorem Grammatical.faultless {body : List Char} (grammatical : Grammatical body) :
    fault? body = none := by
  rw [fault?_eq_none_iff, SegmentGlob.hasEmptySegment_eq_false_iff]
  cases grammatical with
  | joined joined =>
    have passes := joined.passes
    exact ⟨passes.filled, passes.legal, passes.pairs, passes.closed,
      fun first => absurd first passes.start⟩
  | @below s joined =>
    have passes := joined.passes
    refine ⟨nofun, ?_, ?_, ?_, fun _ => List.prefix_append _ _⟩
    · simp only [List.mem_append]
      rintro c (member | member)
      · exact isNameChar_iff.2 (.inr (by simpa using member))
      · exact passes.legal c member
    · exact not_triple_infix_joint (.inr rfl) passes.start passes.pairs
    · rw [List.getLast?_append_of_ne_nil _ passes.filled]
      exact passes.closed

/-! ### What passes the tests is grammatical -/

theorem mem_continued {g : SegmentGlob} {globs : List SegmentGlob} (member : g ∈ globs) {c : Char}
    (inside : c ∈ g.text) : c ∈ SegmentGlob.continued globs :=
  List.mem_flatMap.2 ⟨g, member, List.mem_append_right _ inside⟩

theorem joined_continued {g : SegmentGlob} {rest : List SegmentGlob}
    (segments : ∀ g' ∈ g :: rest, IsSegment g'.text) :
    Joined (g.text ++ SegmentGlob.continued rest) := by
  induction rest generalizing g with
  | nil =>
    rw [SegmentGlob.continued, List.flatMap_nil, List.append_nil]
    exact .segment (segments g List.mem_cons_self)
  | cons g' rest ih =>
    have later := ih fun other member => segments other (List.mem_cons_of_mem _ member)
    have joint : g'.dots = ['.'] ∨ g'.dots = ['.', '.'] := by
      cases gap : g'.gap <;> simp [SegmentGlob.dots, gap]
    rw [SegmentGlob.continued, List.flatMap_cons, List.append_assoc]
    exact .join (segments g List.mem_cons_self) joint later

theorem grammatical_of_faultless {body : List Char} (faultless : fault? body = none) :
    Grammatical body := by
  obtain ⟨filled, legal, sound⟩ := fault?_eq_none_iff.1 faultless
  obtain ⟨globs, rfl⟩ := SegmentGlob.exists_written filled sound
  cases globs with
  | nil => exact absurd rfl filled
  | cons g rest =>
    have segments : ∀ g' ∈ g :: rest, IsSegment g'.text := by
      intro g' member
      refine ⟨g'.nonempty, fun c inside => ?_⟩
      have here : c ∈ SegmentGlob.written (g :: rest) := by
        rcases List.mem_cons.1 member with rfl | member
        · simp [SegmentGlob.written, inside]
        · exact List.mem_append_right _ (mem_continued member inside)
      refine (isNameChar_iff.1 (legal c here)).resolve_right ?_
      rintro rfl
      exact g'.dotless inside
    have joined := joined_continued segments
    rw [SegmentGlob.written, List.append_assoc]
    cases g.gap with
    | true => exact .below joined
    | false => exact .joined joined

theorem fault?_eq_none_iff_grammatical {body : List Char} :
    fault? body = none ↔ Grammatical body :=
  ⟨grammatical_of_faultless, Grammatical.faultless⟩

/-! ### Outcomes -/

theorem body_of_blank {pattern : String} (blank : Text.isBlankText pattern = true) :
    body pattern = [] := by
  rw [← trim_isEmpty, List.isEmpty_iff] at blank
  rw [body, blank]
  rfl

theorem glob?_of_grammatical {body : List Char} (grammatical : Grammatical body)
    (fits : (globOf body).fits = true) : glob? body = .ok (globOf body) := by
  simp [glob?, grammatical.faultless, Glob.bounded?, fits]

theorem glob?_of_not_grammatical {body : List Char} (ungrammatical : ¬Grammatical body) :
    ∃ fault, glob? body = .error fault := by
  cases found : fault? body with
  | some fault => exact ⟨fault, by simp [glob?, found]⟩
  | none => exact absurd (grammatical_of_faultless found) ungrammatical

theorem not_grammatical_nil : ¬Grammatical [] := fun grammatical => by
  cases grammatical.faultless

/-- Where the expression that is built is accepted, a text is refused as empty
when it is blank, accepted when its body is grammatical, and refused as
malformed in all other cases. -/
theorem compile_by_grammar (pattern : String)
    (built : fault? (body pattern) = none → (globOf (body pattern)).fits = true) :
    (compile pattern = .error .empty ↔ Text.isBlankText pattern = true) ∧
      ((∃ p, compile pattern = .ok p) ↔ Grammatical (body pattern)) ∧
      ((∃ fault, compile pattern = .error (.malformed pattern fault)) ↔
        Text.isBlankText pattern = false ∧ ¬Grammatical (body pattern)) := by
  rw [compile_eq]
  cases blank : Text.isBlankText pattern with
  | true =>
    have ungrammatical : ¬Grammatical (body pattern) := by
      rw [body_of_blank blank]
      exact not_grammatical_nil
    simp [ungrammatical]
  | false =>
    by_cases grammatical : Grammatical (body pattern)
    · have accepted := glob?_of_grammatical grammatical (built grammatical.faultless)
      simp [accepted, grammatical]
    · obtain ⟨fault, refused⟩ := glob?_of_not_grammatical grammatical
      simp [refused, grammatical]

/-- The blanks, the slash and the `+` are no part of the body. -/
def belowAcme : String := " ..acme/util..B*$+\t"

theorem grammatical_belowAcme : Grammatical (body belowAcme) := by
  have spelled : body belowAcme = ['.', '.'] ++
      ("acme".toList ++ (['.'] ++ ("util".toList ++ (['.', '.'] ++ "B*$".toList)))) := by
    decide +kernel
  have acme : IsSegment "acme".toList := ⟨by decide, List.all_eq_true.1 (by decide +kernel)⟩
  have util : IsSegment "util".toList := ⟨by decide, List.all_eq_true.1 (by decide +kernel)⟩
  have names : IsSegment "B*$".toList := ⟨by decide, List.all_eq_true.1 (by decide +kernel)⟩
  rw [spelled]
  exact .below (.join acme (.inl rfl) (.join util (.inr rfl) (.segment names)))

theorem belowAcme_compiles :
    (∃ p, compile belowAcme = .ok p) ∧
      ∃ fault, compile "acme...B*" = .error (.malformed "acme...B*" fault) := by
  have fits : (globOf (body belowAcme)).fits = true := by decide +kernel
  have accepted := compile_by_grammar belowAcme fun _ => fits
  have fault : fault? (body "acme...B*") = some .emptySegment := by decide +kernel
  have refused := compile_by_grammar "acme...B*" fun faultless => by
    rw [fault] at faultless
    cases faultless
  refine ⟨accepted.2.1.2 grammatical_belowAcme, refused.2.2.2 ⟨by decide +kernel, ?_⟩⟩
  rw [← fault?_eq_none_iff_grammatical, fault]
  exact nofun

end TypePattern

end ClassPolicy
