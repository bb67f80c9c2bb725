import ClassPolicy.Proofs.MemberForms
import ClassPolicy.Proofs.TypePatternMeaning

/-!
# What pattern errors report

An expression that is no type pattern is reported as it was given. For a member
pattern this holds as long as the types in it can be read: an error about one of
these types names the type alone and says nothing of the expression around it.
-/

set_option autoImplicit false

namespace ClassPolicy

/-- An error is about this expression: it is empty exactly when the expression
is blank, and any other error carries the expression unmodified. -/
structure AsGiven {α : Type} (pattern : String) (answer : Except PatternError α) : Prop where
  empty_iff : answer = .error .empty ↔ Text.isBlankText pattern = true
  unmodified : ∀ text fault, answer = .error (.malformed text fault) → text = pattern

theorem asGiven_map_iff {α β : Type} {pattern : String} {answer : Except PatternError α}
    {f : α → β} : AsGiven pattern (answer.map f) ↔ AsGiven pattern answer := by
  constructor
  · rintro ⟨empty_iff, unmodified⟩
    simp only [map_eq_error_iff] at empty_iff unmodified
    exact ⟨empty_iff, unmodified⟩
  · rintro ⟨empty_iff, unmodified⟩
    refine ⟨?_, ?_⟩ <;> simpa only [map_eq_error_iff]

theorem TypePattern.compile_asGiven (pattern : String) : AsGiven pattern (compile pattern) := by
  rw [compile_eq]
  cases blank : Text.isBlankText pattern with
  | true => exact ⟨by simp [blank], by simp⟩
  | false =>
    rw [if_neg Bool.false_ne_true]
    cases glob? (body pattern) with
    | error fault =>
      refine ⟨by simp [blank], fun text fault' reported => ?_⟩
      cases reported
      rfl
    | ok glob => exact ⟨by simp [blank], by simp⟩

namespace MemberPattern

/-! ### The types in a member pattern -/

/-- The parts of an outline that are read as type patterns, with everything
before them read. -/
inductive TypePart (o : Outline) : List Char → Prop
  | returns : TypePart o o.returns
  | declaring {returns : TypePattern}
      (returned : TypePattern.compile (String.ofList o.returns) = .ok returns) :
      TypePart o o.declaring
  | parameter {returns declaring : TypePattern} {name : Glob} {before after : List (List Char)}
      {entry : List Char}
      (returned : TypePattern.compile (String.ofList o.returns) = .ok returns)
      (declared : TypePattern.compile (String.ofList o.declaring) = .ok declaring)
      (named : nameGlob? o.name = .ok name)
      (listed : o.parameters.splitOn ',' = before ++ entry :: after)
      (earlier : ∀ other ∈ before, ∃ p, EntryReads other p)
      (filled : Text.trim entry ≠ []) (single : Text.trim entry ≠ ['.', '.']) :
      TypePart o (Text.trim entry)

/-- A member pattern in order up to one of its types, which is refused. -/
structure RefusesPart (pattern : String) (part : List Char) (e : PatternError) : Prop where
  reached : ∃ o, outline? (Text.trim pattern.toList) = .ok o ∧
    (∃ flags, modifiers? o.modifiers = .ok flags) ∧ TypePart o part
  refused : TypePattern.compile (String.ofList part) = .error e

section Parts

variable {pattern : String} {o : Outline} {part : List Char}

theorem paren_mem_of_outline? (outlined : outline? (Text.trim pattern.toList) = .ok o) :
    '(' ∈ pattern.toList := by
  obtain ⟨head, spelled, -⟩ := outline?_eq_ok_iff.1 outlined
  refine Text.trim_subset _ ?_
  rw [spelled]
  exact List.mem_append_right _ List.mem_cons_self

theorem TypePart.paren_not_mem (isPart : TypePart o part)
    (outlined : outline? (Text.trim pattern.toList) = .ok o) : '(' ∉ part := by
  obtain ⟨head, -, outside, inside, spaced, -⟩ := outline?_eq_ok_iff.1 outlined
  cases isPart with
  | returns => exact fun member => outside (spaced.subset (by simp) member)
  | declaring returned =>
    have word : o.declaring ++ '.' :: o.name ∈
        o.modifiers ++ [o.returns, o.declaring ++ '.' :: o.name] := by simp
    exact fun member => outside (spaced.subset word (List.mem_append_left _ member))
  | @parameter _ _ _ before after entry _ _ _ listed =>
    have cut : entry ∈ o.parameters.splitOn ',' := by simp [listed]
    exact fun member => inside (Text.mem_of_mem_splitOn cut (Text.trim_subset _ member)).1

/-- The expression has a parenthesis that its types have not. -/
theorem RefusesPart.ne {e : PatternError} (refuses : RefusesPart pattern part e) :
    String.ofList part ≠ pattern := by
  rintro rfl
  obtain ⟨o, outlined, -, isPart⟩ := refuses.reached
  have member := paren_mem_of_outline? outlined
  rw [String.toList_ofList] at member
  exact isPart.paren_not_mem outlined member

theorem RefusesPart.not_blank {e : PatternError} (refuses : RefusesPart pattern part e) :
    Text.isBlankText pattern = false := by
  obtain ⟨o, outlined, -⟩ := refuses.reached
  rw [Bool.eq_false_iff]
  intro blank
  have bad := List.all_eq_true.1 blank _ (paren_mem_of_outline? outlined)
  cases bad

/-- The error is about the part, hence not about the expression. -/
theorem RefusesPart.not_asGiven {α : Type} {e : PatternError}
    (refuses : RefusesPart pattern part e) :
    ¬AsGiven pattern (.error e : Except PatternError α) := by
  rintro ⟨empty_iff, unmodified⟩
  cases e with
  | empty =>
    have blank := empty_iff.1 rfl
    rw [refuses.not_blank] at blank
    cases blank
  | malformed text fault =>
    have same := (TypePattern.compile_asGiven _).unmodified text fault refuses.refused
    exact refuses.ne (same.symm.trans (unmodified text fault rfl))

end Parts

/-! ### Errors of the whole -/

section Errors

variable {pattern : String} {e : PatternError}

theorem parameter?_eq_error_iff {entry : List Char} :
    parameter? pattern entry = .error e ↔
      (Text.trim entry = [] ∧ e = .malformed pattern .emptyParameter) ∨
        (Text.trim entry ≠ [] ∧ Text.trim entry ≠ ['.', '.'] ∧
          TypePattern.compile (String.ofList (Text.trim entry)) = .error e) := by
  simp only [parameter?, List.isEmpty_iff]
  split_ifs with blank run
  · simp [blank, @eq_comm _ e]
  · simp [run]
  · simp [blank, run, map_eq_error_iff]

theorem parameters?_eq_error_iff {list : List Char} :
    parameters? pattern list = .error e ↔
      list.all Text.isBlank = false ∧
        ∃ before entry after, list.splitOn ',' = before ++ entry :: after ∧
          (∀ other ∈ before, ∃ p, EntryReads other p) ∧ parameter? pattern entry = .error e := by
  unfold parameters?
  cases list.all Text.isBlank with
  | true => simp
  | false =>
    simp only [Bool.false_eq_true, if_false, map_eq_error_iff, mapM_eq_error_iff,
      parameter?_eq_ok_iff, true_and]

theorem all_isBlank_of_listed {list entry : List Char} {before after : List (List Char)}
    (listed : list.splitOn ',' = before ++ entry :: after) (filled : Text.trim entry ≠ []) :
    list.all Text.isBlank = false := by
  rw [Bool.eq_false_iff]
  intro only
  refine filled ((Text.trim_eq_nil_iff entry).2 (List.all_eq_true.2 fun c member => ?_))
  have cut : entry ∈ list.splitOn ',' := by simp [listed]
  exact List.all_eq_true.1 only c (Text.mem_of_mem_splitOn cut member).1

theorem compile_blank (blank : Text.isBlankText pattern = true) :
    compile pattern = .error .empty := by
  simp only [compile, TypePattern.trim_isEmpty, blank, if_true]

theorem RefusesPart.compile {part : List Char} (refuses : RefusesPart pattern part e) :
    MemberPattern.compile pattern = .error e := by
  have filled := refuses.not_blank
  obtain ⟨⟨o, outlined, ⟨flags, flagged⟩, isPart⟩, refused⟩ := refuses
  simp only [MemberPattern.compile, TypePattern.trim_isEmpty, filled, Bool.false_eq_true, if_false,
    outlined, flagged, mapError_ok, ok_bind]
  cases isPart with
  | returns => rw [refused]; rfl
  | declaring returned => rw [returned, refused]; rfl
  | @parameter _ _ _ before after entry returned declared named listed earlier present single =>
    have entryRefused : parameter? pattern entry = .error e :=
      parameter?_eq_error_iff.2 (.inr ⟨present, single, refused⟩)
    have listRefused : parameters? pattern o.parameters = .error e :=
      parameters?_eq_error_iff.2
        ⟨all_isBlank_of_listed listed present, before, entry, after, listed, earlier, entryRefused⟩
    rw [returned, declared, named, listRefused]
    rfl

/-- An error is about the whole expression or about one of its types. -/
theorem cases_of_compile_error (refused : compile pattern = .error e)
    (filled : Text.isBlankText pattern = false) :
    (∃ fault, e = .malformed pattern fault) ∨ ∃ part, RefusesPart pattern part e := by
  simp only [compile, TypePattern.trim_isEmpty, filled, Bool.false_eq_true, if_false,
    bind_eq_error_iff, mapError_eq_error_iff, mapError_eq_ok_iff] at refused
  -- One stage of the reading after the other: it fails, or the next one is reached.
  obtain ⟨fault, -, rfl⟩ | ⟨o, outlined, refused⟩ := refused
  · exact .inl ⟨fault, rfl⟩
  obtain ⟨fault, -, rfl⟩ | ⟨flags, flagged, refused⟩ := refused
  · exact .inl ⟨fault, rfl⟩
  have reached {part : List Char} (isPart : TypePart o part)
      (refused : TypePattern.compile (String.ofList part) = .error e) :
      ∃ part, RefusesPart pattern part e :=
    ⟨part, ⟨o, outlined, ⟨flags, flagged⟩, isPart⟩, refused⟩
  obtain refused | ⟨returns, returned, refused⟩ := refused
  · exact .inr (reached .returns refused)
  obtain refused | ⟨declaring, declared, refused⟩ := refused
  · exact .inr (reached (.declaring returned) refused)
  obtain ⟨fault, -, rfl⟩ | ⟨name, named, refused⟩ := refused
  · exact .inl ⟨fault, rfl⟩
  obtain refused | ⟨parameters, -, done⟩ := refused
  · obtain ⟨-, before, entry, after, listed, earlier, refused⟩ :=
      parameters?_eq_error_iff.1 refused
    obtain ⟨-, rfl⟩ | ⟨present, single, refused⟩ := parameter?_eq_error_iff.1 refused
    · exact .inl ⟨_, rfl⟩
    · have isPart := TypePart.parameter returned declared named listed earlier present single
      exact .inr (reached isPart refused)
  · cases done

theorem compile_asGiven_iff :
    AsGiven pattern (compile pattern) ↔ ∀ part e, ¬RefusesPart pattern part e := by
  constructor
  · intro asGiven part e refuses
    rw [refuses.compile] at asGiven
    exact refuses.not_asGiven asGiven
  · intro whole
    cases blank : Text.isBlankText pattern with
    | true =>
      rw [compile_blank blank]
      exact ⟨by simp [blank], by simp⟩
    | false =>
      have about {e : PatternError} (refused : compile pattern = .error e) :
          ∃ fault, e = .malformed pattern fault :=
        (cases_of_compile_error refused blank).resolve_right
          fun ⟨part, refuses⟩ => whole part e refuses
      constructor
      · rw [blank]
        refine iff_of_false (fun refused => ?_) Bool.false_ne_true
        obtain ⟨fault, same⟩ := about refused
        cases same
      · intro text fault refused
        obtain ⟨fault', same⟩ := about refused
        cases same
        rfl

end Errors

/-- What the errors of both kinds of pattern report. -/
structure ErrorsReport (pattern : String) : Prop where
  type : ∀ ty, AsGiven pattern (matchType pattern ty)
  member : ∀ m, AsGiven pattern (matchMember pattern m) ↔ ∀ part e, ¬RefusesPart pattern part e
  part : ∀ part e, RefusesPart pattern part e → ∀ m, matchMember pattern m = .error e ∧
    AsGiven (String.ofList part) (matchMember pattern m) ∧ String.ofList part ≠ pattern

/-- Errors of type patterns are about the expression, and so are errors of member
patterns unless a type in them is refused: such an error is about that type, as
if it had been given alone. -/
theorem errors_report (pattern : String) : ErrorsReport pattern where
  type ty := asGiven_map_iff.2 (TypePattern.compile_asGiven pattern)
  member m := asGiven_map_iff.trans compile_asGiven_iff
  part part e refuses m := by
    have refused : matchMember pattern m = .error e :=
      matchMember_eq_error_iff.2 refuses.compile
    have asGiven := TypePattern.compile_asGiven (String.ofList part)
    rw [refuses.refused] at asGiven
    rw [refused]
    exact ⟨rfl, ⟨by simpa using asGiven.empty_iff, by simpa using asGiven.unmodified⟩, refuses.ne⟩

/-- A method `m` of `a.B`. -/
def methodOfB : MemberDescriptor := MemberDescriptor.named (TypeName.ofString "a.B") "m"

/-- A return type is reported without the rest, a missing declaring type as if
nothing had been given. -/
theorem return_type_reported_alone :
    matchMember "in-t a.B.m()" methodOfB = .error (.malformed "in-t" (.illegalCharacter '-')) ∧
      matchMember "* .m()" methodOfB = .error .empty ∧
      ¬∀ pattern m, AsGiven pattern (matchMember pattern m) := by
  have returned : matchMember "in-t a.B.m()" methodOfB =
      .error (.malformed "in-t" (.illegalCharacter '-')) := by decide +kernel
  refine ⟨returned, by decide +kernel, fun all => ?_⟩
  have same := (all _ _).unmodified _ _ returned
  revert same
  decide

end MemberPattern

end ClassPolicy
