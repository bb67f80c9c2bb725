import ClassPolicy.Engine.Call
import Mathlib.Tactic.Simps.Basic
import Mathlib.Tactic.SplitIfs

/-!
# The dotted spelling

A policy keeps its patterns as they were written, and everything else under
dotted names. `withDots` turns the slashes of the types in all that is kept as
it was written into dots: of the patterns in the rules, and of the texts that
errors repeat. What a rule decides about a type commutes with it, so a decision
does not depend on the spelling of the patterns, and a failure depends on it
only in the text it shows.
-/

set_option autoImplicit false

namespace ClassPolicy

/-! ### Texts -/

def dottedText (text : String) : String := text.map dotted

@[simp] theorem dotted_dotted (c : Char) : dotted (dotted c) = dotted c :=
  if_neg (dotted_ne_slash c)

theorem dotted_eq_iff {c d : Char} (slash : d ≠ '/') (dot : d ≠ '.') : dotted c = d ↔ c = d := by
  unfold dotted
  split
  · rename_i same
    subst same
    exact iff_of_false (Ne.symm dot) (Ne.symm slash)
  · rfl

@[simp] theorem dotted_comp_dotted : dotted ∘ dotted = dotted := funext dotted_dotted

theorem map_dotted_map_dotted (s : List Char) : (s.map dotted).map dotted = s.map dotted := by
  simp

@[simp] theorem toList_dottedText (text : String) :
    (dottedText text).toList = text.toList.map dotted :=
  String.toList_map

@[simp] theorem dottedText_dottedText (text : String) :
    dottedText (dottedText text) = dottedText text :=
  String.toList_injective (by simp)

theorem dottedText_of_noSlash {text : String} (none : '/' ∉ text.toList) :
    dottedText text = text :=
  congrArg TypeName.text (TypeName.ofString_text ⟨text, none⟩)

@[simp] theorem isEmpty_dottedText (text : String) : (dottedText text).isEmpty = text.isEmpty := by
  rw [Bool.eq_iff_iff, String.isEmpty_iff, String.isEmpty_iff, ← String.toList_eq_nil_iff,
    ← String.toList_eq_nil_iff, toList_dottedText, List.map_eq_nil_iff]

@[simp] theorem ofString_dottedText (spelling : String) :
    TypeName.ofString (dottedText spelling) = TypeName.ofString spelling :=
  TypeName.text_inj.1 (dottedText_dottedText spelling)

theorem ofString_eq_iff {spelling spelling' : String} :
    TypeName.ofString spelling = TypeName.ofString spelling' ↔
      dottedText spelling = dottedText spelling' :=
  TypeName.text_inj.symm

/-! ### Qualified names -/

/-- A qualified name with what stands before its last dot in the dotted
spelling. -/
def dottedOwner (s : List Char) : List Char :=
  match Text.cutLast? '.' s with
  | some (owner, name) => owner.map dotted ++ '.' :: name
  | none => s

theorem dottedOwner_of_cut {s owner name : List Char}
    (found : Text.cutLast? '.' s = some (owner, name)) :
    dottedOwner s = owner.map dotted ++ '.' :: name := by
  simp only [dottedOwner, found]

theorem dottedOwner_of_dotless {s : List Char} (dotless : '.' ∉ s) : dottedOwner s = s := by
  simp only [dottedOwner, Text.cutLast?_eq_none_iff.2 dotless]

theorem cutLast?_dottedOwner (s : List Char) :
    Text.cutLast? '.' (dottedOwner s) =
      (Text.cutLast? '.' s).map (fun p => (p.1.map dotted, p.2)) := by
  cases found : Text.cutLast? '.' s with
  | none => rw [dottedOwner_of_dotless (Text.cutLast?_eq_none_iff.1 found), found]; rfl
  | some p =>
    rw [dottedOwner_of_cut found]
    exact Text.cutLast?_eq_some_iff.2 ⟨rfl, (Text.cutLast?_eq_some_iff.1 found).2⟩

@[simp] theorem dottedOwner_dottedOwner (s : List Char) :
    dottedOwner (dottedOwner s) = dottedOwner s := by
  cases found : Text.cutLast? '.' s with
  | none => rw [dottedOwner_of_dotless (Text.cutLast?_eq_none_iff.1 found),
      dottedOwner_of_dotless (Text.cutLast?_eq_none_iff.1 found)]
  | some p =>
    have again := cutLast?_dottedOwner s
    rw [found] at again
    rw [dottedOwner_of_cut again, dottedOwner_of_cut found, map_dotted_map_dotted]

@[simp] theorem map_dotted_dottedOwner (s : List Char) :
    (dottedOwner s).map dotted = s.map dotted := by
  cases found : Text.cutLast? '.' s with
  | none => rw [dottedOwner_of_dotless (Text.cutLast?_eq_none_iff.1 found)]
  | some p =>
    obtain ⟨rfl, -⟩ := Text.cutLast?_eq_some_iff.1 found
    rw [dottedOwner_of_cut found]
    simp

/-- A qualified field with its type in the dotted spelling. -/
def dottedField (qualified : String) : String := String.ofList (dottedOwner qualified.toList)

@[simp] theorem toList_dottedField (qualified : String) :
    (dottedField qualified).toList = dottedOwner qualified.toList :=
  String.toList_ofList

@[simp] theorem dottedField_dottedField (qualified : String) :
    dottedField (dottedField qualified) = dottedField qualified :=
  String.toList_injective (by simp)

/-- Only the last dot counts, so a type put before a field may be dotted
first. -/
theorem dottedField_append (typeName field : String) :
    dottedField (dottedText typeName ++ "." ++ field) = dottedField (typeName ++ "." ++ field) := by
  cases found : Text.cutLast? '.' field.toList with
  | none =>
    have last := Text.cutLast?_eq_none_iff.1 found
    have spelled : Text.cutLast? '.' (dottedText typeName ++ "." ++ field).toList =
        some (typeName.toList.map dotted, field.toList) :=
      Text.cutLast?_eq_some_iff.2 ⟨by simp, last⟩
    have given : Text.cutLast? '.' (typeName ++ "." ++ field).toList =
        some (typeName.toList, field.toList) :=
      Text.cutLast?_eq_some_iff.2 ⟨by simp, last⟩
    rw [dottedField, dottedOwner_of_cut spelled, dottedField, dottedOwner_of_cut given,
      map_dotted_map_dotted]
  | some p =>
    obtain ⟨inner, rest⟩ := p
    obtain ⟨split, last⟩ := Text.cutLast?_eq_some_iff.1 found
    have spelled : Text.cutLast? '.' (dottedText typeName ++ "." ++ field).toList =
        some (typeName.toList.map dotted ++ '.' :: inner, rest) :=
      Text.cutLast?_eq_some_iff.2 ⟨by simp [split], last⟩
    have given : Text.cutLast? '.' (typeName ++ "." ++ field).toList =
        some (typeName.toList ++ '.' :: inner, rest) :=
      Text.cutLast?_eq_some_iff.2 ⟨by simp [split], last⟩
    rw [dottedField, dottedOwner_of_cut spelled, dottedField, dottedOwner_of_cut given]
    simp

theorem splitField_dottedField (qualified : String) :
    splitField (dottedField qualified) =
      match splitField qualified with
      | .ok (typeName, field) => .ok (dottedText typeName, field)
      | .error _ => .error (.unqualifiedField (dottedField qualified)) := by
  simp only [splitField, toList_dottedField, cutLast?_dottedOwner]
  cases Text.cutLast? '.' qualified.toList with
  | none => rfl
  | some p =>
    simp only [Option.map_some, List.isEmpty_map]
    split_ifs
    · rfl
    · simp only [Except.ok.injEq, Prod.mk.injEq, and_true]
      exact String.toList_injective (by simp)

theorem splitField_error {qualified : String} {e : SettingsError}
    (failed : splitField qualified = .error e) : e = .unqualifiedField qualified := by
  unfold splitField at failed
  split at failed
  · split at failed
    · cases failed
      rfl
    · cases failed
  · cases failed
    rfl

/-! ### Type patterns -/

def PatternFault.withDots : PatternFault → PatternFault
  | .unknownModifier word => .unknownModifier (dottedText word)
  | fault => fault

/-- An error with the texts it repeats in the dotted spelling. -/
def PatternError.withDots : PatternError → PatternError
  | .empty => .empty
  | .malformed pattern fault => .malformed (dottedText pattern) fault.withDots

@[simp] theorem PatternFault.withDots_withDots (fault : PatternFault) :
    fault.withDots.withDots = fault.withDots := by
  cases fault <;> simp [withDots]

@[simp] theorem PatternError.withDots_withDots (e : PatternError) :
    e.withDots.withDots = e.withDots := by
  cases e <;> simp [withDots]

theorem isBlank_dotted (c : Char) : Text.isBlank (dotted c) = Text.isBlank c := by
  unfold dotted
  split
  · rename_i same
    subst same
    decide
  · rfl

theorem trim_map_dotted (s : List Char) : Text.trim (s.map dotted) = (Text.trim s).map dotted := by
  have same : Text.isBlank ∘ dotted = Text.isBlank := funext isBlank_dotted
  simp only [Text.trim, List.dropWhile_map, same, ← List.map_reverse]

theorem all_isBlank_map_dotted (s : List Char) :
    (s.map dotted).all Text.isBlank = s.all Text.isBlank := by
  simp only [List.all_map, Function.comp_def, isBlank_dotted]

@[simp] theorem isBlankText_dottedText (text : String) :
    Text.isBlankText (dottedText text) = Text.isBlankText text := by
  rw [Text.isBlankText, toList_dottedText, all_isBlank_map_dotted, Text.isBlankText]

theorem ofList_map_dotted (s : List Char) :
    String.ofList (s.map dotted) = dottedText (String.ofList s) :=
  String.toList_injective (by simp)

theorem cutSubtypes_map_dotted (s : List Char) :
    TypePattern.cutSubtypes (s.map dotted) =
      ((TypePattern.cutSubtypes s).1.map dotted, (TypePattern.cutSubtypes s).2) := by
  have last : (s.map dotted).getLast? = some '+' ↔ s.getLast? = some '+' := by
    simp [List.getLast?_map, Option.map_eq_some_iff, dotted_eq_iff]
  unfold TypePattern.cutSubtypes
  by_cases plus : s.getLast? = some '+'
  · rw [if_pos (last.2 plus), if_pos plus, List.map_dropLast]
  · rw [if_neg (mt last.1 plus), if_neg plus]

/-- Type patterns have no modifiers. -/
theorem TypePattern.withDots_of_glob? {body : List Char} {fault : PatternFault}
    (failed : TypePattern.glob? body = .error fault) : fault.withDots = fault := by
  unfold TypePattern.glob? TypePattern.fault? Glob.bounded? at failed
  split at failed
  · rename_i found
    cases failed
    split at found
    · cases found
      rfl
    · split at found
      · cases found
        rfl
      · split at found
        · cases found
          rfl
        · cases found
  · split at failed
    · cases failed
    · cases failed
      rfl

/-- The dotted spelling of a pattern is compiled to the same pattern. -/
theorem compile_dottedText (pattern : String) :
    TypePattern.compile (dottedText pattern) =
      (TypePattern.compile pattern).mapError PatternError.withDots := by
  simp only [TypePattern.compile, toList_dottedText, trim_map_dotted, List.isEmpty_map,
    cutSubtypes_map_dotted, map_dotted_map_dotted]
  split
  · rfl
  · split
    · rename_i fault failed
      simp only [Except.mapError, PatternError.withDots, TypePattern.withDots_of_glob? failed]
    · rfl

theorem matchType_dottedText (pattern : String) (ty : TypeDescriptor) :
    matchType (dottedText pattern) ty =
      (matchType pattern ty).mapError PatternError.withDots := by
  simp only [matchType, compile_dottedText]
  cases TypePattern.compile pattern <;> rfl

/-! ### Rules -/

def Rule.withDots (rule : Rule) : Rule := { rule with pattern := dottedText rule.pattern }

namespace RuleRegistry

def withDots (r : RuleRegistry) : RuleRegistry :=
  { r with
    rules := r.rules.map Rule.withDots
    permanentExcludes := r.permanentExcludes.map dottedText
    nonPortable := r.nonPortable.map dottedText }

theorem firstDisposition_withDots (ty : TypeDescriptor) (rules : List Rule) :
    firstDisposition ty (rules.map Rule.withDots) =
      (firstDisposition ty rules).mapError PatternError.withDots := by
  induction rules with
  | nil => rfl
  | cons rule rest ih =>
    simp only [List.map_cons, firstDisposition, Rule.withDots, matchType_dottedText]
    cases matchType rule.pattern ty with
    | error e => rfl
    | ok here =>
      cases here with
      | true => rfl
      | false => exact ih

theorem anyMatches_dottedText (ty : TypeDescriptor) (patterns : List String) :
    anyMatches ty (patterns.map dottedText) =
      (anyMatches ty patterns).mapError PatternError.withDots := by
  induction patterns with
  | nil => rfl
  | cons p rest ih =>
    simp only [List.map_cons, anyMatches, matchType_dottedText]
    cases matchType p ty with
    | error e => rfl
    | ok here =>
      cases here with
      | true => rfl
      | false => exact ih

section Decisions

variable (r : RuleRegistry) (ty : TypeDescriptor)

@[simp] theorem allowsDynamicSubtypes_withDots :
    r.withDots.allowsDynamicSubtypes = r.allowsDynamicSubtypes := rfl

@[simp] theorem isInternal_withDots (name : String) :
    r.withDots.isInternal name = r.isInternal name := rfl

@[simp] theorem disposition_withDots :
    r.withDots.disposition ty = (r.disposition ty).mapError PatternError.withDots :=
  firstDisposition_withDots ty r.rules

@[simp] theorem isPermanentlyExcluded_withDots :
    r.withDots.isPermanentlyExcluded ty =
      (r.isPermanentlyExcluded ty).mapError PatternError.withDots :=
  anyMatches_dottedText ty r.permanentExcludes

@[simp] theorem isNonPortable_withDots :
    r.withDots.isNonPortable ty = (r.isNonPortable ty).mapError PatternError.withDots :=
  anyMatches_dottedText ty r.nonPortable

end Decisions

end RuleRegistry

end ClassPolicy
