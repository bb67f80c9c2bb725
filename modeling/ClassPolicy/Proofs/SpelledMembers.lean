import ClassPolicy.Proofs.MemberForms
import ClassPolicy.Proofs.Spelling

/-!
# Member patterns in the dotted spelling

A member pattern has type patterns in it: the return type, the type that
qualifies the member name, and the entries of the parameter list. In the
dotted spelling every character keeps its place, and the slashes of the types
are dots. The member name stays as it is, and so does an entry that would turn
into `..`. What is compiled is the same.
-/

set_option autoImplicit false

namespace ClassPolicy

open Text

/-! ### The dotted spelling of a member pattern -/

/-- An entry of a parameter list. Only `..` itself stands for any run. -/
def dottedEntry (entry : List Char) : List Char :=
  if (trim entry).map dotted = ['.', '.'] then entry else entry.map dotted

def dottedParameters (list : List Char) : List Char :=
  [','].intercalate ((list.splitOn ',').map dottedEntry)

/-- What follows the parenthesis that opens the parameter list. -/
def dottedTail (tail : List Char) : List Char :=
  match cutLast? ')' tail with
  | some (list, rest) => dottedParameters list ++ ')' :: rest
  | none => tail

/-- A member pattern with its types in the dotted spelling. -/
def dottedMember (pattern : String) : String :=
  match cutFirst? '(' pattern.toList with
  | some (head, tail) => String.ofList (dottedOwner head ++ '(' :: dottedTail tail)
  | none => pattern

/-- Texts that are spelled alike have the same characters, dots and slashes
aside. -/
theorem mem_iff_of_alike {c : Char} (slash : c ≠ '/') (dot : c ≠ '.') {s t : List Char}
    (alike : s.map dotted = t.map dotted) : c ∈ s ↔ c ∈ t := by
  have mem_map : ∀ u : List Char, c ∈ u.map dotted ↔ c ∈ u := by
    simp [List.mem_map, dotted_eq_iff slash dot]
  rw [← mem_map, alike, mem_map]

@[simp] theorem map_dotted_dottedEntry (entry : List Char) :
    (dottedEntry entry).map dotted = entry.map dotted := by
  unfold dottedEntry
  split_ifs <;> simp

theorem dottedEntry_dottedEntry (entry : List Char) :
    dottedEntry (dottedEntry entry) = dottedEntry entry := by
  by_cases run : (trim entry).map dotted = ['.', '.']
  · have unchanged : dottedEntry entry = entry := if_pos run
    rw [unchanged, unchanged]
  · have again : (trim (entry.map dotted)).map dotted ≠ ['.', '.'] := by
      rwa [trim_map_dotted, map_dotted_map_dotted]
    rw [dottedEntry, dottedEntry, if_neg run, if_neg again, map_dotted_map_dotted]

theorem splitOn_dottedParameters (list : List Char) :
    (dottedParameters list).splitOn ',' = (list.splitOn ',').map dottedEntry := by
  refine List.splitOn_intercalate ',' ?_ (by simp [List.splitOn_ne_nil])
  rintro _ member
  obtain ⟨entry, part, rfl⟩ := List.mem_map.1 member
  rw [mem_iff_of_alike (by decide) (by decide) (map_dotted_dottedEntry entry)]
  exact not_mem_of_mem_splitOn part

theorem map_dotted_intercalate (parts : List (List Char)) :
    ([','].intercalate parts).map dotted = [','].intercalate (parts.map (List.map dotted)) := by
  induction parts with
  | nil => rfl
  | cons part rest ih =>
    cases rest with
    | nil => simp [List.intercalate_singleton]
    | cons next rest =>
      rw [List.intercalate_cons_cons, List.map_append, List.map_append, ih]
      exact List.intercalate_cons_cons.symm

@[simp] theorem map_dotted_dottedParameters (list : List Char) :
    (dottedParameters list).map dotted = list.map dotted := by
  have entries : List.map dotted ∘ dottedEntry = List.map dotted :=
    funext map_dotted_dottedEntry
  rw [dottedParameters, map_dotted_intercalate, List.map_map, entries, ← map_dotted_intercalate,
    List.intercalate_splitOn]

theorem dottedParameters_dottedParameters (list : List Char) :
    dottedParameters (dottedParameters list) = dottedParameters list := by
  have entries : dottedEntry ∘ dottedEntry = dottedEntry := funext dottedEntry_dottedEntry
  rw [dottedParameters, splitOn_dottedParameters, List.map_map, entries]
  rfl

theorem dottedTail_of_cut {tail list rest : List Char}
    (found : cutLast? ')' tail = some (list, rest)) :
    dottedTail tail = dottedParameters list ++ ')' :: rest := by
  simp only [dottedTail, found]

theorem dottedTail_of_open {tail : List Char} (missing : ')' ∉ tail) : dottedTail tail = tail := by
  simp only [dottedTail, cutLast?_eq_none_iff.2 missing]

@[simp] theorem map_dotted_dottedTail (tail : List Char) :
    (dottedTail tail).map dotted = tail.map dotted := by
  cases found : cutLast? ')' tail with
  | none => rw [dottedTail_of_open (cutLast?_eq_none_iff.1 found)]
  | some p =>
    obtain ⟨rfl, -⟩ := cutLast?_eq_some_iff.1 found
    rw [dottedTail_of_cut found, List.map_append, map_dotted_dottedParameters, List.map_append]

theorem dottedTail_dottedTail (tail : List Char) :
    dottedTail (dottedTail tail) = dottedTail tail := by
  cases found : cutLast? ')' tail with
  | none =>
    have unchanged := dottedTail_of_open (cutLast?_eq_none_iff.1 found)
    rw [unchanged, unchanged]
  | some p =>
    obtain ⟨list, rest⟩ := p
    have again : cutLast? ')' (dottedTail tail) = some (dottedParameters list, rest) := by
      rw [dottedTail_of_cut found]
      exact cutLast?_eq_some_iff.2 ⟨rfl, (cutLast?_eq_some_iff.1 found).2⟩
    rw [dottedTail_of_cut again, dottedTail_of_cut found, dottedParameters_dottedParameters]

theorem dottedMember_of_cut {pattern : String} {head tail : List Char}
    (found : cutFirst? '(' pattern.toList = some (head, tail)) :
    dottedMember pattern = String.ofList (dottedOwner head ++ '(' :: dottedTail tail) := by
  simp only [dottedMember, found]

theorem dottedMember_of_plain {pattern : String} (missing : '(' ∉ pattern.toList) :
    dottedMember pattern = pattern := by
  simp only [dottedMember, cutFirst?_eq_none_iff.2 missing]

theorem cutFirst?_dottedMember {pattern : String} {head tail : List Char}
    (found : cutFirst? '(' pattern.toList = some (head, tail)) :
    cutFirst? '(' (dottedMember pattern).toList = some (dottedOwner head, dottedTail tail) := by
  rw [dottedMember_of_cut found, String.toList_ofList]
  refine cutFirst?_eq_some_iff.2 ⟨rfl, ?_⟩
  rw [mem_iff_of_alike (by decide) (by decide) (map_dotted_dottedOwner head)]
  exact (cutFirst?_eq_some_iff.1 found).2

@[simp] theorem dottedText_dottedMember (pattern : String) :
    dottedText (dottedMember pattern) = dottedText pattern := by
  cases found : cutFirst? '(' pattern.toList with
  | none => rw [dottedMember_of_plain (cutFirst?_eq_none_iff.1 found)]
  | some p =>
    apply String.toList_injective
    rw [toList_dottedText, toList_dottedText, dottedMember_of_cut found, String.toList_ofList,
      (cutFirst?_eq_some_iff.1 found).1]
    simp

example : dottedMember "!static a/b/C x/Y.put*(java/lang.String, ..)" =
    "!static a.b.C x.Y.put*(java.lang.String, ..)" := by decide +kernel

@[simp] theorem dottedMember_dottedMember (pattern : String) :
    dottedMember (dottedMember pattern) = dottedMember pattern := by
  cases found : cutFirst? '(' pattern.toList with
  | none =>
    have unchanged := dottedMember_of_plain (cutFirst?_eq_none_iff.1 found)
    rw [unchanged, unchanged]
  | some p =>
    rw [dottedMember_of_cut (cutFirst?_dottedMember found), dottedOwner_dottedOwner,
      dottedTail_dottedTail, dottedMember_of_cut found]

/-! ### Outlines -/

namespace MemberPattern

def Outline.withDots (o : Outline) : Outline where
  modifiers := o.modifiers.map (List.map dotted)
  returns := o.returns.map dotted
  declaring := o.declaring.map dotted
  name := o.name
  parameters := dottedParameters o.parameters

/-- What the words before a parameter list say. -/
def outlineOf (words : List (List Char)) (parameters : List Char) : Except PatternFault Outline :=
  match words.reverse with
  | [] => .error .missingMemberName
  | [_] => .error .missingReturnType
  | qualified :: returns :: modifiers =>
    match cutLast? '.' qualified with
    | none => .error .unqualifiedMember
    | some (declaring, name) => .ok ⟨modifiers.reverse, returns, declaring, name, parameters⟩

theorem outline?_of_cut {text head tail : List Char}
    (found : cutFirst? '(' text = some (head, tail)) :
    outline? text =
      if tail.getLast? ≠ some ')' || tail.contains '(' then .error .openParameterList
      else outlineOf (words head) tail.dropLast := by
  simp only [outline?, found]
  rfl

theorem words_map_dotted (s : List Char) :
    words (s.map dotted) = (words s).map (List.map dotted) := by
  obtain ⟨ws, spaced⟩ := exists_spaced s
  have blanks : ∀ {t : List Char} {b : Bool}, (∀ c ∈ t, isBlank c = b) →
      ∀ c ∈ t.map dotted, isBlank c = b := by
    intro t b all c member
    obtain ⟨d, inside, rfl⟩ := List.mem_map.1 member
    rw [isBlank_dotted]
    exact all d inside
  have mapped : Spaced (ws.map (List.map dotted)) (s.map dotted) := by
    induction spaced with
    | blank only => exact .blank (blanks only)
    | word only nonempty solid apart later ih =>
      rw [List.map_append, List.map_append]
      refine .word (blanks only) (by simpa using nonempty) (blanks solid) ?_ ih
      intro c first
      rw [List.head?_map] at first
      obtain ⟨d, inside, rfl⟩ := Option.map_eq_some_iff.1 first
      rw [isBlank_dotted]
      exact apart d inside
  rw [mapped.words_eq, spaced.words_eq]

theorem mem_of_mem_words {s word : List Char} {c : Char} (listed : word ∈ words s)
    (member : c ∈ word) : c ∈ s := by
  obtain ⟨ws, spaced⟩ := exists_spaced s
  rw [spaced.words_eq] at listed
  induction spaced with
  | blank only => cases listed
  | word only nonempty solid apart later ih =>
    rcases List.mem_cons.1 listed with rfl | listed
    · simp [member]
    · exact List.mem_append_right _ (ih listed)

/-- A member name without a dot in it is not qualified. -/
theorem outlineOf_of_dotless {word : List Char} (dotless : '.' ∉ word) (before : List (List Char))
    (parameters : List Char) :
    outlineOf (before ++ [word]) parameters =
      .error (if before = [] then .missingReturnType else .unqualifiedMember) := by
  have cut := cutLast?_eq_none_iff.2 dotless
  rcases List.eq_nil_or_concat before with rfl | ⟨front, last, rfl⟩
  · rfl
  · simp [outlineOf, cut]

theorem outlineOf_of_qualified {name : List Char} (dotless : '.' ∉ name)
    (modifiers : List (List Char)) (returns declaring parameters : List Char) :
    outlineOf (modifiers ++ [returns, declaring ++ '.' :: name]) parameters =
      .ok ⟨modifiers, returns, declaring, name, parameters⟩ := by
  have cut : cutLast? '.' (declaring ++ '.' :: name) = some (declaring, name) :=
    cutLast?_eq_some_iff.2 ⟨rfl, dotless⟩
  simp [outlineOf, cut]

/-- The word around the last dot, the words before it, and those after it, which
are not dotted. -/
theorem words_dotted_through (owner name : List Char) :
    words (owner.map dotted ++ '.' :: name) =
      (words (owner.rdropWhile (!isBlank ·))).map (List.map dotted) ++
        ((owner.rtakeWhile (!isBlank ·)).map dotted ++ '.' :: name.takeWhile (!isBlank ·)) ::
          words (name.dropWhile (!isBlank ·)) := by
  have solid : (fun c => !isBlank c) ∘ dotted = (!isBlank ·) :=
    funext fun c => congrArg not (isBlank_dotted c)
  have before : (owner.map dotted).rdropWhile (!isBlank ·) =
      (owner.rdropWhile (!isBlank ·)).map dotted := by
    simp [List.rdropWhile, ← List.map_reverse, List.dropWhile_map, solid]
  have start : (owner.map dotted).rtakeWhile (!isBlank ·) =
      (owner.rtakeWhile (!isBlank ·)).map dotted := by
    simp [List.rtakeWhile, ← List.map_reverse, List.takeWhile_map, solid]
  rw [words_through _ _ (by decide), before, start, words_map_dotted]

theorem outlineOf_dottedOwner (head parameters : List Char) :
    outlineOf (words (dottedOwner head)) (dottedParameters parameters) =
      (outlineOf (words head) parameters).map Outline.withDots := by
  cases found : cutLast? '.' head with
  | none =>
    have dotless := cutLast?_eq_none_iff.1 found
    rw [dottedOwner_of_dotless dotless]
    rcases List.eq_nil_or_concat (words head) with none | ⟨before, word, split⟩
    · rw [none]
      rfl
    · rw [List.concat_eq_append] at split
      have plain : '.' ∉ word := fun member =>
        dotless (mem_of_mem_words (by rw [split]; simp) member)
      rw [split, outlineOf_of_dotless plain, outlineOf_of_dotless plain]
      rfl
  | some p =>
    obtain ⟨owner, name⟩ := p
    obtain ⟨rfl, dotless⟩ := cutLast?_eq_some_iff.1 found
    rw [dottedOwner_of_cut found, words_dotted_through, words_through _ _ (by decide)]
    -- The last dot is in the last word, or that word has none.
    rcases List.eq_nil_or_concat (words (name.dropWhile (!isBlank ·))) with
      none | ⟨later, word, split⟩
    · have dotless' : '.' ∉ name.takeWhile (!isBlank ·) :=
        fun member => dotless (List.takeWhile_subset _ member)
      rw [none]
      rcases List.eq_nil_or_concat (words (owner.rdropWhile (!isBlank ·))) with
        none' | ⟨modifiers, returns, split⟩
      · rw [none']
        rfl
      · rw [split, List.concat_eq_append, List.map_append, List.append_assoc, List.append_assoc]
        exact (outlineOf_of_qualified dotless' _ _ _ _).trans
          (congrArg (Except.map Outline.withDots)
            (outlineOf_of_qualified dotless' modifiers returns _ parameters)).symm
    · rw [List.concat_eq_append] at split
      have plain : '.' ∉ word := fun member =>
        dotless (List.dropWhile_subset _ (mem_of_mem_words (by rw [split]; simp) member))
      rw [split, ← List.cons_append, ← List.append_assoc, outlineOf_of_dotless plain,
        ← List.cons_append, ← List.append_assoc, outlineOf_of_dotless plain]
      simp [Except.map]

theorem cutFirst?_trim {s head tail : List Char} {c : Char} (solid : isBlank c = false)
    (found : cutFirst? c s = some (head, tail)) :
    cutFirst? c (trim s) = some (head.dropWhile isBlank, tail.rdropWhile isBlank) := by
  obtain ⟨rfl, first⟩ := cutFirst?_eq_some_iff.1 found
  rw [trim_through _ _ solid]
  exact cutFirst?_eq_some_iff.2 ⟨rfl, fun member => first (List.dropWhile_subset _ member)⟩

/-- What follows the first parenthesis ends with another one in both spellings
or in neither. -/
theorem dottedTail_closes (tail : List Char) :
    (∃ list, tail.rdropWhile isBlank = list ++ [')'] ∧
      (dottedTail tail).rdropWhile isBlank = dottedParameters list ++ [')']) ∨
    (tail.rdropWhile isBlank).getLast? ≠ some ')' ∧
      ((dottedTail tail).rdropWhile isBlank).getLast? ≠ some ')' := by
  cases closed : cutLast? ')' tail with
  | none =>
    have missing := cutLast?_eq_none_iff.1 closed
    have last : (tail.rdropWhile isBlank).getLast? ≠ some ')' := fun last =>
      missing ((List.rdropWhile_prefix isBlank _).subset (List.mem_of_getLast? last))
    rw [dottedTail_of_open missing]
    exact .inr ⟨last, last⟩
  | some p =>
    obtain ⟨list, rest⟩ := p
    obtain ⟨rfl, missing⟩ := cutLast?_eq_some_iff.1 closed
    rw [dottedTail_of_cut closed, rdropWhile_through _ _ (by decide),
      rdropWhile_through _ _ (by decide)]
    rcases List.eq_nil_or_concat (rest.rdropWhile isBlank) with none | ⟨front, last, ends⟩
    · rw [none]
      exact .inl ⟨list, rfl, rfl⟩
    · -- Something else follows the last parenthesis.
      have other : last ≠ ')' := by
        rintro rfl
        exact missing ((List.rdropWhile_prefix isBlank rest).subset (by rw [ends]; simp))
      have trailing : ∀ l : List Char, (l ++ ')' :: front.concat last).getLast? ≠ some ')' := by
        intro l
        rw [List.concat_eq_append, ← List.cons_append, ← List.append_assoc, List.getLast?_concat]
        simpa using other
      rw [ends]
      exact .inr ⟨trailing _, trailing _⟩

/-- The dotted spelling has the same outline, with its types in that
spelling. -/
theorem outline?_dottedMember (pattern : String) :
    outline? (trim (dottedMember pattern).toList) =
      (outline? (trim pattern.toList)).map Outline.withDots := by
  cases found : cutFirst? '(' pattern.toList with
  | none =>
    have missing := cutFirst?_eq_none_iff.1 found
    have missing' : cutFirst? '(' (trim pattern.toList) = none :=
      cutFirst?_eq_none_iff.2 fun member => missing (trim_subset _ member)
    rw [dottedMember_of_plain missing, outline?, missing']
    rfl
  | some p =>
    obtain ⟨head, tail⟩ := p
    rw [outline?_of_cut (cutFirst?_trim (by decide) found),
      outline?_of_cut (cutFirst?_trim (by decide) (cutFirst?_dottedMember found)),
      words_dropWhile_isBlank, words_dropWhile_isBlank]
    rcases dottedTail_closes tail with ⟨list, given, spelled⟩ | ⟨given, spelled⟩
    · have opened : '(' ∈ dottedParameters list ↔ '(' ∈ list :=
        mem_iff_of_alike (by decide) (by decide) (map_dotted_dottedParameters list)
      rw [given, spelled]
      by_cases again : '(' ∈ list
      · simp [opened, again, Except.map]
      · simp [opened, again, outlineOf_dottedOwner]
    · simp [given, spelled, Except.map]

/-! ### Modifiers -/

theorem lookup_dottedText (word : String) :
    modifierWords.lookup (dottedText word) = modifierWords.lookup word := by
  have plain : ∀ entry ∈ modifierWords, '/' ∉ entry.1.toList ∧ '.' ∉ entry.1.toList := by decide
  refine Option.ext fun flag => ?_
  rw [lookup_modifierWords_iff, lookup_modifierWords_iff]
  by_cases slash : '/' ∈ word.toList
  · have dot : '.' ∈ (dottedText word).toList := by
      rw [toList_dottedText]
      exact List.mem_map.2 ⟨'/', slash, rfl⟩
    exact iff_of_false (fun member => (plain _ member).2 dot)
      (fun member => (plain _ member).1 slash)
  · rw [dottedText_of_noSlash slash]

theorem modifiers?_map_dotted (tokens : List (List Char)) :
    modifiers? (tokens.map (List.map dotted)) =
      (modifiers? tokens).mapError PatternFault.withDots := by
  induction tokens with
  | nil => rfl
  | cons token rest ih =>
    rw [List.map_cons]
    by_cases negated : token.head? = some '!'
    · obtain ⟨word, rfl⟩ := List.head?_eq_some_iff.1 negated
      have kept : dotted '!' = '!' := rfl
      rw [List.map_cons, kept, modifiers?_negated, modifiers?_negated, ofList_map_dotted,
        lookup_dottedText, ih]
      cases modifierWords.lookup (String.ofList word) with
      | none => rfl
      | some flag => exact (mapError_map _ _ _).symm
    · have plain : (token.map dotted).head? ≠ some '!' := by
        rw [List.head?_map]
        intro first
        obtain ⟨c, first, same⟩ := Option.map_eq_some_iff.1 first
        rw [dotted_eq_iff (by decide) (by decide)] at same
        exact negated (by rw [first, same])
      rw [modifiers?_plain plain, modifiers?_plain negated, ofList_map_dotted,
        lookup_dottedText, ih]
      cases modifierWords.lookup (String.ofList token) with
      | none => rfl
      | some flag => exact (mapError_map _ _ _).symm

/-! ### Parameter lists -/

variable {pattern pattern' : String}

theorem parameter?_dottedEntry (alike : dottedText pattern' = dottedText pattern)
    (entry : List Char) :
    (parameter? pattern' (dottedEntry entry)).mapError PatternError.withDots =
      (parameter? pattern entry).mapError PatternError.withDots := by
  by_cases run : (trim entry).map dotted = ['.', '.']
  · have filled : (trim entry).isEmpty = false := by
      cases empty : trim entry with
      | nil => rw [empty] at run; cases run
      | cons c rest => rfl
    have unchanged : dottedEntry entry = entry := if_pos run
    simp only [unchanged, parameter?, filled, Bool.false_eq_true, if_false]
  · have other : trim entry ≠ ['.', '.'] := fun same => run (by rw [same]; rfl)
    have changed : dottedEntry entry = entry.map dotted := if_neg run
    simp only [changed, parameter?, trim_map_dotted, List.isEmpty_map, run, other, if_false,
      ofList_map_dotted, compile_dottedText]
    split_ifs
    · simp only [Except.mapError, PatternError.withDots, alike]
    · cases TypePattern.compile (String.ofList (trim entry)) <;>
        simp [Except.mapError, Except.map]

theorem parameters?_dottedParameters (alike : dottedText pattern' = dottedText pattern)
    (list : List Char) :
    (parameters? pattern' (dottedParameters list)).mapError PatternError.withDots =
      (parameters? pattern list).mapError PatternError.withDots := by
  have blank : (dottedParameters list).all isBlank = list.all isBlank := by
    rw [← all_isBlank_map_dotted, map_dotted_dottedParameters, all_isBlank_map_dotted]
  have entries : (fun entry => (parameter? pattern' entry).mapError PatternError.withDots) ∘
      dottedEntry = fun entry => (parameter? pattern entry).mapError PatternError.withDots :=
    funext (parameter?_dottedEntry alike)
  simp only [parameters?, blank, splitOn_dottedParameters]
  split_ifs
  · rfl
  · rw [mapError_map, mapError_map, mapM_mapError, mapM_mapError, List.mapM_map, entries]

/-! ### Whole patterns -/

theorem mapError_malformed {α : Type} (pattern : String) (x : Except PatternFault α) :
    (x.mapError (.malformed pattern)).mapError PatternError.withDots =
      (x.mapError PatternFault.withDots).mapError (.malformed (dottedText pattern)) := by
  cases x <;> rfl

/-- The dotted spelling of a member pattern is compiled to the same pattern. -/
theorem compile_dottedMember (pattern : String) :
    (compile (dottedMember pattern)).mapError PatternError.withDots =
      (compile pattern).mapError PatternError.withDots := by
  have alike := dottedText_dottedMember pattern
  have empty : (trim (dottedMember pattern).toList).isEmpty = (trim pattern.toList).isEmpty := by
    have blank := congrArg isBlankText alike
    rw [isBlankText_dottedText, isBlankText_dottedText] at blank
    rw [Bool.eq_iff_iff, List.isEmpty_iff, List.isEmpty_iff, trim_eq_nil_iff, trim_eq_nil_iff]
    exact Bool.eq_iff_iff.1 blank
  simp only [compile, empty, outline?_dottedMember]
  split_ifs
  · rfl
  cases outline? (trim pattern.toList) with
  | error fault => simp [bind, Except.bind, Except.mapError, Except.map, PatternError.withDots]
  | ok o =>
    have outlined : (Except.ok o).map Outline.withDots =
        (.ok o.withDots : Except PatternFault Outline) := rfl
    simp only [outlined, mapError_ok, ok_bind, mapError_bind, mapError_malformed, alike,
      Outline.withDots, modifiers?_map_dotted, ofList_map_dotted, compile_dottedText,
      parameters?_dottedParameters alike, mapError_twice PatternFault.withDots_withDots,
      mapError_twice PatternError.withDots_withDots]

end MemberPattern

theorem matchMember_dottedMember (pattern : String) (m : MemberDescriptor) :
    (matchMember (dottedMember pattern) m).mapError PatternError.withDots =
      (matchMember pattern m).mapError PatternError.withDots := by
  rw [matchMember, matchMember, mapError_map, mapError_map, MemberPattern.compile_dottedMember]

end ClassPolicy
