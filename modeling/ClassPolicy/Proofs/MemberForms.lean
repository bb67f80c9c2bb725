import ClassPolicy.Pattern.MemberPattern
import ClassPolicy.Proofs.Sequencing
import ClassPolicy.Proofs.Words

/-!
# The grammar of member patterns

A form is a member pattern taken apart: modifier words, a return type, a member
name qualified by a type, and a parameter list. Every text that is accepted is
written by a form, and every text that a form writes is accepted as long as the
automaton for the member name is not too large.
-/

set_option autoImplicit false

namespace ClassPolicy

/-- A text that is accepted as a type pattern. -/
structure TypeText where
  text : List Char
  pattern : TypePattern
  accepted : TypePattern.compile (String.ofList text) = .ok pattern

/-- A modifier that is asked for or, negated, refused. -/
structure ModifierWord where
  negated : Bool
  word : String
  flag : Modifier
  known : (word, flag) ∈ MemberPattern.modifierWords

/-- What an entry of a parameter list says, blanks around it aside. -/
inductive EntryReads (entry : List Char) : ParameterPattern → Prop
  | anyRun (run : Text.trim entry = ['.', '.']) : EntryReads entry .anyRun
  | type {p : TypePattern}
      (accepted : TypePattern.compile (String.ofList (Text.trim entry)) = .ok p) :
      EntryReads entry (.type p)

/-- What a parameter list says: nothing, or something with each entry. -/
inductive ListReads (list : List Char) : List ParameterPattern → Prop
  | blank (only : ∀ c ∈ list, Text.isBlank c = true) : ListReads list []
  | entries {parameters : List ParameterPattern}
      (read : List.Forall₂ EntryReads (list.splitOn ',') parameters) : ListReads list parameters

structure MemberForm where
  modifiers : List ModifierWord
  returns : TypeText
  declaring : TypeText
  name : List Char
  nonempty : name ≠ []
  legal : ∀ c ∈ name, MemberPattern.isNameChar c = true
  list : List Char
  parameters : List ParameterPattern
  listed : ListReads list parameters

/-! ### Modifiers -/

namespace ModifierWord

def text (w : ModifierWord) : List Char :=
  if w.negated then '!' :: w.word.toList else w.word.toList

/-- The flags asked for and those refused, with one word more. -/
def add (w : ModifierWord) (flags : List Modifier × List Modifier) :
    List Modifier × List Modifier :=
  if w.negated then (flags.1, w.flag :: flags.2) else (w.flag :: flags.1, flags.2)

def flagsOf (ws : List ModifierWord) : List Modifier × List Modifier := ws.foldr add ([], [])

end ModifierWord

namespace MemberPattern

theorem lookup_modifierWords_iff {word : String} {flag : Modifier} :
    modifierWords.lookup word = some flag ↔ (word, flag) ∈ modifierWords := by
  constructor
  · intro found
    obtain ⟨before, after, split, -⟩ := List.lookup_eq_some_iff.1 found
    rw [split]
    exact List.mem_append_right _ List.mem_cons_self
  · intro member
    have all : ∀ entry ∈ modifierWords, modifierWords.lookup entry.1 = some entry.2 := by decide
    exact all _ member

theorem plain_of_known : ∀ entry ∈ modifierWords, entry.1.toList.head? ≠ some '!' := by decide

theorem modifiers?_negated (word : List Char) (rest : List (List Char)) :
    modifiers? (('!' :: word) :: rest) =
      match modifierWords.lookup (String.ofList word) with
      | none => .error (.unknownModifier (String.ofList word))
      | some flag => (modifiers? rest).map (fun p => (p.1, flag :: p.2)) := by
  rw [modifiers?]
  rfl

theorem modifiers?_plain {word : List Char} (plain : word.head? ≠ some '!')
    (rest : List (List Char)) :
    modifiers? (word :: rest) =
      match modifierWords.lookup (String.ofList word) with
      | none => .error (.unknownModifier (String.ofList word))
      | some flag => (modifiers? rest).map (fun p => (flag :: p.1, p.2)) := by
  rw [modifiers?]
  · cases modifierWords.lookup (String.ofList word) <;> rfl
  · rintro tail rfl
    exact plain rfl

theorem modifiers?_text_cons (w : ModifierWord) (rest : List (List Char)) :
    modifiers? (w.text :: rest) = (modifiers? rest).map w.add := by
  have known := lookup_modifierWords_iff.2 w.known
  cases negated : w.negated with
  | true =>
    simp only [ModifierWord.text, negated, if_true]
    have added : w.add = fun p => (p.1, w.flag :: p.2) := by
      funext p
      simp [ModifierWord.add, negated]
    rw [modifiers?_negated, String.ofList_toList, known, added]
  | false =>
    simp only [ModifierWord.text, negated, Bool.false_eq_true, if_false]
    have added : w.add = fun p => (w.flag :: p.1, p.2) := by
      funext p
      simp [ModifierWord.add, negated]
    rw [modifiers?_plain (plain_of_known _ w.known), String.ofList_toList, known, added]

theorem modifiers?_texts (ws : List ModifierWord) :
    modifiers? (ws.map ModifierWord.text) = .ok (ModifierWord.flagsOf ws) := by
  induction ws with
  | nil => rfl
  | cons w ws ih =>
    rw [List.map_cons, modifiers?_text_cons, ih]
    rfl

/-- A word is read only if it is a modifier word. -/
theorem exists_word {token : List Char} {rest : List (List Char)}
    {flags : List Modifier × List Modifier} (read : modifiers? (token :: rest) = .ok flags) :
    ∃ w : ModifierWord, w.text = token := by
  by_cases negated : token.head? = some '!'
  · obtain ⟨word, rfl⟩ := List.head?_eq_some_iff.1 negated
    rw [modifiers?_negated] at read
    split at read
    · cases read
    · rename_i flag found
      exact ⟨⟨true, _, flag, lookup_modifierWords_iff.1 found⟩, by simp [ModifierWord.text]⟩
  · rw [modifiers?_plain negated] at read
    split at read
    · cases read
    · rename_i flag found
      exact ⟨⟨false, _, flag, lookup_modifierWords_iff.1 found⟩, by simp [ModifierWord.text]⟩

theorem exists_words {tokens : List (List Char)} {flags : List Modifier × List Modifier}
    (read : modifiers? tokens = .ok flags) :
    ∃ ws : List ModifierWord, ws.map ModifierWord.text = tokens := by
  induction tokens generalizing flags with
  | nil => exact ⟨[], rfl⟩
  | cons token rest ih =>
    obtain ⟨w, rfl⟩ := exists_word read
    rw [modifiers?_text_cons] at read
    cases later : modifiers? rest with
    | error fault =>
      rw [later] at read
      cases read
    | ok flags' =>
      obtain ⟨ws, rfl⟩ := ih later
      exact ⟨w :: ws, rfl⟩

/-! ### Parameter lists -/

theorem parameter?_eq_ok_iff {pattern : String} {entry : List Char} {p : ParameterPattern} :
    parameter? pattern entry = .ok p ↔ EntryReads entry p := by
  unfold parameter?
  constructor
  · intro read
    simp only at read
    split at read
    · cases read
    · split at read
      · rename_i run
        cases read
        exact .anyRun run
      · cases accepted : TypePattern.compile (String.ofList (Text.trim entry)) with
        | error fault =>
          rw [accepted] at read
          cases read
        | ok t =>
          rw [accepted] at read
          cases read
          exact .type accepted
  · intro reads
    cases reads with
    | anyRun run =>
      rw [run]
      rfl
    | @type t accepted =>
      -- Neither an empty text nor two dots are a type pattern.
      have filled : (Text.trim entry).isEmpty = false := by
        rw [Bool.eq_false_iff]
        intro none
        rw [List.isEmpty_iff.1 none] at accepted
        cases accepted
      have other : Text.trim entry ≠ ['.', '.'] := by
        intro run
        rw [run] at accepted
        cases accepted
      simp only [filled, other, accepted, Bool.false_eq_true, if_false]
      rfl

/-- Nothing can be read from an empty entry. -/
theorem not_reads_blank {list : List Char} (only : list.all Text.isBlank = true)
    (parameters : List ParameterPattern) :
    ¬List.Forall₂ EntryReads (list.splitOn ',') parameters := by
  intro read
  have single : list.splitOn ',' = [list] := by
    refine List.splitOn_eq_singleton fun member => ?_
    have blank := List.all_eq_true.1 only _ member
    cases blank
  rw [single] at read
  cases read with
  | @cons _ p _ _ reads =>
    have first : parameter? "" list = .ok p := parameter?_eq_ok_iff.2 reads
    rw [parameter?, (Text.trim_eq_nil_iff list).2 only] at first
    cases first

theorem parameters?_of_reads {list : List Char} {parameters : List ParameterPattern}
    (reads : ListReads list parameters) (pattern : String) :
    parameters? pattern list = .ok (mergeRuns parameters) := by
  unfold parameters?
  cases reads with
  | blank only =>
    rw [if_pos (List.all_eq_true.2 only)]
    rfl
  | entries read =>
    have filled : ¬list.all Text.isBlank = true := fun only => not_reads_blank only _ read
    rw [if_neg filled]
    have each : (list.splitOn ',').mapM (parameter? pattern) = .ok parameters := by
      refine mapM_eq_ok_iff.2 (read.imp fun entry p reads => ?_)
      exact parameter?_eq_ok_iff.2 reads
    rw [each]
    rfl

theorem exists_reads {pattern : String} {list : List Char} {merged : List ParameterPattern}
    (read : parameters? pattern list = .ok merged) : ∃ parameters, ListReads list parameters := by
  unfold parameters? at read
  split at read
  · rename_i only
    exact ⟨[], .blank (List.all_eq_true.1 only)⟩
  · cases each : (list.splitOn ',').mapM (parameter? pattern) with
    | error failure =>
      rw [each] at read
      cases read
    | ok parameters =>
      refine ⟨parameters, .entries ((mapM_eq_ok_iff.1 each).imp fun entry p reads => ?_)⟩
      exact parameter?_eq_ok_iff.1 reads

/-! ### Names -/

/-- The alias stands for the name of constructors. -/
def calledName (name : List Char) : List Char :=
  if name = constructorAlias.toList then MemberDescriptor.constructorName.toList else name

/-- The alias and what it stands for are both made of characters of names. -/
theorem legal_calledName_iff (name : List Char) :
    (∀ c ∈ calledName name, isNameChar c = true) ↔ ∀ c ∈ name, isNameChar c = true := by
  by_cases standsIn : name = constructorAlias.toList
  · rw [calledName, if_pos standsIn, standsIn]
    exact iff_of_true (List.all_eq_true.1 (by decide)) (List.all_eq_true.1 (by decide))
  · rw [calledName, if_neg standsIn]

theorem calledName_eq_nil_iff (name : List Char) : calledName name = [] ↔ name = [] := by
  by_cases standsIn : name = constructorAlias.toList
  · rw [calledName, if_pos standsIn, standsIn]
    decide
  · rw [calledName, if_neg standsIn]

def globOfName (name : List Char) : Glob := (calledName name).map namePiece

theorem nameGlob?_eq_ok_iff {name : List Char} {g : Glob} :
    nameGlob? name = .ok g ↔
      name ≠ [] ∧ (∀ c ∈ name, isNameChar c = true) ∧ (globOfName name).fits = true ∧
        globOfName name = g := by
  have called : (if name = constructorAlias.toList then
      MemberDescriptor.constructorName.toList else name) = calledName name := rfl
  rw [← legal_calledName_iff, ne_eq, ← calledName_eq_nil_iff]
  simp only [nameGlob?, called]
  cases filled : (calledName name).isEmpty with
  | true => simp_all
  | false =>
    have some : calledName name ≠ [] := by simpa using filled
    rw [if_neg Bool.false_ne_true]
    split
    · rename_i c found
      have illegal := List.find?_some found
      have member := List.mem_of_find?_eq_some found
      constructor
      · rintro ⟨⟩
      · rintro ⟨-, legal, -⟩
        rw [legal c member] at illegal
        cases illegal
    · rename_i found
      have legal : ∀ c ∈ calledName name, isNameChar c = true := by simpa using found
      rw [Glob.bounded?_eq_ok_iff]
      exact ⟨fun bounded => ⟨some, legal, bounded⟩, fun all => all.2.2⟩

/-! ### Outlines -/

theorem outline?_eq_ok_iff {text : List Char} {o : Outline} :
    outline? text = .ok o ↔
      ∃ head, text = head ++ '(' :: (o.parameters ++ [')']) ∧ '(' ∉ head ∧
        '(' ∉ o.parameters ∧
        Text.Spaced (o.modifiers ++ [o.returns, o.declaring ++ '.' :: o.name]) head ∧
        '.' ∉ o.name := by
  constructor
  · intro made
    unfold outline? at made
    split at made
    · cases made
    · rename_i head tail cut
      obtain ⟨rfl, first⟩ := Text.cutFirst?_eq_some_iff.1 cut
      split at made
      · cases made
      · rename_i shut
        rw [Bool.or_eq_true, not_or, decide_eq_true_eq, not_not, List.contains_iff_mem] at shut
        obtain ⟨list, rfl⟩ := List.getLast?_eq_some_iff.1 shut.1
        split at made
        · cases made
        · cases made
        · rename_i qualified returns modifiers reversed
          split at made
          · cases made
          · rename_i declaring name last
            cases made
            obtain ⟨rfl, dotless⟩ := Text.cutLast?_eq_some_iff.1 last
            have words := congrArg List.reverse reversed
            rw [List.reverse_reverse, Text.words_eq_iff] at words
            refine ⟨head, by simp, first, ?_, by simpa using words, dotless⟩
            intro member
            refine shut.2 (List.mem_append_left _ ?_)
            simpa using member
  · rintro ⟨head, rfl, first, only, spaced, dotless⟩
    have cut : Text.cutFirst? '(' (head ++ '(' :: (o.parameters ++ [')'])) =
        some (head, o.parameters ++ [')']) := Text.cutFirst?_eq_some_iff.2 ⟨rfl, first⟩
    have words := spaced.words_eq
    have last : Text.cutLast? '.' (o.declaring ++ '.' :: o.name) = some (o.declaring, o.name) :=
      Text.cutLast?_eq_some_iff.2 ⟨rfl, dotless⟩
    simp [outline?, cut, only, words, last]

/-! ### Whole patterns -/

theorem compile_eq_ok_iff {pattern : String} {p : MemberPattern} :
    compile pattern = .ok p ↔
      ∃ o, outline? (Text.trim pattern.toList) = .ok o ∧
        modifiers? o.modifiers = .ok (p.required, p.forbidden) ∧
        TypePattern.compile (String.ofList o.returns) = .ok p.returns ∧
        TypePattern.compile (String.ofList o.declaring) = .ok p.declaring ∧
        nameGlob? o.name = .ok p.name ∧ parameters? pattern o.parameters = .ok p.parameters := by
  unfold compile
  cases trimmed : Text.trim pattern.toList with
  | nil =>
    simp [outline?, Text.cutFirst?]
  | cons c text =>
    simp only [List.isEmpty_cons, Bool.false_eq_true, if_false, bind_eq_ok_iff,
      mapError_eq_ok_iff, Prod.exists]
    constructor
    · rintro ⟨o, made, required, forbidden, flags, returns, read, declaring, read', name, glob,
        parameters, list, built⟩
      cases built
      exact ⟨o, made, flags, read, read', glob, list⟩
    · rintro ⟨o, made, flags, read, read', glob, list⟩
      exact ⟨o, made, _, _, flags, _, read, _, read', _, glob, _, list, rfl⟩

end MemberPattern

namespace MemberForm

/-- The words before the parameter list. -/
def words (f : MemberForm) : List (List Char) :=
  f.modifiers.map ModifierWord.text ++ [f.returns.text, f.declaring.text ++ '.' :: f.name]

/-- The text is the words, blanks around and between them, and the parameter
list in parentheses, the only ones that open. -/
def Writes (f : MemberForm) (text : List Char) : Prop :=
  ∃ head, text = head ++ '(' :: (f.list ++ [')']) ∧ '(' ∉ head ∧ '(' ∉ f.list ∧
    Text.Spaced f.words head

/-- What is made of the form. -/
def compiled (f : MemberForm) : MemberPattern where
  required := (ModifierWord.flagsOf f.modifiers).1
  forbidden := (ModifierWord.flagsOf f.modifiers).2
  returns := f.returns.pattern
  declaring := f.declaring.pattern
  name := MemberPattern.globOfName f.name
  parameters := MemberPattern.mergeRuns f.parameters

def outline (f : MemberForm) : MemberPattern.Outline where
  modifiers := f.modifiers.map ModifierWord.text
  returns := f.returns.text
  declaring := f.declaring.text
  name := f.name
  parameters := f.list

theorem dotless (f : MemberForm) : '.' ∉ f.name := by
  intro member
  have legal := f.legal _ member
  cases legal

variable {pattern : String}

theorem Writes.outline? {f : MemberForm} {text : List Char} (writes : f.Writes text) :
    MemberPattern.outline? text = .ok f.outline := by
  obtain ⟨head, spelled, first, only, spaced⟩ := writes
  exact MemberPattern.outline?_eq_ok_iff.2 ⟨head, spelled, first, only, spaced, f.dotless⟩

/-- A written text is refused for the size of its member name alone. -/
theorem compile_of_writes {f : MemberForm} (writes : f.Writes (Text.trim pattern.toList))
    (p : MemberPattern) :
    MemberPattern.compile pattern = .ok p ↔
      (MemberPattern.globOfName f.name).fits = true ∧ f.compiled = p := by
  have flags := MemberPattern.modifiers?_texts f.modifiers
  have list := MemberPattern.parameters?_of_reads f.listed pattern
  rw [MemberPattern.compile_eq_ok_iff, writes.outline?]
  constructor
  · rintro ⟨o, same, flags', returns, declaring, name, list'⟩
    obtain rfl : f.outline = o := Except.ok.inj same
    obtain ⟨-, -, fits, glob⟩ := MemberPattern.nameGlob?_eq_ok_iff.1 name
    have named : MemberPattern.globOfName f.name = p.name := glob
    have asked := Except.ok.inj (flags.symm.trans flags')
    have returned := Except.ok.inj (f.returns.accepted.symm.trans returns)
    have declared := Except.ok.inj (f.declaring.accepted.symm.trans declaring)
    have listed := Except.ok.inj (list.symm.trans list')
    refine ⟨fits, ?_⟩
    rw [compiled, asked, returned, declared, listed, named]
  · rintro ⟨fits, rfl⟩
    refine ⟨f.outline, rfl, flags, f.returns.accepted, f.declaring.accepted, ?_, list⟩
    exact MemberPattern.nameGlob?_eq_ok_iff.2 ⟨f.nonempty, f.legal, fits, rfl⟩

theorem exists_writes {p : MemberPattern} (accepted : MemberPattern.compile pattern = .ok p) :
    ∃ f : MemberForm, f.Writes (Text.trim pattern.toList) := by
  obtain ⟨o, made, flags, returns, declaring, name, list⟩ :=
    MemberPattern.compile_eq_ok_iff.1 accepted
  obtain ⟨head, spelled, first, only, spaced, -⟩ := MemberPattern.outline?_eq_ok_iff.1 made
  obtain ⟨ws, texts⟩ := MemberPattern.exists_words flags
  obtain ⟨nonempty, legal, -⟩ := MemberPattern.nameGlob?_eq_ok_iff.1 name
  obtain ⟨parameters, listed⟩ := MemberPattern.exists_reads list
  refine ⟨⟨ws, ⟨o.returns, p.returns, returns⟩, ⟨o.declaring, p.declaring, declaring⟩, o.name,
    nonempty, legal, o.parameters, parameters, listed⟩, head, spelled, first, only, ?_⟩
  rw [words, texts]
  exact spaced

end MemberForm

end ClassPolicy
