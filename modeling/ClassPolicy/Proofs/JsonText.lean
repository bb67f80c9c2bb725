import ClassPolicy.Json.Reader
import ClassPolicy.Json.Writer
import Mathlib.Data.List.Forall2
import Mathlib.Tactic.Common

/-!
# Texts that write a document

A text writes a document when it holds the document's tokens in order, with
spaces between them where the grammar lets them stand. Both layouts do, and
whatever writes a document is read back as that document. Documents with
numbers are left out.
-/

set_option autoImplicit false

namespace ClassPolicy.Json

/-! ### Strings -/

theorem hexUnit?_control :
    ∀ n < 0x20, hexUnit? '0' '0' (hexDigit (n / 16)) (hexDigit (n % 16)) = some n := by
  decide

theorem scanString_short {c : Char} {n : Nat} (short : escaped? c = some n) (s : List Char) :
    scanString ('\\' :: c :: s) = (scanString s).map fun p => (n :: p.1, p.2) := by
  have other : c ≠ 'u' := by
    rintro rfl
    cases short
  cases found : scanString s <;> simp [scanString, short, other, found]

theorem scanString_control {n : Nat} (control : n < 0x20) (s : List Char) :
    scanString ('\\' :: 'u' :: '0' :: '0' :: hexDigit (n / 16) :: hexDigit (n % 16) :: s) =
      (scanString s).map fun p => (n :: p.1, p.2) := by
  cases found : scanString s <;> simp [scanString, hexUnit?_control n control, found]

theorem scanString_plain {c : Char} (quote : c ≠ '"') (backslash : c ≠ '\\')
    (plain : 0x20 ≤ c.toNat) (s : List Char) :
    scanString (c :: s) = (scanString s).map fun p => (c.toNat :: p.1, p.2) := by
  rw [scanString]
  · rw [if_neg (by simp [backslash, Nat.not_lt.2 plain])]
  all_goals simp_all

/-- Whatever its escape, a character is scanned as its code. -/
theorem scanString_escape (c : Char) (s : List Char) :
    scanString (escape c ++ s) = (scanString s).map fun p => (c.toNat :: p.1, p.2) := by
  unfold escape
  split
  next same => subst same; exact scanString_short rfl s
  split
  next same => subst same; exact scanString_short rfl s
  split
  next same => subst same; exact scanString_short rfl s
  split
  next same => subst same; exact scanString_short rfl s
  split
  next same => subst same; exact scanString_short rfl s
  split
  next same => rw [same]; exact scanString_short rfl s
  split
  next same => rw [same]; exact scanString_short rfl s
  split
  next control => exact scanString_control control s
  next quote backslash _ _ _ _ _ plain =>
    exact scanString_plain quote backslash (Nat.not_lt.1 plain) s

theorem scanString_flatMap (s rest : List Char) :
    scanString (s.flatMap escape ++ '"' :: rest) = some (s.map Char.toNat, rest) := by
  induction s with
  | nil => simp [scanString]
  | cons c s ih =>
    rw [List.flatMap_cons, List.append_assoc, scanString_escape, ih]
    rfl

theorem not_isSurrogate (c : Char) :
    isHighSurrogate c.toNat = false ∧ isLowSurrogate c.toNat = false := by
  have valid : c.toNat < 0xd800 ∨ (0xdfff < c.toNat ∧ c.toNat < 0x110000) := c.valid
  simp only [isHighSurrogate, isLowSurrogate, Bool.and_eq_false_iff, decide_eq_false_iff_not]
  omega

theorem charsOfUnits?_toNat (s : List Char) : charsOfUnits? (s.map Char.toNat) = some s := by
  induction s with
  | nil => rfl
  | cons c rest ih =>
    obtain ⟨notHigh, notLow⟩ := not_isSurrogate c
    cases rest with
    | nil => simp [charsOfUnits?, notHigh, notLow]
    | cons d rest =>
      rw [List.map_cons] at ih
      simp [charsOfUnits?, notHigh, notLow, ih]

/-! ### Texts -/

/-- Nothing but spaces. -/
def Gap (s : List Char) : Prop := ∀ c ∈ s, isSpace c = true

/-- The text of a string, quotes included. -/
def literal (s : String) : List Char := '"' :: (s.toList.flatMap escape ++ ['"'])

mutual

/-- A text that writes a value. -/
inductive Writes : Json → List Char → Prop
  | null : Writes .null ['n', 'u', 'l', 'l']
  | true : Writes (.bool true) ['t', 'r', 'u', 'e']
  | false : Writes (.bool false) ['f', 'a', 'l', 's', 'e']
  | string (s : String) : Writes (.string s) (literal s)
  | emptyArray {g : List Char} (gap : Gap g) : Writes (.array []) ('[' :: (g ++ [']']))
  | array {items : List Json} {g t : List Char} (gap : Gap g) (inside : WritesItems items t) :
      Writes (.array items) ('[' :: (g ++ t))
  | emptyObject {g : List Char} (gap : Gap g) : Writes (.object []) ('\x7b' :: (g ++ ['\x7d']))
  | object {members : List (String × Json)} {g t : List Char} (gap : Gap g)
      (inside : WritesMembers members t) : Writes (.object members) ('\x7b' :: (g ++ t))

/-- The items of an array from its first one to the closing bracket. -/
inductive WritesItems : List Json → List Char → Prop
  | last {v : Json} {t g : List Char} (value : Writes v t) (gap : Gap g) :
      WritesItems [v] (t ++ (g ++ [']']))
  | more {v : Json} {rest : List Json} {t g g' t' : List Char} (value : Writes v t)
      (before : Gap g) (after : Gap g') (others : WritesItems rest t') :
      WritesItems (v :: rest) (t ++ (g ++ ',' :: (g' ++ t')))

/-- The members of an object from its first one to the closing brace. -/
inductive WritesMembers : List (String × Json) → List Char → Prop
  | last {name : String} {v : Json} {c c' t g : List Char} (before : Gap c) (after : Gap c')
      (value : Writes v t) (gap : Gap g) :
      WritesMembers [(name, v)] (literal name ++ (c ++ ':' :: (c' ++ (t ++ (g ++ ['\x7d'])))))
  | more {name : String} {v : Json} {rest : List (String × Json)} {c c' t g g' t' : List Char}
      (before : Gap c) (after : Gap c') (value : Writes v t) (before' : Gap g) (after' : Gap g')
      (others : WritesMembers rest t') :
      WritesMembers ((name, v) :: rest)
        (literal name ++ (c ++ ':' :: (c' ++ (t ++ (g ++ ',' :: (g' ++ t'))))))

end

/-! ### Spaces -/

/-- A text that starts with something else than a space or a closing bracket. -/
def Starts (s : List Char) : Prop :=
  ∃ c rest, s = c :: rest ∧ isSpace c = false ∧ c ≠ ']' ∧ c ≠ '\x7d'

theorem Starts.append {s : List Char} (starts : Starts s) (rest : List Char) :
    Starts (s ++ rest) := by
  obtain ⟨c, tail, rfl, marks⟩ := starts
  exact ⟨c, tail ++ rest, rfl, marks⟩

theorem literal_starts (s : String) : Starts (literal s) :=
  ⟨'"', _, rfl, rfl, by decide, by decide⟩

theorem Writes.starts {v : Json} {t : List Char} (value : Writes v t) : Starts t := by
  cases value <;> exact ⟨_, _, rfl, rfl, by decide, by decide⟩

theorem WritesItems.starts {items : List Json} {t : List Char} (inside : WritesItems items t) :
    Starts t := by
  cases inside with
  | last value _ => exact value.starts.append _
  | more value _ _ _ => exact value.starts.append _

theorem WritesMembers.starts {members : List (String × Json)} {t : List Char}
    (inside : WritesMembers members t) : Starts t := by
  cases inside <;> exact (literal_starts _).append _

theorem skipSpace_gap {g : List Char} (gap : Gap g) (s : List Char) :
    skipSpace (g ++ s) = skipSpace s := by
  rw [skipSpace, List.dropWhile_append_of_pos gap]
  rfl

theorem skipSpace_cons {c : Char} (mark : isSpace c = false) (s : List Char) :
    skipSpace (c :: s) = c :: s := by
  simp [skipSpace, mark]

theorem Starts.skipSpace {s : List Char} (starts : Starts s) : Json.skipSpace s = s := by
  obtain ⟨c, rest, rfl, mark, -⟩ := starts
  exact skipSpace_cons mark rest

/-! ### Reading -/

variable (n : Nat)

theorem parseValue_null (rest : List Char) :
    parseValue (n + 1) ('n' :: 'u' :: 'l' :: 'l' :: rest) = some (.null, rest) := by
  rw [parseValue, skipSpace_cons rfl]
  rfl

example : parseValue 1 "null, 1".toList = some (.null, ", 1".toList) := by cbv

theorem parseValue_true (rest : List Char) :
    parseValue (n + 1) ('t' :: 'r' :: 'u' :: 'e' :: rest) = some (.bool true, rest) := by
  rw [parseValue, skipSpace_cons rfl]
  rfl

theorem parseValue_false (rest : List Char) :
    parseValue (n + 1) ('f' :: 'a' :: 'l' :: 's' :: 'e' :: rest) = some (.bool false, rest) := by
  rw [parseValue, skipSpace_cons rfl]
  rfl

theorem parseValue_literal (s : String) (rest : List Char) :
    parseValue (n + 1) (literal s ++ rest) = some (.string s, rest) := by
  rw [parseValue, (literal_starts s).append rest |>.skipSpace]
  simp [literal, scanString_flatMap, charsOfUnits?_toNat]

theorem parseValue_emptyArray {g : List Char} (gap : Gap g) (rest : List Char) :
    parseValue (n + 1) ('[' :: (g ++ ']' :: rest)) = some (.array [], rest) := by
  rw [parseValue, skipSpace_cons rfl]
  simp only [skipSpace_gap gap, skipSpace_cons (c := ']') rfl]

theorem parseValue_emptyObject {g : List Char} (gap : Gap g) (rest : List Char) :
    parseValue (n + 1) ('\x7b' :: (g ++ '\x7d' :: rest)) = some (.object [], rest) := by
  rw [parseValue, skipSpace_cons rfl]
  simp only [skipSpace_gap gap, skipSpace_cons (c := '\x7d') rfl]

theorem parseValue_array {g s : List Char} (gap : Gap g) (starts : Starts s) :
    parseValue (n + 1) ('[' :: (g ++ s)) = (parseItems n s).map fun p => (.array p.1, p.2) := by
  obtain ⟨c, rest, rfl, mark, notBracket, notBrace⟩ := starts
  rw [parseValue, skipSpace_cons rfl]
  simp only [skipSpace_gap gap, skipSpace_cons mark]
  split
  · rename_i same
    cases same
    exact absurd rfl notBracket
  · rfl

theorem parseValue_object {g s : List Char} (gap : Gap g) (starts : Starts s) :
    parseValue (n + 1) ('\x7b' :: (g ++ s)) =
      (parseMembers n s).map fun p =>
        (match p.1 with
          | some members => .object members
          | none => .unreadable, p.2) := by
  obtain ⟨c, rest, rfl, mark, notBracket, notBrace⟩ := starts
  rw [parseValue, skipSpace_cons rfl]
  simp only [skipSpace_gap gap, skipSpace_cons mark]
  split
  · rename_i same
    cases same
    exact absurd rfl notBrace
  · rfl

theorem parseValue_gap {g : List Char} (gap : Gap g) (s : List Char) :
    parseValue n (g ++ s) = parseValue n s := by
  cases n with
  | zero => rfl
  | succ n => rw [parseValue, parseValue, skipSpace_gap gap]

theorem parseItems_gap {g : List Char} (gap : Gap g) (s : List Char) :
    parseItems n (g ++ s) = parseItems n s := by
  cases n with
  | zero => rfl
  | succ n => rw [parseItems, parseItems, parseValue_gap n gap]

theorem parseMembers_gap {g : List Char} (gap : Gap g) (s : List Char) :
    parseMembers n (g ++ s) = parseMembers n s := by
  cases n with
  | zero => rfl
  | succ n => rw [parseMembers, parseMembers, skipSpace_gap gap]

section Last

variable {n : Nat} {s g rest : List Char} {v : Json}

theorem parseItems_last (gap : Gap g) (value : parseValue n s = some (v, g ++ ']' :: rest)) :
    parseItems (n + 1) s = some ([v], rest) := by
  simp only [parseItems, value, skipSpace_gap gap, skipSpace_cons (c := ']') rfl]

theorem parseItems_more (gap : Gap g) (value : parseValue n s = some (v, g ++ ',' :: rest)) :
    parseItems (n + 1) s = (parseItems n rest).map fun p => (v :: p.1, p.2) := by
  simp only [parseItems, value, skipSpace_gap gap, skipSpace_cons (c := ',') rfl]

theorem parseMembers_last {c : List Char} (name : String) (before : Gap c) (gap : Gap g)
    (value : parseValue n s = some (v, g ++ '\x7d' :: rest)) :
    parseMembers (n + 1) (literal name ++ (c ++ ':' :: s)) = some (some [(name, v)], rest) := by
  rw [parseMembers, (literal_starts name).append _ |>.skipSpace]
  simp only [literal, List.cons_append, List.append_assoc, List.nil_append, scanString_flatMap,
    skipSpace_gap before, skipSpace_cons (c := ':') rfl, value, skipSpace_gap gap,
    skipSpace_cons (c := '\x7d') rfl, charsOfUnits?_toNat, Option.map_some, String.ofList_toList]

theorem parseMembers_more {c rest' : List Char} {ms : List (String × Json)} (name : String)
    (before : Gap c) (gap : Gap g) (value : parseValue n s = some (v, g ++ ',' :: rest))
    (others : parseMembers n rest = some (some ms, rest')) :
    parseMembers (n + 1) (literal name ++ (c ++ ':' :: s)) =
      some (some ((name, v) :: ms), rest') := by
  rw [parseMembers, (literal_starts name).append _ |>.skipSpace]
  simp only [literal, List.cons_append, List.append_assoc, List.nil_append, scanString_flatMap,
    skipSpace_gap before, skipSpace_cons (c := ':') rfl, value, skipSpace_gap gap,
    skipSpace_cons (c := ',') rfl, charsOfUnits?_toNat, Option.map_some, String.ofList_toList,
    others]

end Last

/-- With steps for twice the text, every text that writes a value is read as
that value, whatever comes after it. -/
theorem parse_writes (n : Nat) :
    (∀ {v : Json} {t : List Char}, Writes v t → 2 * t.length ≤ n → ∀ rest,
      parseValue n (t ++ rest) = some (v, rest)) ∧
    (∀ {items : List Json} {t : List Char}, WritesItems items t → 2 * t.length + 1 ≤ n →
      ∀ rest, parseItems n (t ++ rest) = some (items, rest)) ∧
    (∀ {members : List (String × Json)} {t : List Char}, WritesMembers members t →
      2 * t.length + 1 ≤ n → ∀ rest,
      parseMembers n (t ++ rest) = some (some members, rest)) := by
  induction n with
  | zero =>
    refine ⟨fun value short => ?_, fun _ short => by omega, fun _ short => by omega⟩
    obtain ⟨c, rest, rfl, -⟩ := value.starts
    rw [List.length_cons] at short
    omega
  | succ n ih =>
    obtain ⟨ofValue, ofItems, ofMembers⟩ := ih
    refine ⟨?_, ?_, ?_⟩
    · intro v t value short rest
      cases value with
      | null => exact parseValue_null n rest
      | true => exact parseValue_true n rest
      | false => exact parseValue_false n rest
      | string s => exact parseValue_literal n s rest
      | emptyArray gap =>
        rw [List.cons_append, List.append_assoc]
        exact parseValue_emptyArray n gap rest
      | array gap inside =>
        simp only [List.length_cons, List.length_append] at short
        rw [List.cons_append, List.append_assoc,
          parseValue_array n gap (inside.starts.append rest), ofItems inside (by omega)]
        rfl
      | emptyObject gap =>
        rw [List.cons_append, List.append_assoc]
        exact parseValue_emptyObject n gap rest
      | object gap inside =>
        simp only [List.length_cons, List.length_append] at short
        rw [List.cons_append, List.append_assoc,
          parseValue_object n gap (inside.starts.append rest), ofMembers inside (by omega)]
        rfl
    · intro items t inside short rest
      cases inside with
      | last value gap =>
        simp only [List.length_append] at short
        simp only [List.append_assoc, List.cons_append, List.nil_append]
        exact parseItems_last gap (ofValue value (by omega) _)
      | more value before after others =>
        simp only [List.length_cons, List.length_append] at short
        simp only [List.append_assoc, List.cons_append]
        rw [parseItems_more before (ofValue value (by omega) _), parseItems_gap n after,
          ofItems others (by omega)]
        rfl
    · intro members t inside short rest
      cases inside with
      | last before after value gap =>
        simp only [List.length_cons, List.length_append] at short
        simp only [List.append_assoc, List.cons_append, List.nil_append]
        refine parseMembers_last _ before gap ?_
        rw [parseValue_gap n after]
        exact ofValue value (by omega) _
      | @more name v others' c c' t g g' t' before after value before' after' others =>
        simp only [List.length_cons, List.length_append] at short
        simp only [List.append_assoc, List.cons_append]
        have first := ofValue value (by omega) (g ++ ',' :: (g' ++ (t' ++ rest)))
        rw [← parseValue_gap n after] at first
        refine parseMembers_more _ before before' first ?_
        rw [parseMembers_gap n after']
        exact ofMembers others (by omega) rest

/-! ### The layouts -/

mutual

/-- Whether a document is made without numbers and has nothing unreadable. -/
def isTextual : Json → Bool
  | .null => true
  | .bool _ => true
  | .string _ => true
  | .array items => areTextualItems items
  | .object members => areTextualMembers members
  | _ => false

def areTextualItems : List Json → Bool
  | [] => true
  | v :: rest => isTextual v && areTextualItems rest

def areTextualMembers : List (String × Json) → Bool
  | [] => true
  | (_, v) :: rest => isTextual v && areTextualMembers rest

end

theorem nil_gap : Gap [] := nofun

theorem empty_gap : Gap "".toList := by simp [Gap]

theorem lineFeed_gap : Gap "\n".toList := by simp [Gap, isSpace]

theorem newline_gap (level : Nat) : Gap (newline level).toList := by
  simp [Gap, newline, isSpace]

/-- The texts of the items, parted by commas, up to the closing bracket. -/
theorem writesItems_intercalate {items : List Json} {texts : List (List Char)} {g g' : List Char}
    (each : List.Forall₂ Writes items texts) (some : items ≠ []) (after : Gap g)
    (close : Gap g') :
    WritesItems items ((',' :: g).intercalate texts ++ (g' ++ [']'])) := by
  induction each with
  | nil => exact absurd rfl some
  | @cons v t rest texts value others ih =>
    cases others with
    | nil => simpa using WritesItems.last value close
    | cons value' others =>
      have more := WritesItems.more value nil_gap after (ih (by simp))
      simpa [List.intercalate_cons_cons] using more

/-- A text that writes a member. -/
def WritesMember (m : String × Json) (text : List Char) : Prop :=
  ∃ c c' t, Gap c ∧ Gap c' ∧ Writes m.2 t ∧ text = literal m.1 ++ (c ++ ':' :: (c' ++ t))

theorem writesMembers_intercalate {members : List (String × Json)} {texts : List (List Char)}
    {g g' : List Char} (each : List.Forall₂ WritesMember members texts) (some : members ≠ [])
    (after : Gap g) (close : Gap g') :
    WritesMembers members ((',' :: g).intercalate texts ++ (g' ++ ['\x7d'])) := by
  induction each with
  | nil => exact absurd rfl some
  | @cons m text rest texts member others ih =>
    obtain ⟨name, v⟩ := m
    obtain ⟨c, c', t, before, after', value, rfl⟩ := member
    cases others with
    | nil => simpa using WritesMembers.last before after' value close
    | @cons m' _ rest' _ member' others =>
      have more : WritesMembers ((name, v) :: m' :: rest') _ :=
        .more before after' value nil_gap after (ih (by simp))
      simpa [List.intercalate_cons_cons] using more

mutual

theorem writes_indented (level : Nat) : ∀ v : Json, v.isTextual = true →
    Writes v (indented level v).toList
  | .null, _ => by simpa [indented] using Writes.null
  | .bool true, _ => by simpa [indented] using Writes.true
  | .bool false, _ => by simpa [indented] using Writes.false
  | .string s, _ => by simpa [indented, quoted, literal] using Writes.string s
  | .array [], _ => by simpa [indented] using Writes.emptyArray nil_gap
  | .object [], _ => by simpa [indented] using Writes.emptyObject nil_gap
  | .array (v :: rest), textual => by
    have inside := writesItems_intercalate (writes_indentedItems (level + 1) (v :: rest) textual)
      (by simp) (newline_gap (level + 1)) (newline_gap level)
    simpa [indented] using Writes.array (newline_gap (level + 1)) inside
  | .object (m :: rest), textual => by
    have inside := writesMembers_intercalate
      (writes_indentedMembers (level + 1) (m :: rest) textual)
      (by simp) (newline_gap (level + 1)) (newline_gap level)
    simpa [indented] using Writes.object (newline_gap (level + 1)) inside
  | .integer _, textual => by cases textual
  | .real _, textual => by cases textual
  | .unreadable, textual => by cases textual

theorem writes_indentedItems (level : Nat) : ∀ items : List Json, areTextualItems items = true →
    List.Forall₂ Writes items ((indentedItems level items).map String.toList)
  | [], _ => .nil
  | v :: rest, textual => by
    simp only [areTextualItems, Bool.and_eq_true] at textual
    exact .cons (writes_indented level v textual.1) (writes_indentedItems level rest textual.2)

theorem writes_indentedMembers (level : Nat) : ∀ members : List (String × Json),
    areTextualMembers members = true →
    List.Forall₂ WritesMember members ((indentedMembers level members).map String.toList)
  | [], _ => .nil
  | (name, v) :: rest, textual => by
    simp only [areTextualMembers, Bool.and_eq_true] at textual
    refine .cons ?_ (writes_indentedMembers level rest textual.2)
    refine ⟨[], [' '], _, nil_gap, by simp [Gap, isSpace], writes_indented level v textual.1, ?_⟩
    simp [quoted, literal]

end

mutual

theorem writes_compact : ∀ v : Json, v.isTextual = true → Writes v (compact v).toList
  | .null, _ => by simpa [compact] using Writes.null
  | .bool true, _ => by simpa [compact] using Writes.true
  | .bool false, _ => by simpa [compact] using Writes.false
  | .string s, _ => by simpa [compact, quoted, literal] using Writes.string s
  | .array [], _ => by simpa [compact, compactItems] using Writes.emptyArray nil_gap
  | .object [], _ => by simpa [compact, compactMembers] using Writes.emptyObject nil_gap
  | .array (v :: rest), textual => by
    have inside := writesItems_intercalate (writes_compactItems (v :: rest) textual) (by simp)
      nil_gap nil_gap
    simpa [compact] using Writes.array nil_gap inside
  | .object (m :: rest), textual => by
    have inside := writesMembers_intercalate (writes_compactMembers (m :: rest) textual) (by simp)
      nil_gap nil_gap
    simpa [compact] using Writes.object nil_gap inside
  | .integer _, textual => by cases textual
  | .real _, textual => by cases textual
  | .unreadable, textual => by cases textual

theorem writes_compactItems : ∀ items : List Json, areTextualItems items = true →
    List.Forall₂ Writes items ((compactItems items).map String.toList)
  | [], _ => .nil
  | v :: rest, textual => by
    simp only [areTextualItems, Bool.and_eq_true] at textual
    exact .cons (writes_compact v textual.1) (writes_compactItems rest textual.2)

theorem writes_compactMembers : ∀ members : List (String × Json),
    areTextualMembers members = true →
    List.Forall₂ WritesMember members ((compactMembers members).map String.toList)
  | [], _ => .nil
  | (name, v) :: rest, textual => by
    simp only [areTextualMembers, Bool.and_eq_true] at textual
    refine .cons ?_ (writes_compactMembers rest textual.2)
    refine ⟨[], [], _, nil_gap, nil_gap, writes_compact v textual.1, ?_⟩
    simp [quoted, literal]

end

/-! ### Whole texts -/

/-- A text that writes a value is read as that value, also with spaces after it. -/
theorem parse?_of_writes {v : Json} {text gap : String} (value : Writes v text.toList)
    (spaces : Gap gap.toList) : parse? (text ++ gap) = some v := by
  have enough : 2 * text.toList.length ≤ 2 * (text ++ gap).toList.length + 2 := by
    rw [String.toList_append, List.length_append]
    omega
  have read := (parse_writes _).1 value enough gap.toList
  rw [← String.toList_append] at read
  have none : skipSpace gap.toList = [] := by
    have skipped := skipSpace_gap spaces []
    rwa [List.append_nil] at skipped
  simp only [parse?, read, none, List.isEmpty_nil, if_true]

theorem parse?_pretty {v : Json} (textual : v.isTextual = true) {gap : String}
    (spaces : Gap gap.toList) : parse? (v.pretty ++ gap) = some v :=
  parse?_of_writes (writes_indented 0 v textual) spaces

theorem parse?_compact {v : Json} (textual : v.isTextual = true) {gap : String}
    (spaces : Gap gap.toList) : parse? (v.compact ++ gap) = some v :=
  parse?_of_writes (writes_compact v textual) spaces

end ClassPolicy.Json
