import ClassPolicy.Descriptor
import ClassPolicy.Pattern.Size
import ClassPolicy.Text.Alphanumeric
import ClassPolicy.Text.Blank

/-!
# Type patterns

`com.acme.*` matches the types of one package and `com.acme..*` those below it
as well: `*` stands for any characters within a segment of the name, `..` for
a dot and any number of whole segments. A bare `*` matches every name without
a line feed. With a `+` at its end a pattern also matches the types that have
a matching ancestor or interface.
-/

set_option autoImplicit false

namespace ClassPolicy

structure TypePattern where
  glob : Glob
  subtypes : Bool
deriving DecidableEq, Repr

namespace TypePattern

def isNameChar (c : Char) : Bool :=
  Text.isAlphanumeric c || c = '_' || c = '$' || c = '*' || c = '.' || c = '[' || c = ']'

/-- Dots may stand alone or in pairs, and only a pair may come first. -/
def hasEmptySegment (body : List Char) : Bool :=
  Text.occursIn ['.', '.', '.'] body || body.getLast? = some '.' ||
    (body.head? = some '.' && !("..".toList.isPrefixOf body))

def fault? (body : List Char) : Option PatternFault :=
  if body.isEmpty then some .missingTypeName
  else match body.find? (fun c => !isNameChar c) with
    | some c => some (.illegalCharacter c)
    | none => if hasEmptySegment body then some .emptySegment else none

def pieces : List Char → Glob
  | '.' :: '.' :: rest => .char '.' :: .packages :: pieces rest
  | '*' :: rest => .run '.' :: pieces rest
  | c :: rest => .char c :: pieces rest
  | [] => []

def globOf : List Char → Glob
  | ['*'] => [.run '\n']
  | '.' :: '.' :: rest => .packages :: pieces rest
  | body => pieces body

def glob? (body : List Char) : Except PatternFault Glob :=
  match fault? body with
  | some fault => .error fault
  | none => (globOf body).bounded?

/-- A text without the `+` at its end, and whether there was one. -/
def cutSubtypes (s : List Char) : List Char × Bool :=
  if s.getLast? = some '+' then (s.dropLast, true) else (s, false)

def compile (pattern : String) : Except PatternError TypePattern :=
  let trimmed := Text.trim pattern.toList
  if trimmed.isEmpty then .error .empty
  else
    let (body, subtypes) := cutSubtypes trimmed
    match glob? (body.map dotted) with
    | .error fault => .error (.malformed pattern fault)
    | .ok glob => .ok ⟨glob, subtypes⟩

/-- Whether a name alone matches, the `+` left out of account. -/
def matchesName (p : TypePattern) (name : String) : Bool := p.glob.matchesText name

def matchesType (p : TypePattern) (ty : TypeDescriptor) : Bool :=
  p.matchesName ty.name.text ||
    (p.subtypes && (ty.ancestors ++ ty.interfaces).any (fun name => p.matchesName name.text))

end TypePattern

/-- Whether a type matches a pattern text. -/
def matchType (pattern : String) (ty : TypeDescriptor) : Except PatternError Bool :=
  (TypePattern.compile pattern).map (·.matchesType ty)

theorem matchType_of_read {pattern : String} {p : TypePattern}
    (read : TypePattern.compile pattern = .ok p) (ty : TypeDescriptor) :
    matchType pattern ty = .ok (p.matchesType ty) := by
  simp only [matchType, read, Except.map]

theorem matchType_eq_ok_iff {pattern : String} {ty : TypeDescriptor} {answer : Bool} :
    matchType pattern ty = .ok answer ↔
      ∃ p, TypePattern.compile pattern = .ok p ∧ p.matchesType ty = answer := by
  unfold matchType
  cases TypePattern.compile pattern <;> simp [Except.map]

theorem matchType_eq_error_iff {pattern : String} {ty : TypeDescriptor} {e : PatternError} :
    matchType pattern ty = .error e ↔ TypePattern.compile pattern = .error e := by
  unfold matchType
  cases TypePattern.compile pattern <;> simp [Except.map]

end ClassPolicy
