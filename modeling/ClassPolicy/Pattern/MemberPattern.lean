import ClassPolicy.Pattern.TypePattern

/-!
# Member patterns

`synchronized * com.acme.Counter.inc*(..)` names modifiers, a return type, a
qualified member name and a parameter list. A modifier may be negated with
`!`. In the member name `*` stands for any characters but a line feed, and
`__INIT__` names constructors. In the parameter list `..` stands for any run
of parameters.
-/

set_option autoImplicit false

namespace ClassPolicy

inductive ParameterPattern
  | anyRun
  | type (pattern : TypePattern)
deriving DecidableEq, Repr

structure MemberPattern where
  required : List Modifier
  forbidden : List Modifier
  returns : TypePattern
  declaring : TypePattern
  name : Glob
  parameters : List ParameterPattern
deriving DecidableEq, Repr

namespace MemberPattern

/-- The modifiers a pattern may name. -/
def modifierWords : List (String × Modifier) :=
  [("public", .publicAccess), ("private", .privateAccess), ("protected", .protectedAccess),
    ("static", .static), ("final", .final), ("synchronized", .synchronized),
    ("native", .native), ("abstract", .abstract)]

/-- The modifiers that a member has to have and those it must not have. -/
def modifiers? : List (List Char) → Except PatternFault (List Modifier × List Modifier)
  | [] => .ok ([], [])
  | token :: rest =>
    let (negated, word) := match token with
      | '!' :: word => (true, String.ofList word)
      | word => (false, String.ofList word)
    match modifierWords.lookup word with
    | none => .error (.unknownModifier word)
    | some flag =>
      (modifiers? rest).map (fun p =>
        if negated then (p.1, flag :: p.2) else (flag :: p.1, p.2))

def constructorAlias : String := "__INIT__"

def isNameChar (c : Char) : Bool :=
  Text.isAlphanumeric c || c = '_' || c = '$' || c = '*' || c = '<' || c = '>'

def namePiece (c : Char) : Piece := if c = '*' then .run '\n' else .char c

def nameGlob? (name : List Char) : Except PatternFault Glob :=
  let name := if name = constructorAlias.toList then MemberDescriptor.constructorName.toList
    else name
  if name.isEmpty then .error .missingMemberName
  else match name.find? (fun c => !isNameChar c) with
    | some c => .error (.illegalNameCharacter c)
    | none => Glob.bounded? (name.map namePiece)

def parameter? (pattern : String) (entry : List Char) : Except PatternError ParameterPattern :=
  let entry := Text.trim entry
  if entry.isEmpty then .error (.malformed pattern .emptyParameter)
  else if entry = ['.', '.'] then .ok .anyRun
  else (TypePattern.compile (String.ofList entry)).map .type

/-- Neighbouring `..` entries say no more than one of them. -/
def mergeRuns : List ParameterPattern → List ParameterPattern
  | .anyRun :: .anyRun :: rest => mergeRuns (.anyRun :: rest)
  | p :: rest => p :: mergeRuns rest
  | [] => []

def parameters? (pattern : String) (list : List Char) :
    Except PatternError (List ParameterPattern) :=
  if list.all Text.isBlank then .ok []
  else ((list.splitOn ',').mapM (parameter? pattern)).map mergeRuns

/-- The parts of a pattern text, before any of them is read. -/
structure Outline where
  modifiers : List (List Char)
  returns : List Char
  declaring : List Char
  name : List Char
  parameters : List Char

def outline? (trimmed : List Char) : Except PatternFault Outline :=
  match Text.cutFirst? '(' trimmed with
  | none => .error .missingParameterList
  | some (head, tail) =>
    if tail.getLast? ≠ some ')' || tail.contains '(' then .error .openParameterList
    else match (Text.words head).reverse with
      | [] => .error .missingMemberName
      | [_] => .error .missingReturnType
      | qualified :: returns :: modifiers =>
        match Text.cutLast? '.' qualified with
        | none => .error .unqualifiedMember
        | some (declaring, name) =>
          .ok ⟨modifiers.reverse, returns, declaring, name, tail.dropLast⟩

def compile (pattern : String) : Except PatternError MemberPattern :=
  let trimmed := Text.trim pattern.toList
  if trimmed.isEmpty then .error .empty
  else do
    let outline ← (outline? trimmed).mapError (.malformed pattern)
    let (required, forbidden) ← (modifiers? outline.modifiers).mapError (.malformed pattern)
    let returns ← TypePattern.compile (String.ofList outline.returns)
    let declaring ← TypePattern.compile (String.ofList outline.declaring)
    let name ← (nameGlob? outline.name).mapError (.malformed pattern)
    let parameters ← parameters? pattern outline.parameters
    return ⟨required, forbidden, returns, declaring, name, parameters⟩

/-! Parameters are matched in one pass over the patterns. There is a slot for
each number of types from none to all, and it says whether the patterns so far
can end after that many types. The slots are overwritten in place. -/

/-- Opens every slot from the first open one on. `seen` says whether a slot
before these is open. -/
def openOnward (seen : Bool) : List Bool → List Bool
  | [] => []
  | slot :: slots => (seen || slot) :: openOnward (seen || slot) slots

/-- Overwrites the slots from a last one down to the second. Each one is opened
by the slot before it and a type that matches, and closed otherwise. -/
def moveOn (p : TypePattern) (types : List String) : Nat → List Bool → List Bool
  | 0, slots => slots
  | last + 1, slots =>
    let opened := slots.getD last false && types[last]?.any p.matchesName
    moveOn p types last (slots.set (last + 1) opened)

/-- What one pattern makes of the slots. -/
def advance (types : List String) (slots : List Bool) : ParameterPattern → List Bool
  | .anyRun => openOnward false slots
  | .type p => (moveOn p types types.length slots).set 0 false

def matchesFrom (types : List String) : List ParameterPattern → List Bool → Bool
  | [], slots => slots.getD types.length false
  | p :: rest, slots =>
    let slots := advance types slots p
    if slots.contains true then matchesFrom types rest slots else false

def matchesParameters (patterns : List ParameterPattern) (types : List String) : Bool :=
  matchesFrom types patterns ((List.replicate (types.length + 1) false).set 0 true)

def matchesMember (p : MemberPattern) (m : MemberDescriptor) : Bool :=
  p.required.all m.modifiers.has && p.forbidden.all (fun flag => !m.modifiers.has flag) &&
    p.name.matchesText m.name && p.declaring.matchesName m.declaringType.text &&
    p.returns.matchesName m.returnType && matchesParameters p.parameters m.parameterTypes

end MemberPattern

/-- Whether a member matches a pattern text. -/
def matchMember (pattern : String) (m : MemberDescriptor) : Except PatternError Bool :=
  (MemberPattern.compile pattern).map (·.matchesMember m)

theorem matchMember_eq_error_iff {pattern : String} {m : MemberDescriptor} {e : PatternError} :
    matchMember pattern m = .error e ↔ MemberPattern.compile pattern = .error e := by
  unfold matchMember
  cases MemberPattern.compile pattern <;> simp [Except.map]

end ClassPolicy
