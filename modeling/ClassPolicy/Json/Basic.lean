/-!
# JSON documents

A document as it is written: objects keep their members in order, repeated
names included. An integer that fits 64 bits, signed or unsigned, is kept
exactly; every other number keeps its literal. A literal that is well formed
but denotes nothing, such as a string with half a surrogate pair, is
`unreadable`.
-/

set_option autoImplicit false

namespace ClassPolicy

inductive Json
  | null
  | bool (value : Bool)
  | integer (value : Int)
  | real (literal : String)
  | string (value : String)
  | array (items : List Json)
  | object (members : List (String × Json))
  | unreadable
deriving Inhabited, BEq

namespace Json

def isNull : Json → Bool
  | .null => true
  | _ => false

/-- The object of the members that are present. -/
def ofMembers (members : List (Option (String × Json))) : Json := .object (members.filterMap id)

def member (name : String) (value : Json) : Option (String × Json) := some (name, value)

/-- A member that is left out when there is no value. -/
def memberIfSome (name : String) (value : Option Json) : Option (String × Json) :=
  value.map (fun v => (name, v))

def memberIf (present : Bool) (name : String) (value : Json) : Option (String × Json) :=
  if present then some (name, value) else none

def ofOption (value : Option Json) : Json := value.getD .null

def ofStrings (texts : List String) : Json := .array (texts.map .string)

/-- The first member of that name; nothing has members but an object. -/
def get? : Json → String → Option Json
  | .object members, name => members.lookup name
  | _, _ => none

mutual

/-- How deeply arrays and objects are nested; a scalar has depth zero. -/
def depth : Json → Nat
  | .array items => depthOfItems items + 1
  | .object members => depthOfMembers members + 1
  | _ => 0

def depthOfItems : List Json → Nat
  | [] => 0
  | v :: rest => max (depth v) (depthOfItems rest)

def depthOfMembers : List (String × Json) → Nat
  | [] => 0
  | (_, v) :: rest => max (depth v) (depthOfMembers rest)

end

mutual

/-- The value a document denotes: of members with one name the last counts,
and a document with an unreadable part denotes none. -/
def value? : Json → Option Json
  | .unreadable => none
  | .array items => (valueOfItems? items).map .array
  | .object members => (valueOfMembers? members).map .object
  | scalar => some scalar

def valueOfItems? : List Json → Option (List Json)
  | [] => some []
  | v :: rest =>
    match value? v, valueOfItems? rest with
    | some v, some rest => some (v :: rest)
    | _, _ => none

def valueOfMembers? : List (String × Json) → Option (List (String × Json))
  | [] => some []
  | (name, v) :: rest =>
    match value? v, valueOfMembers? rest with
    | some v, some rest => some (if (rest.lookup name).isSome then rest else (name, v) :: rest)
    | _, _ => none

end

end Json

end ClassPolicy
