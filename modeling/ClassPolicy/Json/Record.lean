import ClassPolicy.Json.Basic
import ClassPolicy.SortedMap

/-!
# Records and variants in JSON

A record is written as an object. It may also be an array that gives the
members in order, the last ones left out. Unknown members are passed over, and
a known one may not be repeated. A variant is a bare name, or an object whose
single member holds the value that belongs to the name.
-/

set_option autoImplicit false

namespace ClassPolicy.Json

variable {α : Type}

abbrev Members := List (String × Json)

def distinctNames : List String → Bool
  | [] => true
  | name :: rest => !rest.contains name && distinctNames rest

/-- The members of a record with these names, in the order of the names for an
array. -/
def record? (names : List String) : Json → Option Members
  | .object members =>
    let known := members.filter (fun m => names.contains m.1)
    if distinctNames (known.map (·.1)) then some known else none
  | .array items => if items.length ≤ names.length then some (names.zip items) else none
  | _ => none

def required (members : Members) (name : String) (decode : Json → Option α) : Option α :=
  (members.lookup name).bind decode

/-- A member that may be missing but, when present, has to fit. -/
def defaulted (members : Members) (name : String) (value : α) (decode : Json → Option α) :
    Option α :=
  match members.lookup name with
  | none => some value
  | some j => decode j

def nullable (decode : Json → Option α) : Json → Option (Option α)
  | .null => some none
  | j => (decode j).map some

/-- A member that may be missing or null. -/
def optional (members : Members) (name : String) (decode : Json → Option α) :
    Option (Option α) :=
  defaulted members name none (nullable decode)

def text? : Json → Option String
  | .string value => some value
  | _ => none

def bool? : Json → Option Bool
  | .bool value => some value
  | _ => none

/-- An integer below the bound. -/
def natBelow? (bound : Nat) : Json → Option Nat
  | .integer (.ofNat n) => if n < bound then some n else none
  | _ => none

def list? (decode : Json → Option α) : Json → Option (List α)
  | .array items => items.mapM decode
  | _ => none

def texts? : Json → Option (List String) := list? text?

def textSet? (j : Json) : Option SortedSet := (texts? j).map SortedSet.ofList

def ofSet (s : SortedSet) : Json := ofStrings (SortedSet.toList s)

/-- An object read as a map; of repeated names the last counts. -/
def map? (decode : Json → Option α) : Json → Option (SortedMap α)
  | .object members =>
    (members.mapM (fun m => (decode m.2).map (fun v => (m.1, v)))).map SortedMap.ofList
  | _ => none

def ofMap (encode : α → Json) (m : SortedMap α) : Json :=
  .object (m.entries.map (fun e => (e.1, encode e.2)))

/-- The name of a variant and the value written with it. -/
def variant? : Json → Option (String × Option Json)
  | .string name => some (name, none)
  | .object [(name, value)] => some (name, some value)
  | _ => none

/-- A variant without a value; `null` may stand for the missing value. -/
def plainVariant? (choices : List (String × α)) (j : Json) : Option α :=
  match variant? j with
  | some (name, none) => choices.lookup name
  | some (name, some .null) => choices.lookup name
  | _ => none

/-- A variant with a text as its value. -/
def textVariant? (choices : List (String × (String → α))) (j : Json) : Option α :=
  match variant? j with
  | some (name, some (.string value)) => (choices.lookup name).map (· value)
  | _ => none

end ClassPolicy.Json
