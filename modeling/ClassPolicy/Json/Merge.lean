import ClassPolicy.Json.Basic

/-!
# Overlaying one document on another

Objects are overlaid member by member, and a null member of the overlay leaves
the member under it alone. Anything else in the overlay replaces what it
covers, nested nulls included.
-/

set_option autoImplicit false

namespace ClassPolicy.Json

/-- The members with one of them set, in its old place when there is one. -/
def setMember (name : String) (value : Json) : List (String × Json) → List (String × Json)
  | [] => [(name, value)]
  | m :: rest => if m.1 = name then (name, value) :: rest else m :: setMember name value rest

mutual

def overlay (target : Json) : Json → Json
  | .object source =>
    match target with
    | .object members => .object (overlayMembers members source)
    | _ => .object source
  | source => source

def overlayMembers (members : List (String × Json)) : List (String × Json) → List (String × Json)
  | [] => members
  | (name, value) :: rest =>
    if value.isNull then overlayMembers members rest
    else
      let value := match members.lookup name with
        | some below => overlay below value
        | none => value
      overlayMembers (setMember name value members) rest

end

end ClassPolicy.Json
