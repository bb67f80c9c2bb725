import ClassPolicy.Json.Basic

/-!
# Writing JSON text

Two layouts of one document: compact, without any space, and indented by two
spaces a level, where empty arrays and objects stay on one line. In strings
the quote, the backslash and the control characters are escaped, with a short
escape where there is one; all other characters stand for themselves.
-/

set_option autoImplicit false

namespace ClassPolicy.Json

def hexDigit (n : Nat) : Char :=
  if n < 10 then Char.ofNat ('0'.toNat + n) else Char.ofNat ('a'.toNat + (n - 10))

def escape (c : Char) : List Char :=
  if c = '"' then ['\\', '"']
  else if c = '\\' then ['\\', '\\']
  else if c = '\n' then ['\\', 'n']
  else if c = '\r' then ['\\', 'r']
  else if c = '\t' then ['\\', 't']
  else if c.toNat = 0x8 then ['\\', 'b']
  else if c.toNat = 0xc then ['\\', 'f']
  else if c.toNat < 0x20 then
    ['\\', 'u', '0', '0', hexDigit (c.toNat / 16), hexDigit (c.toNat % 16)]
  else [c]

def quoted (s : String) : String := "\"" ++ String.ofList (s.toList.flatMap escape) ++ "\""

def integerText (n : Int) : String :=
  match n with
  | .ofNat n => String.ofList (Nat.toDigits 10 n)
  | .negSucc n => "-" ++ String.ofList (Nat.toDigits 10 (n + 1))

mutual

def compact : Json → String
  | .null => "null"
  | .bool value => if value then "true" else "false"
  | .integer value => integerText value
  | .real literal => literal
  | .string value => quoted value
  | .array items => "[" ++ String.intercalate "," (compactItems items) ++ "]"
  | .object members => "\x7b" ++ String.intercalate "," (compactMembers members) ++ "\x7d"
  | .unreadable => "null"

def compactItems : List Json → List String
  | [] => []
  | v :: rest => compact v :: compactItems rest

def compactMembers : List (String × Json) → List String
  | [] => []
  | (name, v) :: rest => (quoted name ++ ":" ++ compact v) :: compactMembers rest

end

def newline (level : Nat) : String := "\n" ++ String.ofList (List.replicate (2 * level) ' ')

mutual

/-- The indented layout of a value that stands at the given level. -/
def indented (level : Nat) : Json → String
  | .array [] => "[]"
  | .object [] => "\x7b\x7d"
  | .array items =>
    "[" ++ newline (level + 1) ++
      String.intercalate ("," ++ newline (level + 1)) (indentedItems (level + 1) items) ++
      newline level ++ "]"
  | .object members =>
    "\x7b" ++ newline (level + 1) ++
      String.intercalate ("," ++ newline (level + 1)) (indentedMembers (level + 1) members) ++
      newline level ++ "\x7d"
  | .null => "null"
  | .bool value => if value then "true" else "false"
  | .integer value => integerText value
  | .real literal => literal
  | .string value => quoted value
  | .unreadable => "null"

def indentedItems (level : Nat) : List Json → List String
  | [] => []
  | v :: rest => indented level v :: indentedItems level rest

def indentedMembers (level : Nat) : List (String × Json) → List String
  | [] => []
  | (name, v) :: rest =>
    (quoted name ++ ": " ++ indented level v) :: indentedMembers level rest

end

def pretty (document : Json) : String := indented 0 document

end ClassPolicy.Json
