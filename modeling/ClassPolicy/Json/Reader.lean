import ClassPolicy.Json.Number

/-!
# Reading JSON text

The grammar is that of RFC 8259: no comments, no trailing commas, no leading
zeros, control characters only escaped. `Json.parse?` gives the document as it
is written; `Json.read?` gives the value it denotes, where nesting beyond 127
levels is refused. The recursion is bounded by twice the length of the text:
of two steps in a row at least one consumes a character.
-/

set_option autoImplicit false

namespace ClassPolicy.Json

def isSpace (c : Char) : Bool := c = ' ' || c = '\t' || c = '\n' || c = '\r'

def skipSpace (s : List Char) : List Char := s.dropWhile isSpace

def hexDigit? (c : Char) : Option Nat :=
  if '0' ≤ c && c ≤ '9' then some (c.toNat - '0'.toNat)
  else if 'a' ≤ c && c ≤ 'f' then some (c.toNat - 'a'.toNat + 10)
  else if 'A' ≤ c && c ≤ 'F' then some (c.toNat - 'A'.toNat + 10)
  else none

def hexUnit? (a b c d : Char) : Option Nat :=
  match hexDigit? a, hexDigit? b, hexDigit? c, hexDigit? d with
  | some a, some b, some c, some d => some (((a * 16 + b) * 16 + c) * 16 + d)
  | _, _, _, _ => none

def escaped? : Char → Option Nat
  | '"' => some 0x22
  | '\\' => some 0x5c
  | '/' => some 0x2f
  | 'b' => some 0x8
  | 'f' => some 0xc
  | 'n' => some 0xa
  | 'r' => some 0xd
  | 't' => some 0x9
  | _ => none

/-- The code units of a string literal up to its closing quote, and the text
after the quote. Surrogates come in unpaired. -/
def scanString : List Char → Option (List Nat × List Char)
  | [] => none
  | '"' :: s => some ([], s)
  | '\\' :: 'u' :: a :: b :: c :: d :: s =>
    match hexUnit? a b c d, scanString s with
    | some n, some (units, rest) => some (n :: units, rest)
    | _, _ => none
  | '\\' :: c :: s =>
    match escaped? c, scanString s with
    | some n, some (units, rest) => some (n :: units, rest)
    | _, _ => none
  | c :: s =>
    if c = '\\' || c.toNat < 0x20 then none
    else (scanString s).map (fun p => (c.toNat :: p.1, p.2))

def isHighSurrogate (n : Nat) : Bool := 0xd800 ≤ n && n ≤ 0xdbff

def isLowSurrogate (n : Nat) : Bool := 0xdc00 ≤ n && n ≤ 0xdfff

/-- The characters that code units stand for; a surrogate outside a pair
stands for none. -/
def charsOfUnits? : List Nat → Option (List Char)
  | [] => some []
  | hi :: lo :: rest =>
    if isHighSurrogate hi && isLowSurrogate lo then
      (charsOfUnits? rest).map
        (Char.ofNat (0x10000 + (hi - 0xd800) * 0x400 + (lo - 0xdc00)) :: ·)
    else if isHighSurrogate hi || isLowSurrogate hi then none
    else (charsOfUnits? (lo :: rest)).map (Char.ofNat hi :: ·)
  | [n] => if isHighSurrogate n || isLowSurrogate n then none else some [Char.ofNat n]

mutual

/-- One value at the head of the text, and the text after it. -/
def parseValue : Nat → List Char → Option (Json × List Char)
  | 0, _ => none
  | steps + 1, s =>
    match skipSpace s with
    | '\x7b' :: s =>
      match skipSpace s with
      | '\x7d' :: rest => some (.object [], rest)
      | s => (parseMembers steps s).map (fun p =>
          (match p.1 with
            | some members => .object members
            | none => .unreadable, p.2))
    | '[' :: s =>
      match skipSpace s with
      | ']' :: rest => some (.array [], rest)
      | s => (parseItems steps s).map (fun p => (.array p.1, p.2))
    | '"' :: s => (scanString s).map (fun p =>
        (match charsOfUnits? p.1 with
          | some chars => .string (String.ofList chars)
          | none => .unreadable, p.2))
    | 't' :: 'r' :: 'u' :: 'e' :: rest => some (.bool true, rest)
    | 'f' :: 'a' :: 'l' :: 's' :: 'e' :: rest => some (.bool false, rest)
    | 'n' :: 'u' :: 'l' :: 'l' :: rest => some (.null, rest)
    | s => (scanNumber? s).map (fun p => (p.1.toJson, p.2))

/-- The items of an array from its first one to the closing bracket. -/
def parseItems : Nat → List Char → Option (List Json × List Char)
  | 0, _ => none
  | steps + 1, s =>
    match parseValue steps s with
    | none => none
    | some (item, s) =>
      match skipSpace s with
      | ']' :: rest => some ([item], rest)
      | ',' :: s => (parseItems steps s).map (fun p => (item :: p.1, p.2))
      | _ => none

/-- The members of an object from its first one to the closing brace; there
are none to name when one of the names is unreadable. -/
def parseMembers : Nat → List Char → Option (Option (List (String × Json)) × List Char)
  | 0, _ => none
  | steps + 1, s =>
    match skipSpace s with
    | '"' :: s =>
      match scanString s with
      | none => none
      | some (units, s) =>
        match skipSpace s with
        | ':' :: s =>
          match parseValue steps s with
          | none => none
          | some (item, s) =>
            let first := (charsOfUnits? units).map (fun name => (String.ofList name, item))
            match skipSpace s with
            | '\x7d' :: rest => some (first.map ([·]), rest)
            | ',' :: s =>
              (parseMembers steps s).map (fun p =>
                (match first, p.1 with
                  | some first, some others => some (first :: others)
                  | _, _ => none, p.2))
            | _ => none
        | _ => none
    | _ => none

end

/-- The document a text writes, when it writes exactly one. -/
def parse? (text : String) : Option Json :=
  let s := text.toList
  match parseValue (2 * s.length + 2) s with
  | some (document, rest) => if (skipSpace rest).isEmpty then some document else none
  | none => none

def depthLimit : Nat := 127

/-- The value a text denotes. -/
def read? (text : String) : Option Json :=
  match parse? text with
  | some document => if document.depth ≤ depthLimit then document.value? else none
  | none => none

end ClassPolicy.Json
