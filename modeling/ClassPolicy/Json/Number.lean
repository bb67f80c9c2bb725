import ClassPolicy.Json.Basic

/-!
# Numbers in JSON text

A number literal in its parts, and what it denotes. An integer that fits 64
bits is kept. Every other literal stands for a double, which is found from the
leading digits that fit 64 bits and from the power of ten that goes with them:
both are rounded, and so is their product. A literal whose double would be
infinite denotes nothing. The roundings add up, so some literals just below
the largest double are among these.
-/

set_option autoImplicit false

namespace ClassPolicy.Json

def isDigit (c : Char) : Bool := '0' ≤ c && c ≤ '9'

def appendDigit (n : Nat) (c : Char) : Nat := n * 10 + (c.toNat - '0'.toNat)

def digitsValue (digits : List Char) : Nat := digits.foldl appendDigit 0

/-- A number literal in its parts: sign, whole digits, digits after the point
and the exponent, each of the last two when written. -/
structure Literal where
  negative : Bool
  whole : List Char
  fraction : Option (List Char)
  exponent : Option (Bool × List Char)

def scanFraction? : List Char → Option (Option (List Char) × List Char)
  | '.' :: s =>
    let digits := s.takeWhile isDigit
    if digits.isEmpty then none else some (some digits, s.dropWhile isDigit)
  | s => some (none, s)

def scanExponent? : List Char → Option (Option (Bool × List Char) × List Char)
  | c :: s =>
    if c = 'e' || c = 'E' then
      let (negative, s) := match s with
        | '+' :: s => (false, s)
        | '-' :: s => (true, s)
        | s => (false, s)
      let digits := s.takeWhile isDigit
      if digits.isEmpty then none else some (some (negative, digits), s.dropWhile isDigit)
    else some (none, c :: s)
  | [] => some (none, [])

def scanNumber? (s : List Char) : Option (Literal × List Char) :=
  let (negative, s) := match s with
    | '-' :: s => (true, s)
    | s => (false, s)
  let whole := s.takeWhile isDigit
  if whole.isEmpty || (whole.head? = some '0' && whole.length ≠ 1) then none
  else
    match scanFraction? (s.dropWhile isDigit) with
    | none => none
    | some (fraction, s) =>
      match scanExponent? s with
      | none => none
      | some (exponent, s) => some (⟨negative, whole, fraction, exponent⟩, s)

/-- The nearest number of at most 53 significant bits; a tie goes to the even
one. -/
def roundToDouble (n : Nat) : Nat :=
  let unit := Nat.pow 2 (n.log2 - 52)
  let quotient := n / unit
  let twice := 2 * (n % unit)
  if unit < twice || (twice = unit && quotient % 2 = 1) then (quotient + 1) * unit
  else quotient * unit

/-- A number continued by digits as long as it fits 64 bits, and the digits
that are left. -/
def takeDigits (n : Nat) : List Char → Nat × List Char
  | [] => (n, [])
  | c :: rest =>
    if appendDigit n c < Nat.pow 2 64 then takeDigits (appendDigit n c) rest else (n, c :: rest)

namespace Literal

/-- The leading digits as one number, and its power of ten. Digits left over
before the point count for the power only, those left over after it for
nothing. -/
def scientific (l : Literal) : Nat × Int :=
  let (n, left) := takeDigits 0 l.whole
  let fraction := l.fraction.getD []
  let (n, unread) := takeDigits n fraction
  let written : Int := match l.exponent with
    | none => 0
    | some (negative, e) => if negative then -(digitsValue e : Int) else (digitsValue e : Int)
  (n, written + (left.length : Int) - ((fraction.length - unread.length : Nat) : Int))

/-- The power of ten beyond which only zero is finite. -/
def exponentLimit : Nat := 308

def isFinite (l : Literal) : Bool :=
  match l.scientific with
  | (_, .negSucc _) => true
  | (n, .ofNat exponent) =>
    if n = 0 then true
    else if exponentLimit < exponent then false
    else
      roundToDouble (roundToDouble n * roundToDouble (Nat.pow 10 exponent)) < Nat.pow 2 1024

def text (l : Literal) : String :=
  String.ofList ((if l.negative then ['-'] else []) ++ l.whole ++
    (match l.fraction with
      | none => []
      | some f => '.' :: f) ++
    (match l.exponent with
      | none => []
      | some (negative, e) => 'e' :: (if negative then ['-'] else []) ++ e))

def toJson (l : Literal) : Json :=
  let n := digitsValue l.whole
  if l.fraction.isNone && l.exponent.isNone && !(l.negative && n = 0) &&
      (if l.negative then n ≤ Nat.pow 2 63 else n < Nat.pow 2 64) then
    .integer (if l.negative then -(n : Int) else (n : Int))
  else if l.isFinite then .real l.text
  else .unreadable

end Literal

end ClassPolicy.Json
