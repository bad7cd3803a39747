import Pipeline.Json

/-!
# JSON texts as written

What the grammar of JSON sees in a text, before numbers and strings are given a
meaning: digits stay digits and escapes stay escapes. A text can be well formed and
still have no value, because of a number beyond the range of doubles, an escape that
denotes half a character, or too deep a nesting.
-/

set_option autoImplicit false

namespace Pipeline.Json

structure NumberLiteral where
  negative : Bool
  whole : List Char
  fraction : Option (List Char)
  /-- Whether the exponent is negative, and its digits. -/
  exponent : Option (Bool × List Char)

/-- An element of a string as written: a character, or a unit of 16 bits given by its
hexadecimal code. -/
inductive Piece where
  | char (c : Char)
  | unit (code : Nat)

inductive Raw where
  | null
  | boolean (value : Bool)
  | number (literal : NumberLiteral)
  | string (pieces : List Piece)
  | array (items : List Raw)
  | object (members : List (List Piece × Raw))

/-! ## Numbers -/

namespace NumberLiteral

/-- Significands of literals are below this bound. -/
def significandBound : Nat := Nat.pow 2 64

/-- The value of the leading digits that fit the significand, and the number of digits
after them. -/
def takeWhole (significand : Nat) : List Char → Nat × Nat
  | [] => (significand, 0)
  | digit :: rest =>
    let next := 10 * significand + (digit.toNat - '0'.toNat)
    if next < significandBound then takeWhole next rest else (significand, rest.length + 1)

/-- The significand continued by the leading digits that fit it, and their number. -/
def takeFraction (significand places : Nat) : List Char → Nat × Nat
  | [] => (significand, places)
  | digit :: rest =>
    let next := 10 * significand + (digit.toNat - '0'.toNat)
    if next < significandBound then takeFraction next (places + 1) rest
    else (significand, places)

/-- The greatest power of ten that is a double. -/
def maxPower : Nat := 308

/-- A double times a power of ten, rounded at each step: one multiplication or division
by a power within range, after division by the greatest power for as long as the
exponent is below the range. Numbers beyond the doubles have no value. Two divisions
turn every significand into zero, so three steps are enough. -/
def scale? : Nat → Double → Int → Option Double
  | 0, x, _ => some x
  | steps + 1, x, exponent =>
    if exponent.natAbs ≤ maxPower then
      let power := Double.ofDecimal false 1 exponent.natAbs
      if 0 ≤ exponent then x.mul? power else x.div? power
    else if x.isZero then some x
    else if 0 ≤ exponent then none
    else do
      let scaled ← x.div? (Double.ofDecimal false 1 maxPower)
      scale? steps scaled (exponent + maxPower)

def exponentValue (literal : NumberLiteral) : Int :=
  match literal.exponent with
  | none => 0
  | some (negative, digits) =>
    let size : Int := digitsValue 0 digits
    if negative then -size else size

def double? (literal : NumberLiteral) : Option Double := do
  let (whole, dropped) := takeWhole 0 literal.whole
  let (significand, places) := takeFraction whole 0 (literal.fraction.getD [])
  let exponent := (dropped : Int) - places + literal.exponentValue
  let size ← scale? 3 (Double.ofInt significand) exponent
  some (if literal.negative then size.neg else size)

/-- The number that a literal denotes: an integer if it has neither fraction nor
exponent and fits 64 bits, otherwise a double. Minus zero is a double. -/
def value? (literal : NumberLiteral) : Option Number :=
  let whole : Int := digitsValue 0 literal.whole
  let value := if literal.negative then -whole else whole
  let integral := literal.fraction.isNone && literal.exponent.isNone &&
    !(literal.negative && whole == 0)
  match if integral then boundedInteger? value else none with
  | some n => some (.integer n)
  | none => literal.double?.map .float

end NumberLiteral

/-! ## Strings -/

/-- Whether a unit is the first half of a character. -/
def isHighSurrogate (code : Nat) : Bool :=
  Nat.ble 0xd800 code && Nat.ble code 0xdbff

/-- Whether a unit is the second half of a character. -/
def isLowSurrogate (code : Nat) : Bool :=
  Nat.ble 0xdc00 code && Nat.ble code 0xdfff

/-- The characters that pieces denote. Two halves make a character only next to each
other, and a half alone denotes nothing. -/
def characters? : List Piece → Option (List Char)
  | [] => some []
  | .char c :: rest => (characters? rest).map (c :: ·)
  | .unit high :: .unit low :: rest =>
    if isHighSurrogate high && isLowSurrogate low then
      let code := 0x10000 + (high - 0xd800) * 0x400 + (low - 0xdc00)
      (characters? rest).map (Char.ofNat code :: ·)
    else if isHighSurrogate high || isLowSurrogate high then none
    else (characters? (.unit low :: rest)).map (Char.ofNat high :: ·)
  | .unit code :: rest =>
    if isHighSurrogate code || isLowSurrogate code then none
    else (characters? rest).map (Char.ofNat code :: ·)

def text? (pieces : List Piece) : Option String :=
  (characters? pieces).map String.ofList

/-! ## Values -/

/-- The deepest nesting of arrays and objects that has a value. -/
def maxNesting : Nat := 127

namespace Raw

mutual

/-- The value of a raw value that stands where `room` more levels may be opened. -/
def value? (room : Nat) : Raw → Option Json
  | null => some .null
  | boolean value => some (.boolean value)
  | number literal => literal.value?.map .number
  | string pieces => (text? pieces).map .string
  | array items => if room = 0 then none else (itemValues? (room - 1) items).map .array
  | object members =>
    if room = 0 then none
    else (memberValues? (room - 1) members).map fun members => .object (foldMembers members)
termination_by structural raw => raw

def itemValues? (room : Nat) : List Raw → Option (List Json)
  | [] => some []
  | item :: rest => do
    let value ← value? room item
    let values ← itemValues? room rest
    some (value :: values)
termination_by structural items => items

def memberValues? (room : Nat) : List (List Piece × Raw) → Option (List (String × Json))
  | [] => some []
  | (pieces, member) :: rest => do
    let name ← text? pieces
    let value ← value? room member
    let values ← memberValues? room rest
    some ((name, value) :: values)
termination_by structural members => members

end

end Raw

end Pipeline.Json
