import Rulebook.Number.Double

/-!
# Numerals

Decimal texts as exact numbers: an optional sign, digits with an optional point, an optional
exponent. `Double.ofText?` rounds the number so read to the nearest double, or to an infinity.
-/

set_option autoImplicit false

namespace Rulebook.Numeral

/-- The text read as digits: the number, and how many digits it took. -/
def digits : List Char → Nat × Nat × List Char :=
  go 0 0
where
  go (value count : Nat) : List Char → Nat × Nat × List Char
    | [] => (value, count, [])
    | c :: rest =>
      if c.isDigit then go (10 * value + (c.toNat - '0'.toNat)) (count + 1) rest
      else (value, count, c :: rest)

/-- An optional sign: whether it is negative, and the rest. -/
def sign : List Char → Bool × List Char
  | '-' :: rest => (true, rest)
  | '+' :: rest => (false, rest)
  | s => (false, s)

/-- A whole number in decimal digits with an optional sign. -/
def whole? (s : String) : Option Int :=
  let (negative, rest) := sign s.toList
  match digits rest with
  | (value, count, []) =>
    if count = 0 then none else some (if negative then -(value : Int) else value)
  | _ => none

/-- A sign, a coefficient and a power of ten. -/
structure Scientific where
  negative : Bool
  coefficient : Nat
  exponent : Int
deriving DecidableEq

/-- The exponent part at the end of a number, zero when there is none. -/
def exponent? : List Char → Option Int
  | [] => some 0
  | c :: rest =>
    if c = 'e' ∨ c = 'E' then
      let (negative, rest) := sign rest
      match digits rest with
      | (value, count, []) =>
        if count = 0 then none else some (if negative then -(value : Int) else value)
      | _ => none
    else none

/-- A decimal number such as `-1.50e+3`. -/
def scientific? (s : List Char) : Option Scientific :=
  let (negative, rest) := sign s
  let (value, before, rest) := digits rest
  let (value, after, rest) := match rest with
    | '.' :: fraction =>
      let (part, count, rest) := digits fraction
      (scaleUp value 10 count + part, count, rest)
    | _ => (value, 0, rest)
  if before + after = 0 then none
  else (exponent? rest).map fun e => ⟨negative, value, e - after⟩

end Rulebook.Numeral

namespace Rulebook.Double

open Numeral

/-- The double nearest to a decimal number; an infinity when the number is too large. -/
def ofScientific (s : Scientific) : Double :=
  match nearest? (scaleUp s.coefficient 10 s.exponent) (scaleUp 1 10 (-s.exponent)) with
  | some (m, e) => .finite s.negative m e
  | none => .infinite s.negative

/-- Reads the text of a double. What is not a number gets the tag. -/
def ofText? (tag : Nat) (s : String) : Option Double :=
  match sign (s.toList.map Char.toLower) with
  | (_, ['n', 'a', 'n']) => some (.nan tag)
  | (negative, ['i', 'n', 'f']) => some (.infinite negative)
  | (negative, ['i', 'n', 'f', 'i', 'n', 'i', 't', 'y']) => some (.infinite negative)
  | _ => (scientific? s.toList).map ofScientific

end Rulebook.Double
