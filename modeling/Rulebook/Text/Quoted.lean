import Rulebook.Text.Printable

/-!
# Quoted text

The form in which text and bytes stand inside messages: between quotes, with a backslash before
what cannot stand for itself. Single quotes are used unless the text has single quotes and no
double ones.
-/

set_option autoImplicit false

namespace Rulebook.Quoted

/-- The quote that surrounds the characters. -/
def quoteOf (s : List Char) : Char :=
  if s.contains '\'' && !s.contains '"' then '"' else '\''

/-- A number in hexadecimal digits, filled up with zeros. -/
def hex (width n : Nat) : List Char :=
  let digits := Nat.toDigits 16 n
  List.replicate (width - digits.length) '0' ++ digits

/-- The escape of a character that cannot stand for itself, by its code point. -/
def escapeCode (n : Nat) : List Char :=
  if n < 0x100 then '\\' :: 'x' :: hex 2 n
  else if n < 0x10000 then '\\' :: 'u' :: hex 4 n
  else '\\' :: 'U' :: hex 8 n

/-- The characters that have a short escape. -/
def shortEscape (c : Char) : Option (List Char) :=
  match c with
  | '\\' => some ['\\', '\\']
  | '\n' => some ['\\', 'n']
  | '\r' => some ['\\', 'r']
  | '\t' => some ['\\', 't']
  | _ => none

/-- One character between quotes. -/
def escape (quote c : Char) : List Char :=
  if c = quote then ['\\', c]
  else match shortEscape c with
    | some e => e
    | none => if Printable.holds c then [c] else escapeCode c.toNat

/-- Text between quotes. -/
def text (s : String) : String :=
  let quote := quoteOf s.toList
  String.ofList (quote :: s.toList.flatMap (escape quote) ++ [quote])

/-- One byte between quotes: the printable ones of the first 128 stand for themselves. -/
def escapeByte (quote : Char) (b : UInt8) : List Char :=
  let c := Char.ofNat b.toNat
  if c = quote then ['\\', c]
  else match shortEscape c with
    | some e => e
    | none => if ' ' ≤ c && c ≤ '~' then [c] else '\\' :: 'x' :: hex 2 b.toNat

/-- Bytes between quotes. -/
def bytes (bs : List UInt8) : String :=
  let quote := quoteOf (bs.map fun b => Char.ofNat b.toNat)
  String.ofList ('b' :: quote :: bs.flatMap (escapeByte quote) ++ [quote])

/-- Bytes that can be changed, named as such. A single quote is always escaped. -/
def byteArray (bs : List UInt8) : String :=
  let quote := quoteOf (bs.map fun b => Char.ofNat b.toNat)
  let body := bs.flatMap fun b => if b = 39 then ['\\', '\''] else escapeByte quote b
  "bytearray(" ++ String.ofList ('b' :: quote :: body ++ [quote]) ++ ")"

end Rulebook.Quoted
