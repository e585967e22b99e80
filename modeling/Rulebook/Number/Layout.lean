import Rulebook.Number.Shortest

/-!
# Writing a double

`Layout` collects the decisions of a number format: from which size on an exponent is written, how
many digits it has, whether a whole number keeps a `.0`. `Double.text` is the format of values in
messages, `Double.complexText` that of complex numbers.
-/

set_option autoImplicit false

namespace Rulebook

/-- How a double is written. -/
structure Layout where
  /-- The least exponent of the leading digit that is written positionally. -/
  plainFrom : Int
  /-- The least exponent of the leading digit from which on an exponent is written again. -/
  plainBelow : Int
  /-- A whole number is written with `.0`. -/
  pointZero : Bool
  /-- An exponent has at least so many digits. -/
  exponentDigits : Nat

namespace Layout

/-- Numbers in messages: `0.0001` and `1e-05`, `1.0` and `1e+16`. -/
def number : Layout := ⟨-4, 16, true, 2⟩

/-- Parts of complex numbers, where a whole number has no point. -/
def component : Layout := { number with pointZero := false }

/-- The text, filled up on the left with zeros. -/
def padLeft (width : Nat) (s : String) : String :=
  String.ofList (List.replicate (width - s.length) '0') ++ s

/-- The digits with a point after `before` of them, filled up with zeros on either side. -/
def positional (l : Layout) (digits : List Char) (before : Int) : String :=
  let whole := digits.take before.toNat
    ++ List.replicate (before.toNat - digits.length) '0'
  let fraction := List.replicate (-before).toNat '0' ++ digits.drop before.toNat
  let wholeText := if whole.isEmpty then "0" else String.ofList whole
  if fraction.isEmpty then wholeText ++ (if l.pointZero then ".0" else "")
  else wholeText ++ "." ++ String.ofList fraction

/-- The digits with a point after the first, and the exponent of the first. -/
def scientific (l : Layout) (digits : List Char) (exponent : Int) : String :=
  let mantissa := match digits with
    | [] => "0"
    | [d] => String.ofList [d]
    | d :: rest => String.ofList (d :: '.' :: rest)
  let sign := if exponent < 0 then "-" else "+"
  mantissa ++ "e" ++ sign ++ padLeft l.exponentDigits (toString exponent.natAbs)

/-- A double without its sign. -/
def magnitude (l : Layout) (mantissa : Nat) (exponent : Int) : String :=
  if mantissa = 0 then l.positional ['0'] 1
  else
    let d := Shortest.digits mantissa exponent
    let digits := Nat.toDigits 10 d.digits
    let before := digits.length + d.exponent
    if l.plainFrom ≤ before - 1 ∧ before - 1 < l.plainBelow then l.positional digits before
    else l.scientific digits (before - 1)

/-- A double in this layout. -/
def write (l : Layout) : Double → String
  | .finite negative mantissa exponent =>
    (if negative then "-" else "") ++ l.magnitude mantissa exponent
  | .infinite negative => if negative then "-inf" else "inf"
  | .nan _ => "nan"

end Layout

namespace Double

/-- The text of a double in messages. -/
def text (d : Double) : String := Layout.number.write d

/-- The sign bit is set. -/
def isNegative : Double → Bool
  | .finite negative _ _ => negative
  | .infinite negative => negative
  | .nan _ => false

/-- The text of a complex number: `1j` when its real part is zero without a sign, `(1+2j)`
otherwise. -/
def complexText (re im : Double) : String :=
  let imText := Layout.component.write im ++ "j"
  if re.isZero ∧ ¬re.isNegative then imText
  else
    let sign := if imText.startsWith "-" then "" else "+"
    "(" ++ Layout.component.write re ++ sign ++ imText ++ ")"

end Double

end Rulebook
