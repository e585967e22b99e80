import Rulebook.Number.Extended

/-!
# Values

What properties and constraints hold: numbers of several kinds, text, bytes, classes, functions, and
references to objects. Values of the simple kinds have no identity; containers and instances live in
a heap and are known here by their address only.
-/

set_option autoImplicit false

namespace Rulebook

/-- The classes that are always there. -/
inductive Builtin where
  | object
  | nothing
  | bool
  | int
  | float
  | fraction
  | decimal
  | complex
  | text
  | bytes
  | byteArray
  | list
  | tuple
  | range
  | set
  | mapping
  /-- A view of a mapping, itself a mapping but no dictionary. -/
  | proxy
  | function
  | type
  | missing
  | pattern
  | settings
  | keys
deriving DecidableEq, Inhabited

namespace Builtin

/-- The short name of a class. -/
def name : Builtin → String
  | .object => "object"
  | .nothing => "NoneType"
  | .bool => "bool"
  | .int => "int"
  | .float => "float"
  | .fraction => "Fraction"
  | .decimal => "Decimal"
  | .complex => "complex"
  | .text => "str"
  | .bytes => "bytes"
  | .byteArray => "bytearray"
  | .list => "list"
  | .tuple => "tuple"
  | .range => "range"
  | .set => "set"
  | .mapping => "dict"
  | .proxy => "mappingproxy"
  | .function => "function"
  | .type => "type"
  | .missing => "_Missing"
  | .pattern => "Pattern"
  | .settings => "ValidatorOptions"
  | .keys => "Keys"

/-- The name of a class where operators complain about its instances. -/
def operandName : Builtin → String
  | .decimal => "decimal.Decimal"
  | .pattern => "re.Pattern"
  | b => b.name

/-- The name of a class with the module it comes from. -/
def qualifiedName : Builtin → String
  | .fraction => "fractions.Fraction"
  | .decimal => "decimal.Decimal"
  | .pattern => "re.Pattern"
  | b => b.name

end Builtin

/-- A class, known by identity: two classes may share a name. -/
inductive ClassId where
  | builtin (b : Builtin)
  | declared (index : Nat)
deriving DecidableEq, Inhabited

/-- The address of an object. -/
abbrev Address := Nat

/-- A value. -/
inductive Value where
  /-- The value that stands for none. -/
  | nothing
  /-- What is read where there is no property. -/
  | missing
  | bool (b : Bool)
  | int (n : Int)
  | float (d : Double)
  | fraction (q : Rat)
  | decimal (d : Decimal)
  | complex (re im : Double)
  | text (s : String)
  | bytes (bs : List UInt8)
  | byteArray (bs : List UInt8)
  | ofClass (c : ClassId)
  | function (name : String)
  | object (address : Address)
deriving DecidableEq, Inhabited

/-- A real number. -/
inductive Real where
  | whole (n : Int)
  | float (d : Double)
  | fraction (q : Rat)
deriving DecidableEq

namespace Real

/-- The place of a number in the order; none when it is not a number. -/
def extended? : Real → Option Extended
  | .whole n => some (.rat n)
  | .float d => Extended.ofDouble? d
  | .fraction q => some (.rat q)

/-- `a ≤ b` in the exact order, false when either is not a number. -/
def le (a b : Real) : Bool := Extended.holdsLe a.extended? b.extended?

/-- `a < b` in the exact order, false when either is not a number. -/
def lt (a b : Real) : Bool := Extended.holdsLt a.extended? b.extended?

/-- The nearest double; none when there is none as large. -/
def toDouble? : Real → Option Double
  | .whole n => Double.ofRat? n
  | .float d => some d
  | .fraction q => Double.ofRat? q

/-- Neither infinite nor not a number, and not too large for a double. -/
def isFinite (r : Real) : Bool :=
  match r.toDouble? with
  | some (.finite ..) => true
  | _ => false

end Real

end Rulebook
