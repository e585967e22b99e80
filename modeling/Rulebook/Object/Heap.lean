import Rulebook.Catalog
import Rulebook.Fault
import Rulebook.Object.Value
import Rulebook.Pattern.Parser
import Rulebook.Pattern.Matching

/-!
# Objects

The heap holds everything that has identity: containers, instances, patterns, options and the
members of the one enumeration. `Heap.plain` sees through instances of number and text classes,
which behave as the number or text inside them.
-/

set_option autoImplicit false

namespace Rulebook

/-- A key made comparable: equal keys have equal words. Numbers of all kinds are one kind of key, a
tuple is written as its length and the words of its elements. -/
inductive KeyAtom where
  | nothing
  | missing
  | rat (q : Rat)
  | infinite (negative : Bool)
  | undefined (tag : Nat)
  | complex (re im : Double)
  | text (s : String)
  | bytes (bs : List UInt8)
  | ofClass (c : ClassId)
  | function (name : String)
  | object (address : Address)
  | tuple (length : Nat)
  | range (start step : Int) (length : Nat)
  | pattern (source : String)
  | settings (abortEarly stripUnknown : Bool)
deriving DecidableEq

/-- The word of a key. -/
abbrev Key := List KeyAtom

/-- The key of an attribute name. -/
def Key.ofText (s : String) : Key := [.text s]

/-- Entries by key; each remembers the first spelling of its key. -/
abbrev Entries := Catalog Key (Value × Value)

namespace Entries

/-- Writes an entry, keeping the first spelling of its key. -/
def write (e : Entries) (key : Key) (shown value : Value) : Entries :=
  e.alter (fun old => ((old.map (·.1)).getD shown, value)) key

/-- The value at a key. -/
def read? (e : Entries) (key : Key) : Option Value := (Catalog.get? e key).map (·.2)

/-- Keys as spelled and values, in order. -/
def pairs (e : Entries) : List (Value × Value) := e.map (·.2)

end Entries

/-- What a caller asks of a validation. -/
structure Settings where
  /-- Stop at the first recorded failure. -/
  abortEarly : Bool
  /-- Drop keys without declared rules when shaping raw data. -/
  stripUnknown : Bool
deriving DecidableEq, Inhabited

/-- A pattern that has been read. -/
structure CompiledPattern where
  source : String
  node : Pattern.Node
  flags : Pattern.Flags

/-- What an object carries besides its attributes. -/
inductive Content where
  | bare
  /-- The number or text inside an instance of a number or text class. -/
  | scalar (v : Value)
  | list (items : Array Value)
  | tuple (items : Array Value)
  | set (items : List Value)
  | mapping (entries : Entries)
  | range (start stop step : Int)
  | pattern (p : CompiledPattern)
  | settings (s : Settings)
  | member (name : String) (value : Value)

/-- An object: its class, its content, and its attributes. -/
structure Object where
  classId : ClassId
  content : Content
  /-- The attributes in its namespace, if it has one. -/
  fields : Entries
  /-- The attributes in the slots of its class that are set. -/
  slots : Catalog String Value

/-- All objects, by address. -/
abbrev Heap := Array Object

namespace Heap

/-- The heap before any object is made: it holds the members of the enumeration. -/
def initial : Heap :=
  #[⟨.builtin .keys, .member "SECRET" (.text "secret"), [], []⟩,
    ⟨.builtin .keys, .member "OTHER" (.text "other"), [], []⟩]

/-- The address of a member of the enumeration. -/
def member? (name : String) : Option Address :=
  match name with
  | "SECRET" => some 0
  | "OTHER" => some 1
  | _ => none

/-- The object that a value refers to. -/
def object? (h : Heap) : Value → Option Object
  | .object a => h[a]?
  | _ => none

/-- The content of the object that a value refers to. -/
def content? (h : Heap) (v : Value) : Option Content := (h.object? v).map (·.content)

/-- The number or text inside an instance of a number or text class; any other value itself. -/
def plain (h : Heap) (v : Value) : Value :=
  match h.content? v with
  | some (.scalar s) => s
  | _ => v

/-- The class of a value. -/
def classOf (h : Heap) : Value → ClassId
  | .nothing => .builtin .nothing
  | .missing => .builtin .missing
  | .bool _ => .builtin .bool
  | .int _ => .builtin .int
  | .float _ => .builtin .float
  | .fraction _ => .builtin .fraction
  | .decimal _ => .builtin .decimal
  | .complex .. => .builtin .complex
  | .text _ => .builtin .text
  | .bytes _ => .builtin .bytes
  | .byteArray _ => .builtin .byteArray
  | .ofClass _ => .builtin .type
  | .function _ => .builtin .function
  | .object a => match h[a]? with
    | some o => o.classId
    | none => .builtin .object

/-- How many whole numbers a range holds. -/
def rangeLength (start stop step : Int) : Nat :=
  if 0 < step then ((stop - start + step - 1) / step).toNat
  else if step < 0 then ((start - stop + -step - 1) / -step).toNat
  else 0

/-- A text. -/
def text? (h : Heap) (v : Value) : Option String :=
  match h.plain v with
  | .text s => some s
  | _ => none

/-- A real number; truth values are none. -/
def real? (h : Heap) (v : Value) : Option Real :=
  match h.plain v with
  | .int n => some (.whole n)
  | .float d => some (.float d)
  | .fraction q => some (.fraction q)
  | _ => none

/-- An ordered sequence other than text: its length and its elements. -/
def sequence? (h : Heap) (v : Value) : Option (Nat × (Nat → Value)) :=
  match h.content? v with
  | some (.list items) => some (items.size, fun i => items.getD i .missing)
  | some (.tuple items) => some (items.size, fun i => items.getD i .missing)
  | some (.range start stop step) =>
    some (rangeLength start stop step, fun i => .int (start + step * i))
  | _ => none

/-- The entries of a mapping. -/
def mapping? (h : Heap) (v : Value) : Option Entries :=
  match h.content? v with
  | some (.mapping entries) => some entries
  | _ => none

/-- The pattern that a value refers to. -/
def pattern? (h : Heap) (v : Value) : Option CompiledPattern :=
  match h.content? v with
  | some (.pattern p) => some p
  | _ => none

/-- A missing property, or one that is none. -/
def isAbsent : Value → Bool
  | .nothing | .missing => true
  | _ => false

/-- A value that can have rules of its own: an object or a container, but no number, text, class or
function. -/
def isComposite (h : Heap) (v : Value) : Bool :=
  match h.content? v with
  | some (.scalar _) => false
  | some _ => true
  | none => false

/-- An ordered sequence other than text. -/
def isSequence (h : Heap) (v : Value) : Bool := (h.sequence? v).isSome

/-- A real number; truth values are none. -/
def isReal (h : Heap) (v : Value) : Bool := (h.real? v).isSome

/-- A real number that is finite and not too large for a double. -/
def isFinite (h : Heap) (v : Value) : Bool :=
  match h.real? v with
  | some r => r.isFinite
  | none => false

/-- Whether a value counts as true: not when it is none, false, zero or empty. -/
def isTrue (h : Heap) (v : Value) : Bool :=
  match h.plain v with
  | .nothing | .missing => false
  | .bool b => b
  | .int n => n ≠ 0
  | .float d => !d.isZero
  | .fraction q => q ≠ 0
  | .decimal d => !d.isZero
  | .complex re im => !(re.isZero && im.isZero)
  | .text s => !s.isEmpty
  | .bytes bs => !bs.isEmpty
  | .byteArray bs => !bs.isEmpty
  | .ofClass _ | .function _ => true
  | .object a => match h[a]? with
    | some o => match o.content with
      | .list items | .tuple items => !items.isEmpty
      | .set items => !items.isEmpty
      | .mapping entries => !entries.isEmpty
      | .range start stop step => rangeLength start stop step ≠ 0
      | _ => true
    | none => true

/-- Makes an object. -/
def make (h : Heap) (o : Object) : Heap × Value := (h.push o, .object h.size)

end Heap

end Rulebook
