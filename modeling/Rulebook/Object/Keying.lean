import Rulebook.World

/-!
# Keys

Which values can be keys, and when two keys are one: numbers of all kinds when they are equal as
numbers, text and bytes when they are spelled alike, tuples element by element, all other objects
when they are the same object. A declared class may say something else of its instances, and its
code may fail; instances of number and text classes are keys as the number or text inside them.
Comparing two keys never fails.
-/

set_option autoImplicit false

namespace Rulebook

/-- The key of a double. -/
def KeyAtom.ofDouble (d : Double) : KeyAtom :=
  match d, d.toRat? with
  | _, some q => .rat q
  | .infinite negative, none => .infinite negative
  | .nan tag, none => .undefined tag
  | .finite .., none => .rat 0

/-- A double in which the two zeros are one. -/
def Double.foldZero (d : Double) : Double := if d.isZero then .zero else d

/-- The key of a complex number: that of its real part when there is no other. -/
def KeyAtom.ofComplex (re im : Double) : KeyAtom :=
  if im.isZero then KeyAtom.ofDouble re else .complex re.foldZero im.foldZero

/-- The key of a decimal; a signalling one has none. -/
def KeyAtom.ofDecimal : Decimal → Except Fault KeyAtom
  | .finite negative c e =>
    return .rat (((Decimal.finite negative c e).toRat?).getD 0)
  | .infinite negative => return .infinite negative
  | .nan _ signalling _ tag =>
    if signalling then throw .unhashableDecimal else return .undefined tag

namespace World

/-- The class gives its instances a key, as far as the class alone can tell. -/
def isHashable (w : World) (v : Value) : Bool :=
  match w.heap.plain v with
  | .byteArray _ => false
  | .object _ =>
    match w.hashing? (w.classOf v) with
    | some .none => false
    | some (.own _) => true
    | none =>
      match w.heap.content? v with
      | some (.list _) | some (.set _) | some (.mapping _) => false
      | _ => true
  | _ => true

/-- The keys of values, one after the other. -/
def keysOf (key : Value → Except Fault Key) : List Value → Except Fault Key
  | [] => return []
  | v :: rest => do
    let first ← key v
    let others ← keysOf key rest
    return first ++ others

/-- The key of a value that lies at most `room` tuples deep. -/
def keyWithin (w : World) : Nat → Value → Except Fault Key
  | room, v =>
    match w.heap.plain v with
    | .nothing => return [.nothing]
    | .missing => return [.missing]
    | .bool b => return [.rat (if b then 1 else 0)]
    | .int n => return [.rat n]
    | .float d => return [.ofDouble d]
    | .fraction q => return [.rat q]
    | .decimal d => return [← KeyAtom.ofDecimal d]
    | .complex re im => return [.ofComplex re im]
    | .text s => return [.text s]
    | .bytes bs => return [.bytes bs]
    | .byteArray _ => throw (.unhashable (w.nameOfClassOf v))
    | .ofClass c => return [.ofClass c]
    | .function name => return [.function name]
    | .object a =>
      match w.hashing? (w.classOf v) with
      | some .none => throw (.unhashable (w.nameOfClassOf v))
      | some (.own code) => return [.object (← code a)]
      | none =>
        match room, w.heap.content? v with
        | _, some (.list _) | _, some (.set _) | _, some (.mapping _) =>
          throw (.unhashable (w.nameOfClassOf v))
        | room + 1, some (.tuple items) => do
          let words ← keysOf (keyWithin w room) items.toList
          return .tuple items.size :: words
        | _, some (.range start stop step) =>
          let n := Heap.rangeLength start stop step
          return [.range (if n = 0 then 0 else start) (if n ≤ 1 then 0 else step) n]
        | _, some (.pattern p) => return [.pattern p.source]
        | _, some (.settings s) => return [.settings s.abortEarly s.stripUnknown]
        | _, _ => return [.object a]

/-- The key of a value. -/
def key? (w : World) (v : Value) : Except Fault Key := w.keyWithin w.heap.size v

end World

end Rulebook
