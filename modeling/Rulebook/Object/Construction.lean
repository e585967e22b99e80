import Rulebook.Shaping

/-!
# Making objects

Containers from their elements, and instances from their attributes. Instances of classes built on a
container, text or number can be given the content of another value.
-/

set_option autoImplicit false

namespace Rulebook

namespace World

/-- The keys of values, without repetitions. -/
def distinct (w : World) : List Value → Catalog Key Value → Except Fault (List Value)
  | [], seen => return seen.map (·.2)
  | v :: rest, seen => do
    let key ← w.key? v
    w.distinct rest (seen.alter (fun old => old.getD v) key)

/-- The entries that pairs write one after the other. -/
def entriesOf (w : World) : List (Value × Value) → Entries → Except Fault Entries
  | [], entries => return entries
  | (shown, value) :: rest, entries => do
    let key ← w.key? shown
    w.entriesOf rest (entries.write key shown value)

/-- Makes a list. -/
def makeList (w : World) (items : List Value) : World × Value :=
  w.makeContent .list (.list items.toArray)

/-- Makes a tuple. -/
def makeTuple (w : World) (items : List Value) : World × Value :=
  w.makeContent .tuple (.tuple items.toArray)

/-- Makes a set. -/
def makeSet (w : World) (items : List Value) : Except Fault (World × Value) := do
  return w.makeContent .set (.set (← w.distinct items []))

/-- Makes a mapping. -/
def makeMapping (w : World) (pairs : List (Value × Value)) : Except Fault (World × Value) := do
  return w.makeContent .mapping (.mapping (← w.entriesOf pairs []))

/-- Makes a range. -/
def makeRange (w : World) (start stop step : Int) : World × Value :=
  w.makeContent .range (.range start stop step)

/-- Makes settings. -/
def makeSettings (w : World) (s : Settings) : World × Value :=
  w.makeContent .settings (.settings s)

/-! ## Content of other values -/

/-- The elements that going through a value yields. -/
def elements (w : World) (v : Value) : Except Fault (List Value) :=
  match w.heap.sequence? v, w.heap.text? v, w.heap.content? v with
  | some (n, get), _, _ => return (List.range n).map get
  | none, some s, _ => return s.toList.map fun c => .text (String.singleton c)
  | none, none, some (.set items) => return items
  | none, none, some (.mapping entries) => return entries.pairs.map (·.1)
  | _, _, _ => throw (.notIterable (w.nameOfClassOf v))

/-- The pairs in a value: its entries, or its elements as pairs. -/
def pairsIn (w : World) (v : Value) : Except Fault (List (Value × Value)) :=
  match w.heap.mapping? v with
  | some entries => return entries.pairs
  | none => do
    let items ← w.elements v
    items.filterMapM fun item => do
      match ← w.elements item with
      | [key, value] => return some (key, value)
      | _ => return none

/-- The whole part of a number. -/
def wholePart : Value → Int
  | .int n => n
  | .bool b => if b then 1 else 0
  | .float d => ((d.toRat?).map fun q => Int.tdiv q.num q.den).getD 0
  | .fraction q => Int.tdiv q.num q.den
  | .text s => (Numeral.whole? s).getD 0
  | _ => 0

/-- The nearest double of a number. -/
def nearestDouble : Value → Double
  | .int n => (Double.ofRat? n).getD .zero
  | .bool b => (Double.ofRat? (if b then 1 else 0)).getD .zero
  | .float d => d
  | .fraction q => (Double.ofRat? q).getD .zero
  | .text s => (Double.ofText? 0 s).getD .zero
  | _ => .zero

/-- What an instance of a class built on a standing class carries when it is made from a value. -/
def contentFrom (w : World) (b : Builtin) (v : Value) : Except Fault Content :=
  match b with
  | .list => do return .list (← w.elements v).toArray
  | .tuple => do return .tuple (← w.elements v).toArray
  | .set => do return .set (← w.distinct (← w.elements v) [])
  | .mapping => do return .mapping (← w.entriesOf (← w.pairsIn v) [])
  | .text => return .scalar (.text (w.plainText v))
  | .int => return .scalar (.int (wholePart (w.heap.plain v)))
  | .float => return .scalar (.float (nearestDouble (w.heap.plain v)))
  | _ => return Content.blank b

/-- Assigns attributes to an instance one after the other. -/
def furnish (w : World) (v : Value) : List (Value × Value) → Except Fault World
  | [] => return w
  | (key, value) :: rest => do (← w.assign v key value).furnish v rest

/-- Makes an instance of a class with these attributes, and the content of a value if one is
given. -/
def makeInstance (w : World) (c : ClassId) (argument : Option Value)
    (attributes : List (Value × Value)) : Except Fault (World × Value) := do
  let (w, v) ← w.blank c
  let w ← match argument with
    | none => pure w
    | some given => do
      let content ← w.contentFrom (w.foundation c) given
      pure (w.update v fun o => { o with content })
  let w ← w.furnish v attributes
  return (w, v)

/-! ## Looking at objects -/

/-- The attributes that an instance carries: those of its namespace, then those in slots. -/
def attributesOf (w : World) (v : Value) : List (Value × Value) :=
  match w.heap.object? v with
  | none => []
  | some o =>
    let names := (w.ancestry o.classId).flatMap fun c => ((w.classDef? c).bind (·.slots)).getD []
    o.fields.pairs ++ names.filterMap fun name =>
      (o.slots.get? name).map fun value => (.text name, value)

end World

/-- A specification in precise form. -/
def RuleSpec.display (w : World) (s : RuleSpec) : String :=
  w.plainText s.ruleType ++ "(" ++ Display.commas (s.constraints.map w.preciseText) ++ ")"

end Rulebook
