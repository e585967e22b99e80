import Rulebook.Log
import Rulebook.Object.Display
import Rulebook.Object.Keying

/-!
# Attributes

Reading and assigning the attributes of objects, and the reading of properties on which all rules
rest. An attribute is looked for in the class first: what is computed or has a slot there wins over
the namespace of the instance, which wins over everything else that the class defines. Names to
which the interpreter gives a meaning of its own are read and assigned like any other, and the text
of a key can always be found.
-/

set_option autoImplicit false

namespace Rulebook

/-- A part of the content of a value, by name. -/
def Heap.part? (h : Heap) (v : Value) (name : String) : Option Value :=
  match h.plain v, h.content? v, name with
  | .bool b, _, "real" | .bool b, _, "numerator" => some (.int (if b then 1 else 0))
  | .int n, _, "real" | .int n, _, "numerator" => some (.int n)
  | .bool _, _, "imag" | .int _, _, "imag" => some (.int 0)
  | .bool _, _, "denominator" | .int _, _, "denominator" => some (.int 1)
  | .float d, _, "real" => some (.float d)
  | .float _, _, "imag" => some (.float .zero)
  | .complex re _, _, "real" => some (.float re)
  | .complex _ im, _, "imag" => some (.float im)
  | .decimal d, _, "real" => some (.decimal d)
  | .decimal _, _, "imag" => some (.decimal (.finite false 0 0))
  | .fraction q, _, "numerator" => some (.int q.num)
  | .fraction q, _, "denominator" => some (.int q.den)
  | .fraction q, _, "real" => some (.fraction q)
  | .fraction _, _, "imag" => some (.int 0)
  | _, some (.range start _ _), "start" => some (.int start)
  | _, some (.range _ stop _), "stop" => some (.int stop)
  | _, some (.range _ _ step), "step" => some (.int step)
  | _, some (.pattern p), "pattern" => some (.text p.source)
  | _, some (.settings s), "abort_early" => some (.bool s.abortEarly)
  | _, some (.settings s), "strip_unknown" => some (.bool s.stripUnknown)
  | _, some (.member name _), "name" => some (.text name)
  | _, some (.member _ value), "value" => some value
  | _, _, _ => none

namespace World

/-- The attribute that a class itself defines under a name. -/
def ownMember? (w : World) (c : ClassId) (name : String) : Option Member :=
  match c with
  | .builtin b =>
    if b.parts.contains name then some (.intrinsic b)
    else if b.methods.contains name then some (.plain (.function name))
    else none
  | .declared _ => (w.classDef? c).bind (·.member? name)

/-- The attribute that a class defines or inherits under a name. -/
def member? (w : World) (c : ClassId) (name : String) : Option Member :=
  (w.ancestry c).findSome? fun c => w.ownMember? c name

/-- The value has a namespace, in which keys of any kind can be looked up. -/
def hasNamespace (w : World) (v : Value) : Bool :=
  match v with
  | .missing | .ofClass _ | .function _ => true
  | .object _ =>
    match w.heap.content? v with
    | some (.member ..) | some (.settings _) => true
    | _ => (w.ancestry (w.classOf v)).any fun c =>
        ((w.classDef? c).map (·.opensNamespace)).getD false
  | _ => false

/-- The entries of the namespace of a value. -/
def namespaceOf (w : World) (v : Value) : Entries :=
  ((w.heap.object? v).map (·.fields)).getD []

/-- The attribute of a class. -/
def classAttribute? (w : World) (c : ClassId) (name : String) : Option Value :=
  match c, Heap.member? name with
  | .builtin .keys, some a => some (.object a)
  | _, _ => (w.member? c name).map fun
    | .plain v => v
    | _ => .function name

/-- How many attributes of a class stand for others. -/
def countAliases (w : World) (c : ClassId) : Nat :=
  ((w.ancestry c).flatMap fun c => ((w.classDef? c).map (·.properties.keys)).getD []).length

/-- The attribute of an instance, following at most `room` aliases; none when there is none. -/
def attributeWithin (w : World) (v : Value) : Nat → String → Except Fault (Option Value)
  | 0, _ => throw .tooDeep
  | room + 1, name =>
    let field := (w.namespaceOf v).read? (.ofText name)
    match w.member? (w.classOf v) name with
    | some (.property (.constant value)) => return some value
    | some (.property (.alias target)) => w.attributeWithin v room target
    | some (.property (.failing text)) => throw (.refused text)
    | some (.property (.absent _)) => return none
    | some .slot => return (w.heap.object? v).bind (·.slots.get? name)
    | some (.intrinsic _) => return w.heap.part? v name
    | some (.plain value) => return field.or (some value)
    | none => return field

/-- The attribute of a value; none when there is none. -/
def attribute? (w : World) (v : Value) (name : String) : Except Fault (Option Value) :=
  match v with
  | .ofClass c => return w.classAttribute? c name
  | _ => w.attributeWithin v (w.countAliases (w.classOf v) + 1) name

/-- The property of a value under a key: the entry of a mapping, the attribute of that name, or the
entry of the namespace. None when there is none. -/
def property? (w : World) (v key : Value) : Except Fault (Option Value) :=
  match w.heap.mapping? v, w.heap.text? key with
  | some entries, _ => do return entries.read? (← w.key? key)
  | none, some name => w.attribute? v name
  | none, none =>
    if w.hasNamespace v then do return (w.namespaceOf v).read? (← w.key? key)
    else return none

/-- The text of a key in reports. -/
def displayKey (w : World) (key : Value) : String := w.plainText key

/-- The property of a value under a key, missing when there is none. A failure is recorded and
counts as missing. -/
def resolve (w : World) (v key : Value) : Value × List Record :=
  match w.property? v key with
  | .ok found => (found.getD .missing, [])
  | .error fault =>
    let shown := Quoted.text (w.displayKey key)
    (.missing, [.readingFailed shown (w.nameOfClassOf v) fault.message])

/-! ## Assigning -/

/-- Changes the object that a value refers to. -/
def update (w : World) (v : Value) (f : Object → Object) : World :=
  match v with
  | .object a => { w with heap := w.heap.modify a f }
  | _ => w

/-- Sets the attribute of an instance. -/
def setAttribute (w : World) (v : Value) (key : Value) (name : String) (value : Value) :
    Except Fault World :=
  let className := w.nameOfClassOf v
  match w.member? (w.classOf v) name with
  | some (.property _) => throw (.noSetter className name)
  | some .slot => return w.update v fun o => { o with slots := o.slots.put name value }
  | some (.intrinsic .fraction) => throw (.noSetter className name)
  | some (.intrinsic owner) => throw (.notWritable owner.name name)
  | member =>
    if w.hasNamespace v then
      return w.update v fun o => { o with fields := o.fields.write (.ofText name) key value }
    else if member.isSome then throw (.readOnlyAttribute className name)
    else throw (.noAttribute className name)

/-- Sets the property of an instance under a key: the attribute of that name, or the entry of the
namespace. -/
def assign (w : World) (v key value : Value) : Except Fault World :=
  match w.heap.text? key with
  | some name => w.setAttribute v key name value
  | none =>
    if w.hasNamespace v then do
      let k ← w.key? key
      return w.update v fun o => { o with fields := o.fields.write k key value }
    else throw .noNamespace

/-- Writes an entry of a mapping. -/
def putEntry (w : World) (v key value : Value) : Except Fault World := do
  let k ← w.key? key
  return w.update v fun o => match o.content with
    | .mapping entries => { o with content := .mapping (entries.write k key value) }
    | _ => o

/-- Appends to a list. -/
def appendItem (w : World) (v value : Value) : World :=
  w.update v fun o => match o.content with
    | .list items => { o with content := .list (items.push value) }
    | _ => o

end World

end Rulebook
