import Rulebook.Object.Class
import Rulebook.Object.Heap
import Rulebook.Object.Method

/-!
# The world of values

Everything that rules may meet: the declared classes, the code of callers, the modules that can be
imported, and the heap of objects. Reading never changes the world, and neither does the code of
callers; assigning and making objects do.

Mappings are dictionaries and read-only views of such. Declared classes say for themselves how their
instances are keys, but not how they are compared, counted, worded or tested for truth.
-/

set_option autoImplicit false

namespace Rulebook

/-- A module: whether it can hold other modules, and its members. -/
structure Module where
  isPackage : Bool
  members : Catalog String Value

/-- The declared classes, the code of callers, the modules by full name, and the objects. -/
structure World where
  classes : Array ClassDef
  /-- Whether a value can be called; if so, whether what it makes of another value counts as true,
  or how it fails. -/
  calls : Heap → Value → Option (Value → Except Fault Bool)
  modules : Catalog String Module
  heap : Heap

namespace World

/-- A world in which nothing has been declared. -/
def initial : World := ⟨#[], fun _ _ => none, [], Heap.initial⟩

/-- The definition of a declared class. -/
def classDef? (w : World) : ClassId → Option ClassDef
  | .builtin _ => none
  | .declared i => w.classes[i]?

/-- The name of a class. -/
def className (w : World) : ClassId → String
  | .builtin b => b.name
  | .declared i => ((w.classes[i]?).map (·.name)).getD ""

/-- The module that defines a class. -/
def moduleName (w : World) (c : ClassId) : String := ((w.classDef? c).map (·.module)).getD ""

/-- The name of a class where operators complain about its instances. -/
def operandName (w : World) : ClassId → String
  | .builtin b => b.operandName
  | c => w.className c

/-- The class, then all it inherits from, nearest first. -/
def ancestry (w : World) : ClassId → List ClassId
  | .builtin b => b.ancestry.map .builtin
  | .declared i => ((w.classes[i]?).map (·.ancestry)).getD []

/-- The class of a value. -/
def classOf (w : World) (v : Value) : ClassId := w.heap.classOf v

/-- The name of the class of a value. -/
def nameOfClassOf (w : World) (v : Value) : String := w.className (w.classOf v)

/-- The standing class, other than the most general one, that instances of a class are built on. -/
def foundation (w : World) (c : ClassId) : Builtin :=
  ((w.ancestry c).findSome? fun
    | .builtin .object => none
    | .builtin b => some b
    | .declared _ => none).getD .object

/-- How keys are made of the instances of a class, as far as a declared class says so before the
standing class that it is built on. -/
def hashing? (w : World) (c : ClassId) : Option Hashing :=
  let declared := (w.ancestry c).takeWhile fun
    | .builtin _ => false
    | .declared _ => true
  declared.findSome? fun c => (w.classDef? c).bind (·.hashing)

/-- The value is a dictionary, the usual kind of mapping. -/
def isDict (w : World) (v : Value) : Bool := (w.ancestry (w.classOf v)).contains (.builtin .mapping)

/-- The entries of a dictionary. -/
def dict? (w : World) (v : Value) : Option Entries :=
  if w.isDict v then w.heap.mapping? v else none

/-- Makes an object. -/
def make (w : World) (o : Object) : World × Value :=
  let (heap, v) := w.heap.make o
  ({ w with heap }, v)

/-- Makes an object that is nothing but its content. -/
def makeContent (w : World) (b : Builtin) (content : Content) : World × Value :=
  w.make ⟨.builtin b, content, [], []⟩

/-- Declares a class with these bases, the most general class when there are none. -/
def declare (w : World) (name module : String) (bases : List ClassId)
    (slots : Option (List String)) (attributes : Catalog String Value)
    (properties : Catalog String Property) (hashing : Option Hashing)
    (annotations : Except Fault (Catalog String Hint)) : World :=
  let bases := if bases.isEmpty then [.builtin .object] else bases
  let c := ClassId.declared w.classes.size
  let ancestry := Ancestry.linearise c bases (bases.map w.ancestry)
  { w with
    classes := w.classes.push
      ⟨name, module, ancestry, slots, attributes, properties, hashing, annotations⟩ }

end World

end Rulebook
