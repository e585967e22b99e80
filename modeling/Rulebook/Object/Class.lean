import Rulebook.Catalog
import Rulebook.Rule.Spec

/-!
# Classes

A declared class: what it inherits from, what its instances can carry, which attributes it gives
them, how they are made keys, and which of its fields are annotated with rules.
-/

set_option autoImplicit false

namespace Rulebook

/-- An attribute that is computed when it is read. -/
inductive Property where
  | constant (v : Value)
  /-- The value of another attribute of the same instance. -/
  | alias (target : String)
  /-- Reading it fails. -/
  | failing (text : String)
  /-- Reading it finds nothing. -/
  | absent (text : String)
deriving DecidableEq

/-- What stands beside the type of an annotated field. -/
inductive Marker where
  | rule (s : RuleSpec)
  /-- Something that is no rule. -/
  | note (v : Value)
deriving DecidableEq

/-- The rule that a marker is. -/
def Marker.rule? : Marker → Option RuleSpec
  | rule s => some s
  | note _ => none

/-- The annotation of a field. -/
structure Hint where
  /-- The name of the type, when it still has to be looked up. -/
  typeName : Option String
  markers : List Marker
deriving DecidableEq

/-- How a class makes keys of its instances, if not by what they are and carry. -/
inductive Hashing where
  /-- Not at all. -/
  | none
  /-- By code of its own, which finds the instance that stands for all that are equal, or fails. -/
  | own (code : Address → Except Fault Address)

/-- A declared class. -/
structure ClassDef where
  /-- The name that messages show. -/
  name : String
  /-- The module that defines it. -/
  module : String
  /-- The class, then all it inherits from, nearest first. -/
  ancestry : List ClassId
  /-- The attributes of instances, if these are fixed. -/
  slots : Option (List String)
  attributes : Catalog String Value
  properties : Catalog String Property
  /-- How keys are made of instances, unless that is inherited. -/
  hashing : Option Hashing
  /-- The annotated fields, unless reading them fails. -/
  annotations : Except Fault (Catalog String Hint)

/-- An attribute as a class defines it. -/
inductive Member where
  | property (p : Property)
  | slot
  | plain (v : Value)
  /-- A part of the content of an instance. -/
  | intrinsic (owner : Builtin)

namespace ClassDef

/-- The attribute that the class itself defines under a name. -/
def member? (d : ClassDef) (name : String) : Option Member :=
  match d.properties.get? name with
  | some p => some (.property p)
  | none =>
    if (d.slots.getD []).contains name then some .slot
    else (d.attributes.get? name).map .plain

/-- Instances have a namespace for attributes of any name. -/
def opensNamespace (d : ClassDef) : Bool :=
  match d.slots with
  | none => true
  | some names => names.contains "__dict__"

end ClassDef

/-! ## The order of inheritance -/

namespace Ancestry

/-- A class may come next when no list holds it behind its head. -/
def mayComeNext (c : ClassId) (lists : List (List ClassId)) : Bool :=
  lists.all fun l => !l.tail.contains c

/-- Merges ancestries: the first head that no list holds further back comes next. -/
def merge : Nat → List (List ClassId) → List ClassId
  | 0, _ => []
  | room + 1, lists =>
    match (lists.filterMap List.head?).find? fun c => mayComeNext c lists with
    | none => []
    | some c =>
      c :: merge room (lists.map fun l => if l.head? = some c then l.tail else l)

/-- The ancestry of a class with these bases, given those of the bases: the class first, every class
before its own bases, and the bases in their order. -/
def linearise (c : ClassId) (bases : List ClassId) (ancestries : List (List ClassId)) :
    List ClassId :=
  c :: merge (ancestries.flatten.length + 1) (ancestries ++ [bases])

end Ancestry

end Rulebook
