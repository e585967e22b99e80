import Rulebook.Catalog
import Rulebook.Rule.Basic
import Rulebook.Text.Quoted

/-!
# Rule registries

A registry keeps the declarations of every class in the order they came in. Nothing is ever taken
out of it, and equal declarations are kept side by side.
-/

set_option autoImplicit false

namespace Rulebook

/-- Declarations by class. -/
structure Registry where
  name : String
  rules : Catalog ClassId (List Declaration)
deriving Inhabited

namespace Registry

/-- A registry without declarations. -/
def empty (name : String) : Registry := ⟨name, []⟩

/-- Appends a declaration to those of its class. -/
def add (r : Registry) (d : Declaration) : Registry :=
  { r with rules := r.rules.alter (fun old => old.getD [] ++ [d]) d.owner }

/-- Appends declarations one after the other. -/
def addAll (r : Registry) (ds : List Declaration) : Registry := ds.foldl add r

/-- The declarations of a class, in order of registration. -/
def rulesOf (r : Registry) (c : ClassId) : List Declaration := (r.rules.get? c).getD []

/-- The classes with declarations, in order of first registration. -/
def owners (r : Registry) : List ClassId := r.rules.keys

/-- The class has declarations. -/
def contains (r : Registry) (c : ClassId) : Bool := r.rules.contains c

/-- How many declarations a class has, or all classes together. -/
def count (r : Registry) : Option ClassId → Nat
  | some c => (r.rulesOf c).length
  | none => (r.rules.flatMap (·.2)).length

/-- A registry in one line. -/
def display (r : Registry) : String :=
  "RuleRegistry(name=" ++ Quoted.text r.name ++ ", owners=" ++ toString r.rules.length ++ ")"

/-- What a declaration adds: itself, at the end of the list of its own class. -/
theorem rulesOf_add (r : Registry) (d : Declaration) (c : ClassId) :
    (r.add d).rulesOf c = if d.owner = c then r.rulesOf c ++ [d] else r.rulesOf c := by
  simp only [add, rulesOf, Catalog.get?_alter]
  by_cases h : d.owner = c <;> simp [h]

/-- What declarations add: every class keeps what it has and gets its own, in their order. -/
theorem rulesOf_addAll (r : Registry) (ds : List Declaration) (c : ClassId) :
    (r.addAll ds).rulesOf c = r.rulesOf c ++ ds.filter (·.owner = c) := by
  induction ds generalizing r with
  | nil => simp [addAll]
  | cons d rest ih =>
    change ((r.add d).addAll rest).rulesOf c = _
    rw [ih, rulesOf_add]
    by_cases hd : d.owner = c <;> simp [hd]

end Registry

end Rulebook
