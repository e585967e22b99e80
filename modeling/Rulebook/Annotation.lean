import Rulebook.Failure
import Rulebook.Rule.Registry

/-!
# Declaring rules on classes

Rules are declared for one property of a class, or read off the annotations of its fields. All
annotations are understood before the first rule is registered, so a class that cannot be read
leaves the registry as it was. Annotations of classes further up do not count. What a name in an
annotation means is up to the caller, who says what annotations that were left as text evaluate to.
-/

set_option autoImplicit false

namespace Rulebook

/-- The markers of an annotation, which is evaluated if it was left as text. -/
def Hint.understand (evaluate : Hint → Except Fault (List Marker)) (hint : Hint) :
    Except Fault (List Marker) :=
  if hint.typeName.isSome then evaluate hint else return hint.markers

namespace World

/-- The declarations that bind specifications to a property of a class. -/
def declarations (w : World) (target key : Value) (specs : List RuleSpec) :
    Except Failure (List Declaration) :=
  match target with
  | .ofClass c => return specs.map fun s => s.bind c key
  | _ =>
    throw (.misconfigured (.undeclarable (w.nameOfClassOf target) (w.plainText key)))

/-- The annotations of a class itself, not those of classes further up. -/
def annotationsOf (w : World) (c : ClassId) : Except Fault (Catalog String Hint) :=
  ((w.classDef? c).map (·.annotations)).getD (.ok [])

/-- The markers of annotated fields, each with the name of its field. An annotation that was left as
text is evaluated; the first for which that fails is what the failure is about. -/
def fieldMarkers (owner : String) (evaluate : Hint → Except Fault (List Marker)) :
    Catalog String Hint → Except Failure (List (String × Marker))
  | [] => return []
  | (field, hint) :: rest => do
    let markers ← match hint.understand evaluate with
      | .ok markers => pure markers
      | .error fault => throw (.misconfigured (.unreadableHint owner field fault))
    let others ← fieldMarkers owner evaluate rest
    return markers.map (fun m => (field, m)) ++ others

/-- The declarations in the annotations of a class. -/
def annotated (w : World) (evaluate : ClassId → Hint → Except Fault (List Marker))
    (target : Value) : Except Failure (List Declaration) :=
  match target with
  | .ofClass c => do
    let hints ← match w.annotationsOf c with
      | .ok hints => pure hints
      | .error fault => throw (.misconfigured (.unreadableAnnotations (w.className c) fault))
    let markers ← fieldMarkers (w.className c) (evaluate c) hints
    return markers.filterMap fun (field, marker) =>
      marker.rule?.map fun s => s.bind c (.text field)
  | _ => throw (.misconfigured (.notAnnotated (w.nameOfClassOf target)))

end World

end Rulebook
