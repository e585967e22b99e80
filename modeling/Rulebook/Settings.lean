import Rulebook.Object.Attribute

/-!
# Settings of a validation

Callers give settings in several forms: not at all, ready-made, or as a mapping with the names in
either of two spellings, of which the first wins.
-/

set_option autoImplicit false

namespace Rulebook

/-- The settings that hold unless others are given. -/
def Settings.standard : Settings := ⟨false, false⟩

namespace World

/-- The truth of the first of two entries of a mapping that is there; false when neither is. -/
def flag (w : World) (entries : Entries) (name other : String) : Bool :=
  match (entries.read? (.ofText name)).or (entries.read? (.ofText other)) with
  | some v => w.heap.isTrue v
  | none => false

/-- Why a value that is no mapping cannot be asked for its entries. -/
def notMapping (w : World) : Value → Fault
  | .ofClass c =>
    match w.foundation c with
    | .mapping | .proxy => .wrongReceiver "get" (w.foundation c).name "str"
    | _ => .noClassAttribute (w.className c) "get"
  | v => .noAttribute (w.operandName (w.classOf v)) "get"

/-- The settings in a value. -/
def settingsOf (w : World) (v : Value) : Except Fault Settings :=
  match v, w.heap.content? v with
  | .nothing, _ => return .standard
  | _, some (.settings s) => return s
  | _, some (.mapping entries) =>
    return ⟨w.flag entries "abort_early" "abortEarly",
      w.flag entries "strip_unknown" "stripUnknown"⟩
  | _, _ => throw (w.notMapping v)

end World

end Rulebook
