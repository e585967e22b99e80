import Rulebook.Engine
import Rulebook.Failure

/-!
# Shaping

Raw data becomes an instance of a class by assigning every entry to a blank instance. Data without
declared rules may be dropped on the way. Nothing is validated here.
-/

set_option autoImplicit false

namespace Rulebook

/-- What an instance of a standing class carries when it is made from nothing. -/
def Content.blank : Builtin → Content
  | .int => .scalar (.int 0)
  | .float => .scalar (.float .zero)
  | .fraction => .scalar (.fraction 0)
  | .text => .scalar (.text "")
  | .bytes => .scalar (.bytes [])
  | .list => .list #[]
  | .tuple => .tuple #[]
  | .set => .set []
  | .mapping => .mapping []
  | _ => .bare

namespace World

/-- A new instance of a class, made from nothing. -/
def blank (w : World) (c : ClassId) : Except Fault (World × Value) :=
  match c with
  | .builtin .keys => throw .memberWithoutValue
  | .builtin .bool => return (w, .bool false)
  | .builtin b =>
    match Content.blank b with
    | .scalar v => return (w, v)
    | content => return w.makeContent b content
  | .declared _ => return w.make ⟨c, Content.blank (w.foundation c), [], []⟩

/-- Assigns entries to an instance one after the other. -/
def assignAll (w : World) (v : Value) : List (Value × Value) → Except Failure World
  | [] => return w
  | (key, value) :: rest =>
    match w.assign v key value with
    | .ok w => w.assignAll v rest
    | .error fault =>
      throw (.misconfigured (.unassignable (w.nameOfClassOf v) (w.displayKey key) fault))

/-- The entries of data under the given keys, spelled like these. -/
def selectEntries (w : World) (data : Entries) : List Value → Except Fault (List (Value × Value))
  | [] => return []
  | shown :: rest => do
    let key ← w.key? shown
    let others ← w.selectEntries data rest
    return match data.read? key with
      | some value => (shown, value) :: others
      | none => others

/-- The entries of data that an instance is to have: all, or those with declared rules. -/
def entriesFor (w : World) (ds : List Declaration) (data : Entries) (strip : Bool) :
    Except Fault (List (Value × Value)) := do
  if strip then
    let keys ← w.propertyKeys ds []
    w.selectEntries data keys
  else return data.pairs

/-- Shapes data into an instance of a class with these declarations. -/
def shape (w : World) (ds : List Declaration) (c : ClassId) (data : Entries) (strip : Bool) :
    Except Failure (World × Value) := do
  let (w, v) ← orFail (w.blank c)
  let entries ← orFail (w.entriesFor ds data strip)
  let w ← w.assignAll v entries
  return (w, v)

end World

end Rulebook
