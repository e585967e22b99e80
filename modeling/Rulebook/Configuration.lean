import Rulebook.Library
import Rulebook.Object.Attribute
import Rulebook.Rule.Registry

/-!
# Rules from configurations

A configuration lists entries, each of which makes one declaration. Entries that are no dictionaries
or lack a property or a type are passed over; the first entry that makes no sense ends the reading,
and what was registered before it stays.
-/

set_option autoImplicit false

namespace Rulebook

/-- What an entry amounts to. -/
inductive EntryOutcome where
  | skipped (record : Record)
  | declared (w : World) (d : Declaration)

/-- The state of reading a configuration. -/
structure Loading where
  world : World
  registry : Registry
  log : List Record

namespace World

/-- Reads a pattern and makes an object of it. -/
def makePattern (w : World) (shown : Value) (source : String) : Except Failure (World × Value) :=
  match Pattern.parse source with
  | .ok (node, flags) => return w.makeContent .pattern (.pattern ⟨source, node, flags⟩)
  | .error (.malformed cause position) =>
    throw (.misconfigured
      (.badPattern shown (w.preciseText shown) (Pattern.describe source cause position)))
  | .error .repetitionTooLarge => throw (.fault .repetitionTooLarge)
  | .error .incompatibleFlags => throw (.fault .incompatibleFlags)

/-- Turns a constraint into what the strategy of the rule type expects: paths into what they lead
to, and text into patterns. -/
def resolveConstraint (w : World) (ruleType : String) (v : Value) :
    Except Failure (World × Value) :=
  match w.heap.text? v with
  | none => return (w, v)
  | some s =>
    if ruleType = "Custom" then return (w, ← w.load v)
    else if ruleType = "Matches" then w.makePattern v s
    else return (w, v)

/-- Turns constraints into what the strategy of the rule type expects. -/
def resolveConstraints (w : World) (ruleType : String) :
    List Value → Except Failure (World × List Value)
  | [] => return (w, [])
  | v :: rest => do
    let (w, first) ← w.resolveConstraint ruleType v
    let (w, others) ← w.resolveConstraints ruleType rest
    return (w, first :: others)

/-- The constraints of an entry: the elements of a list or tuple, or a single value. -/
def constraintsOf (w : World) (entry : Entries) : List Value :=
  match entry.read? (.ofText "constraints") with
  | none => []
  | some v =>
    match w.heap.content? v with
    | some (.list items) | some (.tuple items) => items.toList
    | _ => [v]

/-- The class that an entry is about. -/
def ownerOf (w : World) (reference : Value) : Except Failure ClassId := do
  let v ← match reference with
    | .ofClass _ => pure reference
    | _ => w.load reference
  match v with
  | .ofClass c => return c
  | _ => throw (.misconfigured (.ownerNotClass (w.plainText reference)))

/-- The priority of an entry. -/
def priorityOf (w : World) (entry : Entries) (index : Nat) (key ruleType : Value) :
    Except Failure (Option Value) :=
  match (entry.read? (.ofText "priority")).bind Value.present? with
  | none => return none
  | some v =>
    if w.heap.isReal v then return some v
    else
      let shown := w.preciseText v
      throw (.misconfigured (.priorityNotNumber index (w.plainText key) ruleType shown))

/-- The declaration that an entry with a property and a type makes. -/
def declarationOf (w : World) (entry : Entries) (defaultOwner : Value) (source : Option String)
    (index : Nat) (key ruleType : Value) : Except Failure (World × Declaration) := do
  let some typeName := w.heap.text? ruleType
    | throw (.misconfigured (.typeNotText index (w.plainText key) (w.preciseText ruleType)))
  if !w.isHashable key then
    throw (.misconfigured (.keyNotHashable index (w.preciseText key) ruleType))
  let reference := (entry.read? (.ofText "owner")).getD defaultOwner
  if reference = .nothing then throw (.misconfigured (.ownerMissing index key ruleType))
  let owner ← w.ownerOf reference
  let given := w.constraintsOf entry
  let priority ← w.priorityOf entry index key ruleType
  let (w, constraints) ← w.resolveConstraints typeName given
  let message := (entry.read? (.ofText "message")).bind Value.present?
  let each := ((entry.read? (.ofText "each")).map w.heap.isTrue).getD false
  let location := source.map fun s => s ++ "#rules[" ++ toString index ++ "]"
  return (w, ⟨owner, key, ruleType, constraints, none, some ⟨message, each, priority⟩, location⟩)

/-- What an entry amounts to. -/
def readEntry (w : World) (entry : Value) (defaultOwner : Value) (source : Option String)
    (index : Nat) : Except Failure EntryOutcome :=
  match w.dict? entry with
  | none => return .skipped (.malformedEntry index)
  | some entries =>
    let key := (entries.read? (.ofText "property")).getD .nothing
    let ruleType := (entries.read? (.ofText "type")).getD .nothing
    if w.heap.isTrue key && w.heap.isTrue ruleType then do
      let (w, d) ← w.declarationOf entries defaultOwner source index key ruleType
      return .declared w d
    else return .skipped (.incompleteEntry index)

end World

namespace Loading

/-- Reads entries one after the other, and registers what they declare. -/
def readEntries (defaultOwner : Value) (source : Option String) :
    Nat → List Value → Loading → Loading × Except Failure (List Declaration)
  | _, [], l => (l, .ok [])
  | index, entry :: rest, l =>
    match l.world.readEntry entry defaultOwner source index with
    | .error failure => (l, .error failure)
    | .ok (.skipped record) =>
      readEntries defaultOwner source (index + 1) rest { l with log := l.log ++ [record] }
    | .ok (.declared w d) =>
      let (l, outcome) := readEntries defaultOwner source (index + 1) rest
        { l with world := w, registry := l.registry.add d }
      (l, outcome.map (d :: ·))

/-- Reads a configuration: the declarations it makes, in order. -/
def read (l : Loading) (config : Entries) : Loading × Except Failure (List Declaration) :=
  let w := l.world
  let rules := config.read? (.ofText "rules")
  let items := match rules with
    | none => some []
    | some v => match w.heap.content? v with
      | some (.list items) => some items.toList
      | _ => none
  match items with
  | none =>
    let className := w.nameOfClassOf (rules.getD .nothing)
    (l, .error (.misconfigured (.rulesNotList className)))
  | some items =>
    let owner := (config.read? (.ofText "owner")).getD .nothing
    let source := ((config.read? (.ofText "source")).filter w.heap.isTrue).map w.plainText
    match readEntries owner source 0 items l with
    | (l, .error failure) => (l, .error failure)
    | (l, .ok ds) =>
      ({ l with log := l.log ++ [.registered ds.length l.registry.name] }, .ok ds)

/-- Reads a configuration whose names are not known to be text yet. -/
def readNamed (l : Loading) (config : Entries) : Loading × Except Failure (List Declaration) :=
  if config.pairs.all fun (name, _) => (l.world.heap.text? name).isSome then l.read config
  else (l, .error (.fault .keywordsNotText))

end Loading

/-! ## Rule files -/

/-- A path without empty and idle steps. -/
def tidyPath (path : String) : String :=
  let steps := (path.splitOn "/").filter fun step => step ≠ "" && step ≠ "."
  let body := "/".intercalate steps
  if path.startsWith "/" then "/" ++ body else if body = "" then "." else body

namespace Loading

/-- Reads the rule file at a path, given its document; none when there is no such file. Unless the
document names its source, the path does. -/
def readFile (l : Loading) (path : String) (document : Option Value) :
    Loading × Except Failure (List Declaration) :=
  let path := tidyPath path
  match document with
  | none => (l, .error (.fault (.noFile path)))
  | some v =>
    match l.world.dict? v with
    | none => (l, .error (.misconfigured (.fileNotMapping path)))
    | some entries =>
      let named : Entries :=
        if (entries.read? (.ofText "source")).isSome then entries
        else entries.write (.ofText "source") (.text "source") (.text path)
      l.readNamed named

end Loading

end Rulebook
