import Rulebook.Rule.Registry
import Rulebook.Strategy.Registry

/-!
# Plans

A plan is what the declarations of a class amount to: one executor for every property, with the
actions to take in order. Compiling drops every declaration that makes no sense and notes it down.

Compiling fails only where a key cannot be looked up although its class says so, or where a priority
is too large to be compared with a double.
-/

set_option autoImplicit false

namespace Rulebook

/-- What to do with the value of a property. -/
inductive Action where
  /-- Ask the strategy of the declared rule type. -/
  | predicate (ruleType : String) (d : Declaration) (strategy : Strategy)
  /-- Validate the value, or each of its elements, by the rules of its own class. -/
  | nested (each : Bool)

/-- What to do with one property. -/
structure Executor where
  key : Value
  name : String
  /-- An absent property passes. -/
  isOptional : Bool
  location : Option String
  actions : List Action

/-- What to do with the instances of a class. -/
structure Plan where
  owner : ClassId
  executors : List Executor

/-! ## Grouping by property -/

/-- Declarations by property, each group with the key as it was first spelled. -/
abbrev Groups := Catalog Key (Value × List Declaration)

namespace World

/-- Groups declarations by property. Those whose key is of no use as a key are passed over. -/
def group (w : World) (owner : ClassId) :
    List Declaration → Groups → List Record × Except Fault Groups
  | [], groups => ([], .ok groups)
  | d :: rest, groups =>
    if w.isHashable d.key then
      match w.key? d.key with
      | .ok key =>
        w.group owner rest (groups.alter
          (fun old => match old with
            | some (shown, ds) => (shown, ds ++ [d])
            | none => (d.key, [d])) key)
      | .error fault => ([], .error fault)
    else
      let (records, outcome) := w.group owner rest groups
      (.malformedKey (w.preciseText d.key) (w.className owner) :: records, outcome)

/-- The distinct property keys of declarations, as first spelled, in order. -/
def propertyKeys (w : World) : List Declaration → Catalog Key Value → Except Fault (List Value)
  | [], seen => return seen.map (·.2)
  | d :: rest, seen => do
    let key ← w.key? d.key
    w.propertyKeys rest (seen.alter (fun old => old.getD d.key) key)

/-! ## Compiling a property -/

/-- Separates the declarations whose rule type is text, and notes down the others. -/
def typed (w : World) (owner : ClassId) (name : String) :
    List Declaration → List (String × Declaration) × List Record
  | [] => ([], [])
  | d :: rest =>
    let (kept, records) := w.typed owner name rest
    match w.heap.text? d.ruleType with
    | some ruleType => ((ruleType, d) :: kept, records)
    | none => (kept, .malformedType (w.preciseText d.ruleType) (w.className owner) name :: records)

/-- The place of a priority in the order: that of zero when it is no number. -/
def rank (w : World) (owner : ClassId) (name ruleType : String) (d : Declaration) :
    List Record × Except Fault Extended :=
  let unranked : List Record × Except Fault Extended :=
    ([.malformedPriority (w.preciseText d.priority) ruleType (w.className owner) name],
      .ok (.rat 0))
  match w.heap.real? d.priority with
  | none => unranked
  | some r =>
    match r.toDouble?, r.extended?, r with
    | some _, some place, _ => ([], .ok place)
    | some _, none, _ => unranked
    | none, _, .fraction _ => ([], .error .fractionTooLarge)
    | none, _, _ => ([], .error .wholeTooLarge)

/-- The places of the priorities of declarations. -/
def ranks (w : World) (owner : ClassId) (name : String) :
    List (String × Declaration) →
      List Record × Except Fault (List (Extended × String × Declaration))
  | [] => ([], .ok [])
  | (ruleType, d) :: rest =>
    match w.rank owner name ruleType d with
    | (records, .error fault) => (records, .error fault)
    | (records, .ok place) =>
      let (others, outcome) := w.ranks owner name rest
      (records ++ others, outcome.map ((place, ruleType, d) :: ·))

/-- The actions of declarations, and a note about every unknown rule type. -/
def actions (w : World) (strategies : StrategyRegistry) (owner : ClassId) (name : String) :
    List (String × Declaration) → List Action × List Record
  | [] => ([], [])
  | (ruleType, d) :: rest =>
    let (kept, records) := w.actions strategies owner name rest
    if ruleType = nestedType then (.nested d.each :: kept, records)
    else match strategies.get? ruleType with
      | some strategy => (.predicate ruleType d strategy :: kept, records)
      | none => (kept, .unknownType ruleType (w.className owner) name :: records)

end World

/-- Puts the higher ranks first, equal ranks in their order. -/
def byRank (ds : List (Extended × String × Declaration)) : List (String × Declaration) :=
  (ds.mergeSort fun a b => b.1.le a.1).map (·.2)

/-- The first location among declarations that is not empty. -/
def firstLocation? (ds : List (String × Declaration)) : Option String :=
  ds.findSome? fun (_, d) => d.location.filter (!·.isEmpty)

namespace World

/-- Compiles the declarations of one property. -/
def compileProperty (w : World) (strategies : StrategyRegistry) (owner : ClassId) (key : Value)
    (ds : List Declaration) : List Record × Except Fault Executor :=
  let name := w.displayKey key
  let (wellFormed, malformed) := w.typed owner name ds
  let (ranking, ranked) :=
    w.ranks owner name (wellFormed.filter fun (ruleType, _) => ruleType ≠ optionalType)
  match ranked with
  | .error fault => (malformed ++ ranking, .error fault)
  | .ok ranked =>
    let active := byRank ranked
    let (actions, unknown) := w.actions strategies owner name active
    (malformed ++ ranking ++ unknown, .ok {
      key, name, actions
      isOptional := wellFormed.any fun (ruleType, _) => ruleType = optionalType
      location := firstLocation? active })

/-- Compiles properties one after the other. -/
def compileProperties (w : World) (strategies : StrategyRegistry) (owner : ClassId) :
    List (Value × List Declaration) → List Record × Except Fault (List Executor)
  | [] => ([], .ok [])
  | (key, ds) :: rest =>
    match w.compileProperty strategies owner key ds with
    | (records, .error fault) => (records, .error fault)
    | (records, .ok executor) =>
      let (others, outcome) := w.compileProperties strategies owner rest
      (records ++ others, outcome.map (executor :: ·))

/-- Compiles the declarations of a class. -/
def compile (w : World) (strategies : StrategyRegistry) (owner : ClassId)
    (ds : List Declaration) : List Record × Except Fault Plan :=
  match w.group owner ds [] with
  | (malformed, .error fault) => (malformed, .error fault)
  | (malformed, .ok groups) =>
    match w.compileProperties strategies owner (groups.map (·.2)) with
    | (records, .error fault) => (malformed ++ records, .error fault)
    | (records, .ok executors) =>
      (malformed ++ records ++ [.compiled (w.className owner) executors.length],
        .ok ⟨owner, executors⟩)

end World

end Rulebook
