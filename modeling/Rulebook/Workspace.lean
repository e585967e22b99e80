import Rulebook.Annotation
import Rulebook.Configuration
import Rulebook.Shaping

/-!
# Workspaces

A workspace holds a world of values, rule registries, strategy registries and engines, all by name.
An engine refers to the registries it works with, so that several can share them, and keeps its own
plans. Every operation is a step from one workspace to the next; a step that fails keeps what it has
done so far.
-/

set_option autoImplicit false

namespace Rulebook

/-- An engine: the names of its registries, and the plans it has made. -/
structure Engine where
  rules : String
  strategies : String
  plans : Catalog ClassId Plan

/-- All that operations work on. -/
structure Workspace where
  world : World
  registries : Catalog String Registry
  strategyRegistries : Catalog String StrategyRegistry
  engines : Catalog String Engine
  log : List Record

/-- An operation on a workspace. -/
abbrev Operation (α : Type) := ExceptT Failure (StateM Workspace) α

namespace Workspace

/-- The name of the registries and the engine that are shared by all. -/
def sharedName : String := "default"

/-- A workspace in which nothing has been declared. -/
def initial : Workspace :=
  { world := World.initial
    registries := []
    strategyRegistries := []
    engines := []
    log := [] }

/-- The rule registry of a name. -/
def registry (ws : Workspace) (name : String) : Registry :=
  (Catalog.get? ws.registries name).getD (.empty name)

/-- The strategy registry of a name. -/
def strategyRegistry (ws : Workspace) (name : String) : StrategyRegistry :=
  (Catalog.get? ws.strategyRegistries name).getD (.initial name true)

/-- The engine of a name. An engine that has not been set up works with the shared registries. -/
def engine (ws : Workspace) (name : String) : Engine :=
  (Catalog.get? ws.engines name).getD ⟨sharedName, sharedName, []⟩

/-- Sets up a strategy registry, unless it is there already. -/
def ensureStrategies (ws : Workspace) (name : String) (builtins : Bool) : Workspace :=
  if ws.strategyRegistries.contains name then ws
  else { ws with
    strategyRegistries := ws.strategyRegistries.put name (.initial name builtins) }

/-- Sets up an engine on two registries, unless it is there already. The shared engine works with
the shared registries. -/
def ensureEngine (ws : Workspace) (name rules strategies : String) : Workspace :=
  if ws.engines.contains name then ws
  else
    let e : Engine :=
      if name = sharedName then ⟨sharedName, sharedName, []⟩ else ⟨rules, strategies, []⟩
    { ws with engines := ws.engines.put name e }

/-- What an engine works with. -/
def setup (ws : Workspace) (e : Engine) (settings : Settings) : Setup :=
  ⟨ws.world, ws.registry e.rules, ws.strategyRegistry e.strategies, settings⟩

end Workspace

namespace Operation

open Workspace

/-- Adds records to the log. -/
def note (records : List Record) : Operation Unit :=
  modify fun ws => { ws with log := ws.log ++ records }

/-- The outcome of something that leaves the workspace alone. -/
def lift {α : Type} : Except Failure α → Operation α
  | .ok a => return a
  | .error failure => throw failure

/-- The outcome of something that leaves the workspace alone and fails with a fault. -/
def liftFault {α : Type} (r : Except Fault α) : Operation α := lift (orFail r)

/-- Changes the world, unless that fails. -/
def changeWorld (f : World → Except Fault World) : Operation Unit := do
  let w ← liftFault (f (← get).world)
  modify fun ws => { ws with world := w }

/-! ## Rule registries -/

/-- Adds declarations to a registry. -/
def addRules (registry : String) (ds : List Declaration) : Operation Unit :=
  modify fun ws =>
    { ws with registries := ws.registries.put registry ((ws.registry registry).addAll ds) }

/-- Declares rules for one property of a class. -/
def declare (registry : String) (target key : Value) (specs : List RuleSpec) : Operation Unit := do
  addRules registry (← lift ((← get).world.declarations target key specs))

/-- Declares the rules in the annotations of a class, and hands the class back. -/
def validated (evaluate : World → ClassId → Hint → Except Fault (List Marker)) (registry : String)
    (target : Value) : Operation Value := do
  let w := (← get).world
  addRules registry (← lift (w.annotated (evaluate w) target))
  return target

/-- The distinct property keys of a class with declared rules. -/
def propertyKeys (registry : String) (c : ClassId) : Operation (List Value) := do
  let ws ← get
  liftFault (ws.world.propertyKeys ((ws.registry registry).rulesOf c) [])

/-- The names of the properties of a class with declared rules, in order of their characters. -/
def allowedKeys (registry : String) (c : ClassId) : Operation (List String) := do
  let keys ← propertyKeys registry c
  let w := (← get).world
  return (keys.map w.displayKey).mergeSort fun a b => a ≤ b

/-- Reads declarations into a registry. -/
def loading (registry : String)
    (body : Loading → Loading × Except Failure (List Declaration)) :
    Operation (List Declaration) := do
  let ws ← get
  let (l, outcome) := body ⟨ws.world, ws.registry registry, []⟩
  set { ws with
    world := l.world
    registries := ws.registries.put registry l.registry
    log := ws.log ++ l.log }
  lift outcome

/-- Reads a configuration into a registry. -/
def configure (registry : String) (config : Entries) : Operation (List Declaration) :=
  loading registry fun l => l.readNamed config

/-- Reads a rule file into a registry, given its document; none when there is no such file. -/
def configureFrom (registry path : String) (document : Option Value) :
    Operation (List Declaration) :=
  loading registry fun l => l.readFile path document

/-! ## Strategy registries -/

/-- Sets the strategy of a rule type. -/
def register (registry ruleType : String) (strategy : Strategy) : Operation Unit := do
  let ws ← get
  let (r, records) := (ws.strategyRegistry registry).register ruleType strategy
  set { ws with strategyRegistries := ws.strategyRegistries.put registry r }
  note records

/-! ## Engines -/

/-- Runs a part of a validation with an engine, which keeps the plans made on the way. -/
def running {α : Type} (engine : String) (settings : Settings) (body : Setup → Validation α) :
    Operation α := do
  let ws ← get
  let e := ws.engine engine
  let (outcome, run) := body (ws.setup e settings) ⟨e.plans, [], []⟩
  set { ws with
    engines := ws.engines.put engine { e with plans := run.plans }
    log := ws.log ++ run.log }
  liftFault outcome

/-- The plan of a class, made if the engine has none. -/
def plan (engine : String) (c : ClassId) : Operation Plan :=
  running engine .standard fun s => s.planOf c

/-- The engine has a plan for the class. -/
def isCached (engine : String) (c : ClassId) : Operation Bool := do
  return ((← get).engine engine).plans.contains c

/-- Drops all plans of an engine. -/
def clearPlans (engine : String) : Operation Unit :=
  modify fun ws =>
    { ws with engines := ws.engines.put engine { ws.engine engine with plans := [] } }

/-- Validates a value with settings that are known to be such. -/
def inspect (engine : String) (v : Value) (settings : Settings) : Operation (List Report) :=
  running engine settings fun s => s.validate v

/-- Validates a value. -/
def validate (engine : String) (v options : Value) : Operation (List Report) := do
  let settings ← liftFault ((← get).world.settingsOf options)
  inspect engine v settings

/-- Makes a plan that no engine keeps. -/
def compile (registry strategies : String) (c : ClassId) : Operation Plan := do
  let ws ← get
  let (records, outcome) := ws.world.compile (ws.strategyRegistry strategies) c
    ((ws.registry registry).rulesOf c)
  note records
  liftFault outcome

/-- Executes a part of a plan that no engine keeps, nested values counting as faultless. -/
def execute (registry strategies : String) (c : ClassId) (index : Nat) (v options : Value) :
    Operation (Option Report) := do
  let plan ← compile registry strategies c
  let ws ← get
  let settings ← liftFault (ws.world.settingsOf options)
  match plan.executors[index]? with
  | none => throw (.fault .noExecutor)
  | some e =>
    let s : Setup := ⟨ws.world, ws.registry registry, ws.strategyRegistry strategies, settings⟩
    let (outcome, run) := e.execute s (fun _ => return []) v ⟨[], [], []⟩
    note run.log
    liftFault outcome

/-- The property of a value under a key. -/
def resolve (v key : Value) : Operation Value := do
  let (found, records) := (← get).world.resolve v key
  note records
  return found

/-! ## Raw data -/

/-- Shapes data into an instance of a class. -/
def shape (registry : String) (c : ClassId) (data : Entries) (strip : Bool) : Operation Value := do
  let ws ← get
  let (w, v) ← lift (ws.world.shape ((ws.registry registry).rulesOf c) c data strip)
  set { ws with world := w }
  return v

/-- The registry that an engine takes its rules from. -/
def registryOf (engine : String) : Operation String := do
  return ((← get).engine engine).rules

/-- Whether data would make a faultless instance of a class. -/
def check (engine : String) (c : ClassId) (data : Value) : Operation Bool := do
  match (← get).world.heap.mapping? data with
  | none => return false
  | some entries =>
    let v ← shape (← registryOf engine) c entries false
    let reports ← inspect engine v ⟨true, false⟩
    return reports.isEmpty

/-- The finding about data that is no mapping. -/
def notAnObject : Report :=
  .mk "root" none (some [("Type", [.text "Input must be an object"])]) none none

/-- Makes a faultless instance of a class, or fails with what is wrong. -/
def assertValid (engine : String) (c : ClassId) (data options : Value) : Operation Value := do
  match (← get).world.heap.mapping? data with
  | none => throw (.invalid [notAnObject])
  | some entries =>
    let settings ← liftFault ((← get).world.settingsOf options)
    let v ← shape (← registryOf engine) c entries settings.stripUnknown
    let reports ← inspect engine v settings
    if reports.isEmpty then return v else throw (.invalid reports)

end Operation

end Rulebook
