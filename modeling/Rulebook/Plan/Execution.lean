import Rulebook.Plan.Basic
import Rulebook.Report.Wire
import Rulebook.Settings

/-!
# Executing plans

An executor reads its property, takes its actions on the value, and reports what they found. A
strategy that fails is recorded as a failure of its rule like any other complaint. When only the
first failure matters, everything stops there: the elements of a sequence, the actions of a property
and the properties of an object.
-/

set_option autoImplicit false

namespace Rulebook

/-- What a validation works with and leaves unchanged. -/
structure Setup where
  world : World
  rules : Registry
  strategies : StrategyRegistry
  settings : Settings

/-- The state of a validation. -/
structure Run where
  /-- The plans made so far, by class. -/
  plans : Catalog ClassId Plan
  /-- The objects being validated, innermost first. -/
  path : List Address
  log : List Record

/-- A part of a validation. What it has done to the state stands even if it fails. -/
abbrev Validation (α : Type) := ExceptT Fault (StateM Run) α

namespace Validation

/-- Adds records to the log. -/
def note (records : List Record) : Validation Unit :=
  modify fun run => { run with log := run.log ++ records }

/-- Runs a part with an object added to the path, and takes it away again whatever happens. -/
def within {α : Type} (a : Address) (body : Validation α) : Validation α := ExceptT.mk do
  modify fun run => { run with path := a :: run.path }
  let outcome ← body.run
  modify fun run => { run with path := run.path.erase a }
  return outcome

end Validation

/-! ## Verdicts -/

/-- What a strategy says about a value. -/
inductive Verdict where
  | passes
  | fails (complaint : String)
  /-- The strategy itself failed. -/
  | breaks (text : String)
deriving DecidableEq

namespace Verdict

/-- Asks a strategy. -/
def ask (w : World) (strategy : Strategy) (d : Declaration) (name : String) (v : Value) : Verdict :=
  match strategy w v d name with
  | .ok none => .passes
  | .ok (some complaint) => .fails complaint
  | .error fault => .breaks fault.message

/-- The text that stands for a strategy's own failure. -/
def internalError (text : String) : String := "Internal validation error: " ++ text

/-- The text followed by the place of an element. -/
def atIndex (text : String) (i : Nat) : String := text ++ " (at index " ++ toString i ++ ")"

/-- The message that is recorded for a value. A declared message replaces complaints, but not
failures of the strategy itself. -/
def message? (override : Option Value) : Verdict → Option Value
  | passes => none
  | fails complaint => some (override.getD (.text complaint))
  | breaks text => some (.text (internalError text))

/-- The message that is recorded for an element of a sequence. -/
def elementMessage? (w : World) (override : Option Value) (i : Nat) : Verdict → Option Value
  | passes => none
  | fails complaint =>
    match override with
    | some v => some (.text (w.plainText v ++ " (index: " ++ toString i ++ ")"))
    | none => some (.text (atIndex complaint i))
  | breaks text => some (.text (atIndex (internalError text) i))

/-- The record of a strategy's own failure. -/
def records (ruleType name : String) : Verdict → List Record
  | breaks text => [.strategyFailed ruleType name text]
  | _ => []

end Verdict

/-! ## Findings -/

/-- What the actions on one property have found so far. -/
structure Findings where
  failed : Failures
  children : List Report

namespace Findings

/-- Nothing yet. -/
def none : Findings := ⟨[], []⟩

/-- Nothing was found. -/
def isClear (f : Findings) : Bool := f.failed.isEmpty && f.children.isEmpty

/-- Adds a message of a rule type. -/
def record (f : Findings) (ruleType : String) (message : Value) : Findings :=
  { f with failed := f.failed.alter (fun old => old.getD [] ++ [message]) ruleType }

/-- Adds reports on the value itself. -/
def addChildren (f : Findings) (reports : List Report) : Findings :=
  { f with children := f.children ++ reports }

/-- The report on a property, if anything was found. -/
def report? (f : Findings) (name : String) (location : Option String) : Option Report :=
  if f.isClear then Option.none
  else some (.mk name location (nonempty? f.failed) (nonempty? f.children) Option.none)

end Findings

/-! ## Actions -/

/-- The name of an element of a sequence. -/
def elementName (name : String) (i : Nat) : String := name ++ "[" ++ toString i ++ "]"

namespace Action

/-- Asks a strategy about a value. -/
def check (s : Setup) (name ruleType : String) (d : Declaration) (strategy : Strategy)
    (v : Value) (f : Findings) : Validation Findings := do
  let verdict := Verdict.ask s.world strategy d name v
  Validation.note (verdict.records ruleType name)
  return match verdict.message? d.override? with
  | some message => f.record ruleType message
  | none => f

/-- Asks a strategy about the elements of a sequence, `remaining` of them from a place on. -/
def checkEach (s : Setup) (name ruleType : String) (d : Declaration) (strategy : Strategy)
    (get : Nat → Value) : (remaining i : Nat) → Findings → Validation Findings
  | 0, _, f => return f
  | remaining + 1, i, f => do
    let verdict := Verdict.ask s.world strategy d name (get i)
    Validation.note (verdict.records ruleType name)
    match verdict.elementMessage? s.world d.override? i with
    | none => checkEach s name ruleType d strategy get remaining (i + 1) f
    | some message =>
      let f := f.record ruleType message
      if s.settings.abortEarly then return f
      else checkEach s name ruleType d strategy get remaining (i + 1) f

/-- Validates the elements of a sequence, `remaining` of them from a place on. -/
def visitEach (s : Setup) (name : String) (inspect : Value → Validation (List Report))
    (get : Nat → Value) : (remaining i : Nat) → Findings → Validation Findings
  | 0, _, f => return f
  | remaining + 1, i, f => do
    if s.world.heap.isComposite (get i) then
      let reports ← inspect (get i)
      if reports.isEmpty then visitEach s name inspect get remaining (i + 1) f
      else
        let f := f.addChildren [.mk (elementName name i) none none (some reports) (some i)]
        if s.settings.abortEarly then return f
        else visitEach s name inspect get remaining (i + 1) f
    else visitEach s name inspect get remaining (i + 1) f

/-- Validates a value. -/
def visit (s : Setup) (inspect : Value → Validation (List Report)) (v : Value) (f : Findings) :
    Validation Findings := do
  if s.world.heap.isComposite v then
    let reports ← inspect v
    return if reports.isEmpty then f else f.addChildren reports
  else return f

/-- Takes an action on a value. -/
def take (s : Setup) (name : String) (inspect : Value → Validation (List Report)) (v : Value)
    (a : Action) (f : Findings) : Validation Findings :=
  match a with
  | .predicate ruleType d strategy =>
    match d.each, s.world.heap.sequence? v with
    | true, some (n, get) => checkEach s name ruleType d strategy get n 0 f
    | _, _ => check s name ruleType d strategy v f
  | .nested each =>
    match each, s.world.heap.sequence? v with
    | true, some (n, get) => visitEach s name inspect get n 0 f
    | _, _ => visit s inspect v f

/-- Takes actions one after the other, until there is nothing left to find. -/
def takeAll (s : Setup) (name : String) (inspect : Value → Validation (List Report)) (v : Value) :
    List Action → Findings → Validation Findings
  | [], f => return f
  | a :: rest, f => do
    let f ← a.take s name inspect v f
    if s.settings.abortEarly && !f.isClear then return f
    else takeAll s name inspect v rest f

end Action

/-! ## Executors -/

namespace Executor

/-- Validates one property of an instance. -/
def execute (s : Setup) (inspect : Value → Validation (List Report)) (instanceValue : Value)
    (e : Executor) : Validation (Option Report) := do
  let (v, records) := s.world.resolve instanceValue e.key
  Validation.note records
  if e.isOptional && Heap.isAbsent v then return none
  let f ← Action.takeAll s e.name inspect v e.actions .none
  return f.report? e.name e.location

/-- Validates properties of an instance one after the other. -/
def executeAll (s : Setup) (inspect : Value → Validation (List Report)) (instanceValue : Value) :
    List Executor → Validation (List Report)
  | [] => return []
  | e :: rest => do
    match ← e.execute s inspect instanceValue with
    | none => executeAll s inspect instanceValue rest
    | some report =>
      if s.settings.abortEarly then return [report]
      else return report :: (← executeAll s inspect instanceValue rest)

end Executor

end Rulebook
