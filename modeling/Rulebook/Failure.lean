import Rulebook.Report.Wire
import Rulebook.Object.Display
import Rulebook.Pattern.Error

/-!
# Failures of operations

Operations around the engine fail in three ways: a fault from below passes through, rules cannot be
made from what was given, or a validated instance has findings. Failures of the latter two kinds
carry a context that names what they are about.
-/

set_option autoImplicit false

namespace Rulebook

/-- What a failure is about, by name. -/
abbrev Context := List (String × Value)

/-- Why rules cannot be made. -/
inductive Misconfiguration where
  /-- Rules were to be declared on something other than a class. -/
  | undeclarable (className property : String)
  /-- The annotations of something other than a class were to be read. -/
  | notAnnotated (className : String)
  | unreadableAnnotations (owner : String) (fault : Fault)
  | unreadableHint (owner field : String) (fault : Fault)
  | unassignable (owner property : String) (fault : Fault)
  | rulesNotList (className : String)
  | typeNotText (index : Nat) (property shownType : String)
  | keyNotHashable (index : Nat) (shownProperty : String) (ruleType : Value)
  | ownerMissing (index : Nat) (property ruleType : Value)
  | ownerNotClass (shown : String)
  | priorityNotNumber (index : Nat) (property : String) (ruleType : Value) (shownPriority : String)
  | badPattern (source : Value) (shown : String) (text : String)
  | badPath (shown : String)
  | importFailed (path : String) (fault : Fault)
  | notFound (name module path : String)
  | fileNotMapping (path : String)
deriving DecidableEq

namespace Misconfiguration

/-- What an entry of a configuration is called. -/
def entry (index : Nat) : String := "Rule definition " ++ toString index

/-- The wording. -/
def message : Misconfiguration → String
  | undeclarable className _ => "Rules can only be declared on classes, got " ++ className
  | notAnnotated className => "@validated expects a class, got " ++ className
  | unreadableAnnotations owner fault =>
    "Could not read annotations of " ++ owner ++ ": " ++ fault.message
  | unreadableHint owner field fault =>
    "Could not evaluate annotation of " ++ owner ++ "." ++ field ++ ": " ++ fault.message
  | unassignable owner property fault =>
    "Cannot assign " ++ Quoted.text property ++ " on " ++ owner ++ ": " ++ fault.message
  | rulesNotList _ => "'rules' must be a list of rule definitions"
  | typeNotText index _ shownType => entry index ++ " has a non-string type: " ++ shownType
  | keyNotHashable index shownProperty _ =>
    entry index ++ " has an unhashable property: " ++ shownProperty
  | ownerMissing index _ _ => entry index ++ " has no owner"
  | ownerNotClass shown => "Owner " ++ shown ++ " is not a class"
  | priorityNotNumber index _ _ shownPriority =>
    entry index ++ " has a non-numeric priority: " ++ shownPriority
  | badPattern _ shown text => "Invalid pattern " ++ shown ++ ": " ++ text
  | badPath shown => "Invalid import path: " ++ shown
  | importFailed path fault => "Failed to import " ++ path ++ ": " ++ fault.message
  | notFound name module _ => name ++ " not found in " ++ module
  | fileNotMapping path => "Rule file " ++ path ++ " must contain a mapping"

/-- What it is about. -/
def context : Misconfiguration → Context
  | undeclarable _ property => [("property", .text property)]
  | notAnnotated _ => []
  | unreadableAnnotations owner _ => [("owner", .text owner)]
  | unreadableHint owner field _ => [("owner", .text owner), ("field", .text field)]
  | unassignable owner property _ => [("owner", .text owner), ("property", .text property)]
  | rulesNotList className => [("rules", .text className)]
  | typeNotText _ property shownType =>
    [("property", .text property), ("type", .text shownType)]
  | keyNotHashable _ shownProperty ruleType =>
    [("property", .text shownProperty), ("type", ruleType)]
  | ownerMissing _ property ruleType => [("property", property), ("type", ruleType)]
  | ownerNotClass shown => [("owner", .text shown)]
  | priorityNotNumber _ property ruleType shownPriority =>
    [("property", .text property), ("type", ruleType), ("priority", .text shownPriority)]
  | badPattern source _ _ => [("pattern", source)]
  | badPath shown => [("path", .text shown)]
  | importFailed path _ => [("path", .text path)]
  | notFound _ _ path => [("path", .text path)]
  | fileNotMapping path => [("path", .text path)]

end Misconfiguration

/-- Why an operation fails. -/
inductive Failure where
  | fault (f : Fault)
  | misconfigured (m : Misconfiguration)
  /-- A validated instance has findings. -/
  | invalid (reports : List Report)

/-- What lies behind a failure. -/
inductive Cause where
  | fault (f : Fault)
  | pattern

namespace Misconfiguration

/-- What lies behind a misconfiguration. -/
def cause? : Misconfiguration → Option Cause
  | unreadableAnnotations _ fault | unreadableHint _ _ fault | unassignable _ _ fault
  | importFailed _ fault => some (.fault fault)
  | badPattern .. => some .pattern
  | _ => none

end Misconfiguration

/-- The first failed rule of reports and their number, in one line. -/
def Report.summary (w : World) : List Report → String
  | [] => "Validation Failed"
  | r :: rest =>
    let first := (r.firstMessage?.map w.plainText).getD "Unknown error"
    "Validation Failed: " ++ first ++ " (and " ++ toString rest.length ++ " more errors)"

namespace Failure

/-- The wording of a failure. -/
def message (w : World) : Failure → String
  | fault f => f.message
  | misconfigured m => m.message
  | invalid reports => Report.summary w reports

/-- What a failure is about; faults do not say. -/
def context? : Failure → Option Context
  | fault _ => none
  | misconfigured m => some m.context
  | invalid reports => some [("error_count", .int reports.length)]

/-- What lies behind a failure. -/
def cause? : Failure → Option Cause
  | misconfigured m => m.cause?
  | _ => none

end Failure

/-- The context of a failure that is given details as well: these take precedence, unless there are
none. -/
def Context.choose (context details : Context) : Context :=
  if details.isEmpty then context else details

/-- The result, with faults as failures. -/
def orFail {α : Type} (r : Except Fault α) : Except Failure α := r.mapError .fault

end Rulebook
