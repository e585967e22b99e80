import Rulebook.Fault
import Rulebook.Report.Basic

/-!
# Reports on the wire

The form in which reports are exchanged. Every part but the name of the property may be left out,
and is left out when it is absent or empty; a reader takes what is null or empty for absent.
-/

set_option autoImplicit false

namespace Rulebook

/-- A part of a document: left out, null, or there. -/
inductive Field (α : Type) where
  | omitted
  | null
  | present (a : α)
deriving DecidableEq, Inhabited

namespace Field

variable {α : Type}

/-- The content of a part. -/
def toOption : Field α → Option α
  | present a => some a
  | _ => none

/-- A part that is left out when there is nothing to say. -/
def ofOption : Option α → Field α
  | some a => present a
  | none => omitted

end Field

/-- A document. The name of the property is no optional part: it is there, or it is missing. -/
inductive Document where
  | mk (property : Option String) (index : Field Int) (location : Field String)
    (failed : Field Failures) (children : Field (List Document))
deriving Inhabited

/-- The list, unless it is empty. -/
def nonempty? {α : Type} : List α → Option (List α)
  | [] => none
  | l => some l

namespace Report

mutual

/-- The document of a report. -/
def toDocument : Report → Document
  | mk property location failed none index =>
    .mk (some property) (.ofOption index) (.ofOption location)
      (.ofOption (failed.bind nonempty?)) .omitted
  | mk property location failed (some children) index =>
    .mk (some property) (.ofOption index) (.ofOption location)
      (.ofOption (failed.bind nonempty?)) (.ofOption (nonempty? (toDocuments children)))

/-- The documents of reports. -/
def toDocuments : List Report → List Document
  | [] => []
  | r :: rest => toDocument r :: toDocuments rest

end

mutual

/-- The report in a document. -/
def ofDocument? : Document → Except Fault Report
  | .mk property index location failed children =>
    match property with
    | some name => do
      let reports ← match children with
        | .present documents => ofDocuments? documents
        | _ => pure []
      return mk name location.toOption (failed.toOption.bind nonempty?) (nonempty? reports)
        index.toOption
    | none => throw (.keyAbsent "'property'")

/-- The reports in documents. -/
def ofDocuments? : List Document → Except Fault (List Report)
  | [] => return []
  | d :: rest => do
    let r ← ofDocument? d
    let others ← ofDocuments? rest
    return r :: others

end

/-- Whether a report comes back unchanged from the wire. -/
def survivesWire (r : Report) : Bool :=
  match ofDocument? r.toDocument with
  | .ok r' => r' = r
  | .error _ => false

end Report

end Rulebook
