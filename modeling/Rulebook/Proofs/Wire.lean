import Rulebook.Report.Wire

/-!
# Reports that have been on the wire

A report that is written to a document and read back is the report that was sent, less its empty
containers: a map without rule types and a list without children come back as nothing
(`Report.condense`). Everything else comes back as it was, an empty location and the index 0 too.
-/

set_option autoImplicit false

namespace Rulebook

@[simp] theorem Field.toOption_ofOption {α : Type} (o : Option α) : (ofOption o).toOption = o := by
  cases o <;> rfl

section
variable {α : Type}

theorem nonempty?_eq_some_iff {l l' : List α} : nonempty? l = some l' ↔ l' = l ∧ l ≠ [] := by
  cases l <;> simp [nonempty?, eq_comm]

theorem nonempty?_of_ne_nil {l : List α} (h : l ≠ []) : nonempty? l = some l := by
  cases l with
  | nil => exact absurd rfl h
  | cons a rest => rfl

/-- What is empty is taken out once and for all. -/
@[simp] theorem bind_nonempty?_bind (o : Option (List α)) :
    (o.bind nonempty?).bind nonempty? = o.bind nonempty? := by
  cases o with
  | none => rfl
  | some l => cases l <;> rfl

end

namespace Report

mutual

/-- A report without its empty containers. -/
def condense : Report → Report
  | mk property location failed none index =>
    mk property location (failed.bind nonempty?) none index
  | mk property location failed (some children) index =>
    mk property location (failed.bind nonempty?) (nonempty? (condenseAll children)) index

/-- Reports without their empty containers. -/
def condenseAll : List Report → List Report
  | [] => []
  | r :: rest => condense r :: condenseAll rest

end

theorem condenseAll_eq (reports : List Report) : condenseAll reports = reports.map condense := by
  induction reports with
  | nil => rfl
  | cons r rest ih => rw [condenseAll, ih, List.map_cons]

mutual

theorem ofDocument?_toDocument : (r : Report) → ofDocument? r.toDocument = .ok r.condense
  | mk property location failed none index => by
    simp only [toDocument, ofDocument?, condense, Field.toOption_ofOption, bind_nonempty?_bind]
    rfl
  | mk property location failed (some []) index => by
    simp only [toDocument, toDocuments, ofDocument?, condense, condenseAll, nonempty?,
      Field.toOption_ofOption, bind_nonempty?_bind]
    rfl
  | mk property location failed (some (child :: rest)) index => by
    have hfield : Field.ofOption (nonempty? (toDocuments (child :: rest))) =
        .present (toDocuments (child :: rest)) := rfl
    have hread := ofDocuments?_toDocuments (child :: rest)
    simp only [toDocument, ofDocument?, condense, hfield, hread, Field.toOption_ofOption,
      bind_nonempty?_bind]
    rfl

/-- Reading the documents of reports yields the reports without their empty containers. -/
theorem ofDocuments?_toDocuments :
    (reports : List Report) → ofDocuments? (toDocuments reports) = .ok (condenseAll reports)
  | [] => rfl
  | r :: rest => by
    simp only [toDocuments, ofDocuments?, ofDocument?_toDocument r, ofDocuments?_toDocuments rest]
    rfl

end

end Report

end Rulebook
