import Mathlib.Data.List.Basic
import Rulebook.Proofs.Wire

/-!
# Round trips

A report that is written and read back loses its empty containers and nothing else, so it comes back
unchanged exactly if it has none, at any depth (`Report.HasEmpty`). Reading a document fails exactly
if it comes to a part without a name (`Document.visited`); what it reads otherwise is written as the
document without its null and empty parts (`Document.tidy`). Both are put together in
`Report.wire_normalises`.

The proofs go by induction on reports and on documents, whose children stand in a list inside an
optional part (`Report.induction`, `Document.induction`).
-/

set_option autoImplicit false

namespace Rulebook

/-! ## Reports -/

namespace Report

/-- What holds of a report whenever it holds of its children holds of every report. -/
@[elab_as_elim]
theorem induction {motive : Report → Prop}
    (leaf : ∀ property location failed index, motive (mk property location failed none index))
    (node : ∀ property location failed reports index, (∀ r ∈ reports, motive r) →
      motive (mk property location failed (some reports) index)) : (r : Report) → motive r
  | mk _ _ _ none _ => leaf ..
  | mk _ _ _ (some reports) _ => node _ _ _ _ _ fun r hr => by
    have := List.sizeOf_lt_of_mem hr
    exact induction leaf node r

/-- A report has a map without rule types or a list without children, in itself or further down. -/
inductive HasEmpty : Report → Prop
  | failed {property : String} {location : Option String} {children : Option (List Report)}
      {index : Option Int} : HasEmpty (mk property location (some []) children index)
  | children {property : String} {location : Option String} {failed : Option Failures}
      {index : Option Int} : HasEmpty (mk property location failed (some []) index)
  | child {property : String} {location : Option String} {failed : Option Failures}
      {reports : List Report} {index : Option Int} {r : Report} (mem : r ∈ reports)
      (h : HasEmpty r) : HasEmpty (mk property location failed (some reports) index)

theorem bind_nonempty?_eq_self {α : Type} {o : Option (List α)} :
    o.bind nonempty? = o ↔ o ≠ some [] := by
  cases o with
  | none => simp
  | some l => cases l <;> simp [nonempty?]

section
variable {property : String} {location : Option String} {failed : Option Failures}
  {index : Option Int}

theorem hasEmpty_leaf :
    HasEmpty (mk property location failed none index) ↔ failed = some [] := by
  constructor
  · intro h
    cases h
    rfl
  · rintro rfl
    exact .failed

theorem hasEmpty_node {reports : List Report} :
    HasEmpty (mk property location failed (some reports) index) ↔
      failed = some [] ∨ reports = [] ∨ ∃ r ∈ reports, r.HasEmpty := by
  constructor
  · intro h
    cases h with
    | failed => exact .inl rfl
    | children => exact .inr (.inl rfl)
    | child mem h => exact .inr (.inr ⟨_, mem, h⟩)
  · rintro (rfl | rfl | ⟨r, hr, h⟩)
    · exact .failed
    · exact .children
    · exact .child hr h

end

/-- There is something to take out of a report exactly if it has an empty container. -/
theorem condense_eq_self (r : Report) : r.condense = r ↔ ¬r.HasEmpty := by
  induction r using induction with
  | leaf property location failed index =>
    simp [condense, hasEmpty_leaf, bind_nonempty?_eq_self]
  | node property location failed reports index ih =>
    have hall : condenseAll reports = reports ↔ ∀ r ∈ reports, ¬r.HasEmpty := calc
      condenseAll reports = reports ↔ reports.map condense = reports.map id := by
        rw [condenseAll_eq, List.map_id]
      _ ↔ ∀ r ∈ reports, r.condense = r := List.map_inj_left
      _ ↔ ∀ r ∈ reports, ¬r.HasEmpty := forall₂_congr ih
    have hkept : nonempty? (condenseAll reports) = some reports ↔
        reports ≠ [] ∧ condenseAll reports = reports := by
      rw [nonempty?_eq_some_iff, eq_comm, condenseAll_eq, Ne, List.map_eq_nil_iff, and_comm]
    simp [condense, hasEmpty_node, bind_nonempty?_eq_self, hkept, hall]

theorem toDocuments_eq (reports : List Report) : toDocuments reports = reports.map toDocument := by
  induction reports with
  | nil => rfl
  | cons r rest ih => rw [toDocuments, ih, List.map_cons]

/-- What is taken out of a report would not be written. -/
theorem toDocument_condense (r : Report) : r.condense.toDocument = r.toDocument := by
  induction r using induction with
  | leaf property location failed index => simp [condense, toDocument]
  | node property location failed reports index ih =>
    have hall : toDocuments (condenseAll reports) = toDocuments reports := by
      rw [toDocuments_eq, toDocuments_eq, condenseAll_eq, List.map_map]
      exact List.map_congr_left ih
    cases reports with
    | nil => simp [condense, condenseAll, toDocument, toDocuments, nonempty?, Field.ofOption]
    | cons r rest =>
      have hkept : nonempty? (condenseAll (r :: rest)) = some (condenseAll (r :: rest)) := rfl
      simp [condense, toDocument, hkept, hall]

theorem messagesAll_eq (reports : List Report) :
    messagesAll reports = reports.flatMap messages := by
  induction reports with
  | nil => rfl
  | cons r rest ih => rw [messagesAll, ih, List.flatMap_cons]

/-- There are no messages in what is taken out of a report. -/
theorem messages_condense (r : Report) : r.condense.messages = r.messages := by
  have hfailed (failed : Option Failures) :
      (failed.bind nonempty?).getD [] = failed.getD [] := by
    cases failed with
    | none => rfl
    | some f => cases f <;> rfl
  induction r using induction with
  | leaf property location failed index => simp [condense, messages, hfailed]
  | node property location failed reports index ih =>
    have hall : messagesAll (condenseAll reports) = messagesAll reports := by
      rw [messagesAll_eq, messagesAll_eq, condenseAll_eq, List.flatMap_map]
      exact List.flatMap_congr ih
    cases reports with
    | nil => simp [condense, condenseAll, messages, messagesAll, nonempty?, hfailed]
    | cons r rest =>
      have hkept : nonempty? (condenseAll (r :: rest)) = some (condenseAll (r :: rest)) := rfl
      simp [condense, messages, hkept, hall, hfailed]

end Report

/-! ## Documents -/

namespace Field

variable {α : Type}

/-- The part, left out when it is null. -/
def given : Field α → Field α
  | null => omitted
  | part => part

/-- The part, left out when it is null or empty. -/
def filled : Field (List α) → Field (List α)
  | null | present [] => omitted
  | part => part

theorem ofOption_toOption (part : Field α) : ofOption part.toOption = part.given := by
  cases part <;> rfl

theorem ofOption_nonempty? (part : Field (List α)) :
    ofOption (part.toOption.bind nonempty?) = part.filled := by
  cases part with
  | present l => cases l <;> rfl
  | _ => rfl

end Field

namespace Document

/-- What holds of a document whenever it holds of its children holds of every document. -/
@[elab_as_elim]
theorem induction {motive : Document → Prop}
    (leaf : ∀ property index location failed children, (∀ ds, children ≠ .present ds) →
      motive (mk property index location failed children))
    (node : ∀ property index location failed documents, (∀ d ∈ documents, motive d) →
      motive (mk property index location failed (.present documents))) : (d : Document) → motive d
  | mk _ _ _ _ .omitted => leaf _ _ _ _ _ nofun
  | mk _ _ _ _ .null => leaf _ _ _ _ _ nofun
  | mk _ _ _ _ (.present documents) => node _ _ _ _ _ fun d hd => by
    have := List.sizeOf_lt_of_mem hd
    exact induction leaf node d

/-- The name of the property, if the document has it. -/
def property : Document → Option String
  | mk property .. => property

mutual

/-- The document without its optional parts that are null or empty. An empty location is a location
and stays. -/
def tidy : Document → Document
  | mk property index location failed (.present documents) =>
    mk property index.given location.given failed.filled
      (Field.present (tidyAll documents)).filled
  | mk property index location failed children =>
    mk property index.given location.given failed.filled children.given

/-- The documents without their optional parts that are null or empty. -/
def tidyAll : List Document → List Document
  | [] => []
  | d :: rest => tidy d :: tidyAll rest

end

mutual

/-- The documents that reading comes to, in their order: a document before its children, and nothing
after a document without a name. -/
def visited : Document → List Document
  | mk (some name) index location failed (.present documents) =>
    mk (some name) index location failed (.present documents) :: visitedAll documents
  | d => [d]

/-- The documents that reading comes to in a list. -/
def visitedAll : List Document → List Document
  | [] => []
  | d :: rest =>
    if (visited d).all (·.property.isSome) then visited d ++ visitedAll rest else visited d

end

end Document

namespace Report

/-- Reading a document comes to one without a name and fails for that, or it comes to none and finds
a report, which is written as the document without what is null or empty. -/
def ReadsTidily (d : Document) : Prop :=
  (∃ n ∈ d.visited, n.property = none) ∧ ofDocument? d = .error (.keyAbsent "'property'") ∨
    (∀ n ∈ d.visited, n.property ≠ none) ∧ ∃ r, ofDocument? d = .ok r ∧ r.toDocument = d.tidy

theorem ofDocuments?_cases {documents : List Document} (h : ∀ d ∈ documents, ReadsTidily d) :
    (∃ n ∈ Document.visitedAll documents, n.property = none) ∧
        ofDocuments? documents = .error (.keyAbsent "'property'") ∨
      (∀ n ∈ Document.visitedAll documents, n.property ≠ none) ∧
        ∃ reports, ofDocuments? documents = .ok reports ∧
          toDocuments reports = Document.tidyAll documents := by
  induction documents with
  | nil => exact .inr ⟨by simp [Document.visitedAll], [], rfl, rfl⟩
  | cons d rest ih =>
    rcases h d (.head _) with ⟨⟨n, hn, hname⟩, hd⟩ | ⟨hnames, r, hd, hr⟩
    · -- reading ends at the first document, whatever follows
      have hall : d.visited.all (·.property.isSome) = false :=
        List.all_eq_false.2 ⟨n, hn, by simp [hname]⟩
      refine .inl ⟨⟨n, by simpa [Document.visitedAll, hall] using hn, hname⟩, ?_⟩
      simp [ofDocuments?, hd, bind, Except.bind]
    · have hall : d.visited.all (·.property.isSome) = true :=
        List.all_eq_true.2 fun n hn => Option.isSome_iff_ne_none.2 (hnames n hn)
      have hvisited : Document.visitedAll (d :: rest) =
          d.visited ++ Document.visitedAll rest := by simp [Document.visitedAll, hall]
      rw [hvisited]
      rcases ih fun d hd => h d (.tail _ hd) with
        ⟨⟨n, hn, hname⟩, hrest⟩ | ⟨hothers, rs, hrest, hrs⟩
      · refine .inl ⟨⟨n, List.mem_append_right _ hn, hname⟩, ?_⟩
        simp [ofDocuments?, hd, hrest, bind, Except.bind]
      · refine .inr
          ⟨fun n hn => (List.mem_append.1 hn).elim (hnames n) (hothers n), r :: rs, ?_, ?_⟩
        · simp [ofDocuments?, hd, hrest, bind, Except.bind, pure, Except.pure]
        · rw [toDocuments, hr, hrs, Document.tidyAll]

theorem toDocument_nonempty? {name : String} {location : Option String} {failed : Option Failures}
    {index : Option Int} (reports : List Report) :
    (mk name location failed (nonempty? reports) index).toDocument =
      .mk (some name) (.ofOption index) (.ofOption location) (.ofOption (failed.bind nonempty?))
        (Field.present (toDocuments reports)).filled := by
  cases reports with
  | nil => simp [nonempty?, toDocument, toDocuments, Field.filled]
  | cons r rest => simp [nonempty?, toDocument, toDocuments, Field.filled, Field.ofOption]

theorem readsTidily_unnamed {index : Field Int} {location : Field String} {failed : Field Failures}
    {children : Field (List Document)} : ReadsTidily (.mk none index location failed children) := by
  refine .inl ⟨⟨.mk none index location failed children, ?_, rfl⟩, rfl⟩
  cases children <;> simp [Document.visited]

theorem readsTidily (d : Document) : ReadsTidily d := by
  induction d using Document.induction with
  | leaf property index location failed children hleaf =>
    cases property with
    | none => exact readsTidily_unnamed
    | some name =>
      refine .inr ⟨?_, mk name location.toOption (failed.toOption.bind nonempty?) none
        index.toOption, ?_, ?_⟩
      · cases children <;> simp_all [Document.visited, Document.property]
      · cases children <;> simp_all [ofDocument?, nonempty?, bind, Except.bind, pure, Except.pure]
      · cases children <;> simp_all [toDocument, Document.tidy, Field.ofOption_toOption,
          Field.ofOption_nonempty?, Field.given]
  | node property index location failed documents ih =>
    cases property with
    | none => exact readsTidily_unnamed
    | some name =>
      rcases ofDocuments?_cases ih with ⟨⟨n, hn, hname⟩, hd⟩ | ⟨hnames, reports, hd, hr⟩
      · refine .inl ⟨⟨n, .tail _ hn, hname⟩, ?_⟩
        simp [ofDocument?, hd, bind, Except.bind]
      · refine .inr ⟨?_, mk name location.toOption (failed.toOption.bind nonempty?)
          (nonempty? reports) index.toOption, ?_, ?_⟩
        · simpa [Document.visited, Document.property] using hnames
        · simp [ofDocument?, hd, bind, Except.bind, pure, Except.pure]
        · rw [toDocument_nonempty?, hr, bind_nonempty?_bind, Field.ofOption_toOption,
            Field.ofOption_toOption, Field.ofOption_nonempty?, Document.tidy]

/-- The wire takes out of a report what is empty in it and nothing else. A report that is written
and read comes back without its empty containers, so unchanged exactly if it has none, at any depth,
with the messages that it had, and is written as before. A document is refused exactly if reading
comes to a part without a name, and is otherwise read as a report that is written as the document
without its null or empty optional parts. -/
theorem wire_normalises :
    (∀ r : Report,
      ofDocument? r.toDocument = .ok r.condense ∧
      (ofDocument? r.toDocument = .ok r ↔ ¬r.HasEmpty) ∧
      r.condense.toDocument = r.toDocument ∧
      r.condense.messages = r.messages) ∧
    ∀ d : Document,
      (ofDocument? d = .error (.keyAbsent "'property'") ↔ ∃ n ∈ d.visited, n.property = none) ∧
      (ofDocument? d = .error (.keyAbsent "'property'") ∨
        ∃ r, ofDocument? d = .ok r ∧ r.toDocument = d.tidy) := by
  refine ⟨fun r => ⟨ofDocument?_toDocument r, ?_, toDocument_condense r, messages_condense r⟩,
    fun d => ?_⟩
  · rw [ofDocument?_toDocument, Except.ok.injEq]
    exact condense_eq_self r
  · rcases readsTidily d with ⟨hname, hd⟩ | ⟨hnames, r, hd, hr⟩
    · exact ⟨iff_of_true hd hname, .inl hd⟩
    · refine ⟨iff_of_false (by simp [hd]) ?_, .inr ⟨r, hd, hr⟩⟩
      rintro ⟨n, hn, hname⟩
      exact hnames n hn hname

/-- An empty location, the index 0 and a rule type without messages come back. -/
example :
    let r := mk "tags" (some "") (some [("Min", [])]) (some [mk "tags[0]" none (some []) (some [])
      (some 0)]) none
    ofDocument? r.toDocument = .ok (mk "tags" (some "") (some [("Min", [])])
      (some [mk "tags[0]" none none none (some 0)]) none) := rfl

end Report

end Rulebook
