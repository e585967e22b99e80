import Rulebook.Proofs.Operations
import Rulebook.Proofs.Wire

/-!
# The normal form of reports

What a validation reports has no empty parts. `Report.IsNormal above r` says what the report `r` may
look like, `above` being the property that it stands right below, if it does: it is the report on a
property, with messages or with reports on the value, or it is the report on an element of that
property. A report in normal form comes back unchanged from the wire (`IsNormal.survives`).

The invariant goes through the parts of a survey in turn: what a question finds, what findings add
up to, the report on a property, the reports on an object (`World.normal_survey`).
-/

set_option autoImplicit false

namespace Rulebook

/-- No rule type is named twice, and each that is named has messages. -/
structure Failures.IsTidy (failed : Failures) : Prop where
  nodup : failed.keys.Nodup
  filled : ∀ e ∈ failed, e.2 ≠ []

namespace Failures

theorem isTidy_nil : IsTidy [] := ⟨.nil, fun _ h => nomatch h⟩

/-- A message more keeps failures tidy. -/
theorem IsTidy.record {failed : Failures} (h : failed.IsTidy) (ruleType : String) (text : Value) :
    IsTidy (failed.alter (fun old => old.getD [] ++ [text]) ruleType) := by
  refine ⟨Catalog.nodup_keys_alter h.nodup, fun e he => ?_⟩
  have hfilled := h.filled
  clear h
  induction failed with
  | nil =>
    cases List.mem_singleton.1 he
    simp
  | cons entry rest ih =>
    simp only [Catalog.alter] at he
    split at he
    · rcases List.mem_cons.1 he with rfl | he
      · simp
      · exact hfilled e (.tail _ he)
    · rcases List.mem_cons.1 he with rfl | he
      · exact hfilled entry (.head _)
      · exact ih he fun e he => hfilled e (.tail _ he)

end Failures

/-! ## Normal reports -/

namespace Report

/-- A report as a validation makes it, right below the property `above` or not below any. -/
inductive IsNormal : Option String → Report → Prop
  /-- The report on a property. -/
  | property {above : Option String} {name : String} {location : Option String}
      {failed : Option Failures} {children : Option (List Report)}
      (something : failed.isSome ∨ children.isSome)
      (messages : ∀ f ∈ failed, f ≠ [] ∧ f.IsTidy)
      (nonempty : ∀ reports ∈ children, reports ≠ [])
      (normal : ∀ reports ∈ children, ∀ r ∈ reports, IsNormal (some name) r) :
      IsNormal above (.mk name location failed children none)
  /-- The report on an element of the property above. -/
  | element {name : String} {reports : List Report} (i : Nat) (nonempty : reports ≠ [])
      (normal : ∀ r ∈ reports, IsNormal none r) :
      IsNormal (some name)
        (.mk (name ++ "[" ++ toString i ++ "]") none none (some reports) (some i))

namespace IsNormal

/-- The report on a property may stand anywhere. -/
theorem underProperty {r : Report} (h : r.IsNormal none) (name : String) :
    r.IsNormal (some name) := by
  cases h with
  | property something messages nonempty normal =>
    exact .property something messages nonempty normal

/-- There is nothing to take out of a report in normal form. -/
theorem condense_eq {above : Option String} {r : Report} (h : r.IsNormal above) :
    r.condense = r := by
  have hall {reports : List Report} (h : ∀ r ∈ reports, r.condense = r) :
      condenseAll reports = reports := by
    rw [condenseAll_eq, List.map_congr_left h, List.map_id']
  induction h with
  | @property above name location failed children something messages nonempty normal ih =>
    have hfailed : failed.bind nonempty? = failed := by
      cases failed with
      | none => rfl
      | some f => exact nonempty?_of_ne_nil (messages f rfl).1
    cases children with
    | none => rw [condense, hfailed]
    | some reports =>
      rw [condense, hfailed, hall (ih reports rfl), nonempty?_of_ne_nil (nonempty reports rfl)]
  | element i nonempty normal ih =>
    rw [condense, hall ih, nonempty?_of_ne_nil nonempty]
    rfl

/-- A report in normal form comes back unchanged from the wire. -/
theorem survives {above : Option String} {r : Report} (h : r.IsNormal above) :
    ofDocument? r.toDocument = .ok r := by
  rw [ofDocument?_toDocument, h.condense_eq]

end IsNormal

end Report

/-! ## Normal findings -/

/-- The reports in an answer may stand below the property. -/
def Finding.IsNormal (name : String) (x : Finding) : Prop := ∀ r ∈ x.reports, r.IsNormal (some name)

/-- What findings add up to may go into the report on the property. -/
structure Findings.IsNormal (name : String) (f : Findings) : Prop where
  failed : f.failed.IsTidy
  children : ∀ r ∈ f.children, r.IsNormal (some name)

theorem Finding.isNormal_ofReports? {name : String} {place : Option Nat} {reports : List Report}
    {x : Finding} (hx : ofReports? name place reports = some x)
    (h : ∀ r ∈ reports, r.IsNormal none) : x.IsNormal name := by
  unfold ofReports? at hx
  split at hx
  · cases hx
  · rename_i hne
    split at hx <;> cases hx
    · exact fun r hr => (h r hr).underProperty name
    · rename_i i
      intro r hr
      obtain rfl := List.mem_singleton.1 hr
      exact .element i hne h

namespace Findings

variable {name : String} {f : Findings}

theorem isNormal_none : none.IsNormal name := ⟨Failures.isTidy_nil, fun _ h => nomatch h⟩

theorem IsNormal.add (h : f.IsNormal name) {x : Finding} (hx : x.IsNormal name) :
    (f.add x).IsNormal name := by
  cases x with
  | message ruleType text => exact ⟨h.failed.record ruleType text, h.children⟩
  | nested reports hne =>
    refine ⟨h.failed, fun r hr => ?_⟩
    rcases List.mem_append.1 hr with hr | hr
    · exact h.children r hr
    · exact hx r hr

theorem IsNormal.addAll (h : f.IsNormal name) {found : List Finding}
    (hfound : ∀ x ∈ found, x.IsNormal name) : (f.addAll found).IsNormal name := by
  induction found generalizing f with
  | nil => exact h
  | cons x rest ih =>
    exact ih (h.add (hfound x (.head _))) fun y hy => hfound y (.tail _ hy)

theorem IsNormal.report (h : f.IsNormal name) {location : Option String} {r : Report}
    (hr : f.report? name location = some r) : r.IsNormal .none := by
  obtain ⟨hclear, rfl⟩ := report?_eq_some.1 hr
  refine .property ?_ (fun failed hf => ?_) (fun reports hc => ?_) (fun reports hc => ?_)
  · -- with neither messages nor children there would be no report
    cases hf : f.failed with
    | cons e rest => exact .inl rfl
    | nil =>
      cases hc : f.children with
      | cons r rest => exact .inr rfl
      | nil => simp [isClear, hf, hc] at hclear
  · obtain ⟨rfl, hne⟩ := nonempty?_eq_some_iff.1 hf
    exact ⟨hne, h.failed⟩
  · obtain ⟨rfl, hne⟩ := nonempty?_eq_some_iff.1 hc
    exact hne
  · obtain ⟨rfl, -⟩ := nonempty?_eq_some_iff.1 hc
    exact h.children

end Findings

/-! ## Surveys -/

variable {w : World} {nested : Value → Course (List Report)}

/-- Nested validations report in normal form. -/
def ReportsNormal (nested : Value → Course (List Report)) : Prop :=
  ∀ v reports, (nested v).outcome = .ok reports → ∀ r ∈ reports, r.IsNormal none

theorem Question.normal_answer {name : String} {q : Question} {x : Finding}
    (hn : ReportsNormal nested) (h : (q.answer w name nested).outcome = .ok (some x)) :
    x.IsNormal name := by
  rcases answer_eq_ok.1 h with ⟨v, reports, -, hr, hx⟩ | ⟨-, hx⟩
  · exact Finding.isNormal_ofReports? hx.symm (hn v reports hr)
  · obtain ⟨c, -, rfl⟩ := Option.map_eq_some_iff.1 hx.symm
    exact fun _ hr => nomatch hr

theorem Executor.normal_survey {first : Bool} {o : Value} {e : Executor} {r : Report}
    (hn : ReportsNormal nested) (h : (e.survey w first nested o).outcome = .ok (some r)) :
    r.IsNormal none := by
  obtain ⟨found, hfound, hr⟩ := survey_eq_ok.1 h
  refine (Findings.isNormal_none.addAll fun x hx => ?_).report hr
  obtain ⟨q, -, hx⟩ := Course.mem_of_gather hfound hx
  exact Question.normal_answer hn hx

/-- The report is one on the property that the executor is about. -/
def Executor.Makes (e : Executor) (r : Report) : Prop :=
  r.property = e.name ∧ r.location = e.location

theorem Executor.makes_survey {first : Bool} {o : Value} {e : Executor} {r : Report}
    (h : (e.survey w first nested o).outcome = .ok (some r)) : e.Makes r := by
  obtain ⟨found, -, hr⟩ := survey_eq_ok.1 h
  obtain ⟨-, rfl⟩ := Findings.report?_eq_some.1 hr
  exact ⟨rfl, rfl⟩

namespace World

variable {first : Bool} {supply : Supply}

theorem normal_survey (path : List Address) : ReportsNormal (w.survey first supply path) := by
  intro v
  induction path, v using enter_induction with
  | skip path v hs =>
    intro reports h
    rw [survey_of_skips hs] at h
    cases h
    exact fun _ hr => nomatch hr
  | enter path a hc ha ih =>
    intro reports h r hr
    rw [survey_enter hc ha] at h
    obtain ⟨plan, -, h⟩ := Course.outcome_bind_eq_ok.1 h
    obtain ⟨e, -, he⟩ := Course.mem_of_gather h hr
    exact Executor.normal_survey ih he

/-- The reports on an object are made by some executors of its plan, in their order. -/
theorem makes_survey {path : List Address} {v : Value} {reports : List Report}
    (h : (w.survey first supply path v).outcome = .ok reports) :
    reports = [] ∨ ∃ plan es, supply (w.classOf v) = .ok plan ∧ es.Sublist plan.executors ∧
      List.Forall₂ Executor.Makes es reports := by
  by_cases hs : w.Skips path v
  · rw [survey_of_skips hs] at h
    cases h
    exact .inl rfl
  · obtain ⟨a, rfl, hc, ha⟩ := enters_of_not_skips hs
    rw [survey_enter hc ha] at h
    obtain ⟨plan, hp, h⟩ := Course.outcome_bind_eq_ok.1 h
    obtain ⟨es, hes, hfound⟩ := Course.gather_sublist h
    exact .inr ⟨plan, es, hp, hes, hfound.imp fun e r he => Executor.makes_survey he⟩

end World

/-! ## Validations -/

namespace Operation

/-- All that a validation reports is in normal form, whatever plans the engine has kept: reports on
properties, made by some executors of the plan of the value's class, each by one and in their order.
So every report comes back unchanged from the wire. -/
theorem validate_normal (ws : Workspace) (engine : String) (v options : Value)
    (reports : List Report) (h : (validate engine v options ws).1 = .ok reports) :
    (∀ r ∈ reports, r.IsNormal none) ∧
    (reports = [] ∨ ∃ p es, (plan engine (ws.world.classOf v) ws).1 = .ok p ∧
      es.Sublist p.executors ∧ List.Forall₂ Executor.Makes es reports) ∧
    ∀ r ∈ reports, Report.ofDocument? r.toDocument = .ok r := by
  obtain ⟨settings, -, hs⟩ := survey_of_validate h
  have hnormal := World.normal_survey [] v reports hs
  refine ⟨hnormal, ?_, fun r hr => (hnormal r hr).survives⟩
  rcases World.makes_survey hs with hnil | ⟨p, es, hp, hes, hmade⟩
  · exact .inl hnil
  · exact .inr ⟨p, es, by rw [plan_fst, hp]; rfl, hes, hmade⟩

theorem validate_normal_row :
    (validate "engine" (.object 0) .nothing Row.setup.workspace).1 = .ok Row.reports ∧
      (∀ r ∈ Row.reports, r.IsNormal none) ∧
      ∀ r ∈ Row.reports, Report.ofDocument? r.toDocument = .ok r := by
  have hvalidate : (validate "engine" (.object 0) .nothing Row.setup.workspace).1 =
      .ok Row.reports :=
    (Row.setup.validate_workspace (.object 0)).trans (congrArg orFail Row.validate_fst)
  have h := validate_normal Row.setup.workspace _ _ _ _ hvalidate
  exact ⟨hvalidate, h.1, h.2.2⟩

end Operation

end Rulebook
