import Mathlib.Data.List.Perm.Basic
import Rulebook.Proofs.Inspection
import Rulebook.Proofs.Trail

/-!
# Full runs

A validation that does not stop early reports exactly one message for every trail: no failure is
lost, made up or counted twice, whatever cycles and shared objects there are. The messages stand
under the labels of the trail and the rule type of the check at its end.

Every part of the survey keeps this account: what it adds to the reports is a permutation of what
the list of trails says (`Question.remarks_answer`, `Executor.remarks_survey`,
`World.remarks_survey`). A permutation and no more, as a report groups its messages by rule type.
-/

set_option autoImplicit false

namespace Rulebook

/-! ## What findings add to a report -/

/-- What an answer adds to the report on a property. -/
def Finding.remarks (name : String) : Finding → List Remark
  | .message ruleType text => [⟨[(name, none)], ruleType, text⟩]
  | .nested reports _ => (Report.remarksAll reports).map (·.under [(name, none)])

/-- What the report on a property will hold. -/
def Findings.remarks (name : String) (f : Findings) : List Remark :=
  f.failed.remarks [(name, .none)] ++ (Report.remarksAll f.children).map (·.under [(name, .none)])

theorem Failures.remarks_record (failed : Failures) (labels : List Label) (ruleType : String)
    (text : Value) :
    (Failures.remarks (failed.alter (fun old => old.getD [] ++ [text]) ruleType) labels).Perm
      (failed.remarks labels ++ [⟨labels, ruleType, text⟩]) := by
  induction failed with
  | nil => exact .refl _
  | cons e rest ih =>
    obtain ⟨t, texts⟩ := e
    simp only [Catalog.alter]
    split
    · rename_i ht
      subst ht
      simp only [remarks, List.flatMap_cons, Option.getD_some, List.map_append, List.append_assoc]
      exact .append_left _ List.perm_append_comm
    · simp only [remarks, List.flatMap_cons, List.append_assoc] at ih ⊢
      exact .append_left _ ih

theorem Report.remarksAll_append (as bs : List Report) :
    remarksAll (as ++ bs) = remarksAll as ++ remarksAll bs := by
  simp [remarksAll_eq]

namespace Findings

variable {name : String}

theorem remarks_add (f : Findings) (x : Finding) :
    ((f.add x).remarks name).Perm (f.remarks name ++ x.remarks name) := by
  cases x with
  | message ruleType text =>
    have h := Failures.remarks_record f.failed [(name, .none)] ruleType text
    refine (h.append_right _).trans ?_
    simp only [remarks, Finding.remarks, List.append_assoc]
    exact .append_left _ List.perm_append_comm
  | nested reports hr =>
    simp [remarks, Finding.remarks, add, addChildren, Report.remarksAll_append]

theorem remarks_addAll (f : Findings) (found : List Finding) :
    ((f.addAll found).remarks name).Perm (f.remarks name ++ found.flatMap (·.remarks name)) := by
  induction found generalizing f with
  | nil => simp
  | cons x rest ih =>
    rw [addAll_cons, List.flatMap_cons, ← List.append_assoc]
    exact (ih (f.add x)).trans ((f.remarks_add x).append_right _)

/-- The report holds what was found, and without findings there is none. -/
theorem remarks_report? (f : Findings) (location : Option String) :
    (f.report? name location).toList.flatMap Report.remarks = f.remarks name := by
  obtain ⟨failed, children⟩ := f
  cases failed <;> cases children <;>
    simp [report?, isClear, nonempty?, remarks, Report.remarks, Report.remarksAll,
      Failures.remarks]

end Findings

/-! ## The account of a survey -/

theorem Finding.remarks_ofReports? (name : String) (q : Question) (reports : List Report) :
    (ofReports? name q.place reports).toList.flatMap (·.remarks name) =
      (Report.remarksAll reports).map (·.under (q.labels name)) := by
  cases reports with
  | nil => rfl
  | cons r rest =>
    rw [ofReports?, dif_neg (List.cons_ne_nil r rest), Question.labels]
    cases q.place <;>
      simp [remarks, Report.remarksAll, Report.remarks, Failures.remarks, Remark.under,
        Function.comp_def, elementName]

variable {w : World} {nested : Value → Course (List Report)}
  {below : Value → List (Trail × Remark)}

/-- What nested validations come to is what the trails from there say. -/
def Accounts (nested : Value → Course (List Report)) (below : Value → List (Trail × Remark)) :
    Prop :=
  ∀ v reports, (nested v).outcome = .ok reports →
    (Report.remarksAll reports).Perm ((below v).map (·.2))

theorem Question.remarks_answer {name : String} {q : Question} (h : Accounts nested below)
    (p : Place) {o : Option Finding} (ho : (q.answer w name nested).outcome = .ok o) :
    (o.toList.flatMap (·.remarks name)).Perm ((q.trails w name below p).map (·.2)) := by
  rcases answer_eq_ok.1 ho with ⟨v, reports, ht, hr, rfl⟩ | ⟨ht, rfl⟩
  · rw [Finding.remarks_ofReports?, trails_of_target ht]
    have hb := (h v reports hr).map (·.under (q.labels name))
    simpa [Function.comp_def] using hb
  · rw [trails_of_no_target ht]
    cases q.complaint? w name <;> exact .refl _

theorem Executor.remarks_survey {o : Value} {e : Executor} (h : Accounts nested below) (i : Nat)
    {r : Option Report} (hr : (e.survey w false nested o).outcome = .ok r) :
    (r.toList.flatMap Report.remarks).Perm ((e.trails w below o i).map (·.2)) := by
  obtain ⟨found, hfound, rfl⟩ := survey_eq_ok.1 hr
  rw [Findings.remarks_report?, trails, List.map_flatMap]
  rw [Course.gather_zipIdx] at hfound
  refine (Findings.remarks_addAll _ found).trans ?_
  exact Course.gather_perm hfound fun x _ o ho => Question.remarks_answer h (.of i x.2) ho

namespace World

variable {supply : Supply}

/-- The reports of a full survey hold the remarks of all trails. -/
theorem remarks_survey (path : List Address) :
    Accounts (w.survey false supply path) (w.trails supply path) := by
  intro v
  induction path, v using enter_induction with
  | skip path v hs =>
    intro reports h
    rw [survey_of_skips hs] at h
    cases h
    rw [trails_of_skips hs]
    exact .nil
  | enter path a hc ha ih =>
    intro reports h
    rw [survey_enter hc ha] at h
    obtain ⟨plan, hplan, h⟩ := Course.outcome_bind_eq_ok.1 h
    rw [Course.gather_zipIdx] at h
    rw [Report.remarksAll_eq, trails_enter hc ha hplan, List.map_flatMap]
    exact Course.gather_perm h fun x _ r hr => Executor.remarks_survey ih x.2 hr

end World

/-! ## Full runs end well -/

theorem Question.answer_ok {name : String} {q : Question}
    (h : ∀ v, q.target? w.heap = some v → ∃ reports, (nested v).outcome = .ok reports) :
    ∃ o, (q.answer w name nested).outcome = .ok o := by
  rw [outcome_answer]
  split
  · rename_i v hv
    obtain ⟨reports, hr⟩ := h v hv
    exact ⟨_, by rw [hr]; rfl⟩
  · exact ⟨_, rfl⟩

theorem Executor.survey_ok {first : Bool} {o : Value} {e : Executor}
    (h : ∀ q ∈ e.questions w o, ∀ v, q.target? w.heap = some v →
      ∃ reports, (nested v).outcome = .ok reports) :
    ∃ r, (e.survey w first nested o).outcome = .ok r := by
  obtain ⟨found, hfound⟩ := @Course.gather_ok _ _ first _ _ fun q hq =>
    Question.answer_ok (h q hq)
  exact ⟨_, survey_eq_ok.2 ⟨found, hfound, rfl⟩⟩

namespace World

variable {supply : Supply}

/-- A survey comes to reports if all classes it can reach have plans. -/
theorem survey_ok {first : Bool} {path : List Address} {v : Value}
    (h : ∀ o, w.Reaches supply path v o → ∃ plan, supply (w.classOf o) = .ok plan) :
    ∃ reports, (w.survey first supply path v).outcome = .ok reports := by
  induction path, v using enter_induction with
  | skip path v hs =>
    rw [survey_of_skips hs]
    exact ⟨[], rfl⟩
  | enter path a hc ha ih =>
    obtain ⟨plan, hp⟩ := h _ ⟨[], [], .stay hc ha⟩
    rw [survey_enter hc ha, Course.outcome_bind_ok hp]
    refine Course.gather_ok fun e he => Executor.survey_ok fun q hq v hv => ?_
    obtain ⟨i, he⟩ := List.mem_iff_getElem?.1 he
    obtain ⟨k, hq⟩ := List.mem_iff_getElem?.1 hq
    have hasks : w.Asks plan (.object a) (.of i k) e q := ⟨he, hq⟩
    refine ih v fun o ho => h o ?_
    obtain ⟨turns, labels, ho⟩ := ho
    exact ⟨_, _, ho.turn hc ha hp hasks hv⟩

end World

/-- A full run on any heap comes to reports if all classes it reaches have plans, and their messages
are one for every trail: the trails are listed once each, they are exactly the ones that uncover
something, which are those to checks that fail, and the messages with their labels and rule types
are those at the ends. -/
theorem Setup.remarks_validate (s : Setup) (plans : Catalog ClassId Plan) (log : List Record)
    (root : Value)
    (hplans : ∀ o, s.world.Reaches (s.supply plans) [] root o →
      ∃ plan, s.supply plans (s.world.classOf o) = .ok plan) :
    ∃ reports run, ∃ found : List (Trail × Remark),
      (s.aborting false).validate root ⟨plans, [], log⟩ = (.ok reports, run) ∧
      (found.map Prod.fst).Nodup ∧
      (∀ t m, (t, m) ∈ found ↔ s.world.Uncovers (s.supply plans) [] root t m) ∧
      (∀ t, t ∈ found.map Prod.fst ↔ s.world.FailsAt (s.supply plans) [] root t) ∧
      (Report.remarksAll reports).Perm (found.map Prod.snd) := by
  obtain ⟨reports, hr⟩ := @World.survey_ok _ _ false _ _ hplans
  have hv := (s.aborting false).validate_eq root ⟨plans, [], log⟩
  have hfails t : t ∈ (s.world.trails (s.supply plans) [] root).map Prod.fst ↔
      s.world.FailsAt (s.supply plans) [] root t := by
    simp [← World.exists_uncovers_iff, ← World.mem_trails]
  exact ⟨reports, _, s.world.trails (s.supply plans) [] root, hv.trans (Prod.ext hr rfl),
    World.nodup_trails _ _, fun _ _ => World.mem_trails, hfails, World.remarks_survey _ _ _ hr⟩

theorem Setup.remarks_validate_row :
    (∀ o, Row.setup.world.Reaches (Row.setup.supply []) [] (.object 0) o →
      ∃ plan, Row.setup.supply [] (Row.setup.world.classOf o) = .ok plan) ∧
    ∃ t, Row.setup.world.FailsAt (Row.setup.supply []) [] (.object 0) t ∧
      Row.setup.world.Uncovers (Row.setup.supply []) [] (.object 0) t
        ⟨[("next", none), ("next[1]", some 1), ("label", none)], "IsString",
          .text "label must be a string"⟩ ∧
      ∀ t', Row.setup.world.FailsAt (Row.setup.supply []) [] (.object 0) t' → t' = t := by
  have hplans := fun o (_ : Row.setup.world.Reaches (Row.setup.supply []) [] (.object 0) o) =>
    Row.supply_ok (Row.setup.world.classOf o)
  obtain ⟨reports, run, found, hv, hnodup, hmem, hfails, hperm⟩ :=
    remarks_validate Row.setup [] [] (.object 0) hplans
  cases Row.validate_fst.symm.trans (congrArg Prod.fst hv)
  obtain ⟨⟨t, m⟩, rfl⟩ : ∃ x, found = [x] :=
    List.length_eq_one_iff.1 ((List.length_map ..).symm.trans hperm.length_eq.symm)
  obtain rfl := (List.cons.inj (List.perm_singleton.1 hperm)).1
  refine ⟨hplans, t, (hfails t).1 (.head _), (hmem t _).1 (.head _), fun t' h => ?_⟩
  exact List.mem_singleton.1 ((hfails t').2 h)

end Rulebook
