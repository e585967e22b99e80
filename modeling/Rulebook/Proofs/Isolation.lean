import Rulebook.Proofs.Compilation
import Rulebook.Proofs.Inspection
import Rulebook.Proofs.Wire

/-!
# Rules do not interfere

The messages of a rule type can be taken out of reports (`Report.withoutAll`): the entry of the rule
type goes, and with it every report that has neither messages nor reports on the value left. What is
left of a full run is the full run with plans that lack the actions of that type
(`World.survey_without`), and these are the same whatever strategy there is for the type
(`Setup.supply_mapActions`). So nothing but the messages of its own rule type comes of a strategy.

The correspondence goes through the parts of a survey in turn: findings, the report on a property,
the answer to a question, the reports on an object.
-/

set_option autoImplicit false

namespace Rulebook

/-! ## Taking out a rule type -/

/-- The messages of all other rule types. -/
def Failures.without (ruleType : String) (failed : Failures) : Failures :=
  failed.filter (·.1 ≠ ruleType)

namespace Report

/-- The report with these messages and children, if there are any; what is empty counts as absent. -/
def ofParts? (property : String) (location : Option String) (failed : Failures)
    (children : List Report) (index : Option Int) : Option Report :=
  if failed.isEmpty && children.isEmpty then none
  else some (mk property location (nonempty? failed) (nonempty? children) index)

mutual

/-- What is left of a report without the messages of a rule type. -/
def without (ruleType : String) : Report → Option Report
  | mk property location failed none index =>
    ofParts? property location ((failed.getD []).without ruleType) [] index
  | mk property location failed (some children) index =>
    ofParts? property location ((failed.getD []).without ruleType)
      (withoutAll ruleType children) index

/-- What is left of reports without the messages of a rule type. -/
def withoutAll (ruleType : String) : List Report → List Report
  | [] => []
  | r :: rest => (without ruleType r).toList ++ withoutAll ruleType rest

end

variable {ruleType : String}

theorem withoutAll_eq (reports : List Report) :
    withoutAll ruleType reports = reports.filterMap (without ruleType) := by
  induction reports with
  | nil => rfl
  | cons r rest ih =>
    rw [withoutAll, ih]
    cases hr : r.without ruleType <;> simp [hr]

theorem withoutAll_append (as bs : List Report) :
    withoutAll ruleType (as ++ bs) = withoutAll ruleType as ++ withoutAll ruleType bs := by
  simp [withoutAll_eq]

theorem without_mk (property : String) (location : Option String) (failed : Option Failures)
    (children : Option (List Report)) (index : Option Int) :
    without ruleType (mk property location failed children index) =
      ofParts? property location ((failed.getD []).without ruleType)
        (withoutAll ruleType (children.getD [])) index := by
  cases children <;> rfl

/-- The report on an element goes with the last report on the element itself. -/
theorem withoutAll_element (property : String) (reports : List Report) (index : Option Int) :
    withoutAll ruleType [mk property none none (some reports) index] =
      if withoutAll ruleType reports = [] then []
      else [mk property none none (some (withoutAll ruleType reports)) index] := by
  rw [withoutAll, without_mk]
  cases h : withoutAll ruleType reports <;>
    simp [ofParts?, Failures.without, withoutAll, nonempty?, h]

end Report

namespace Failures

variable {ruleType : String}

theorem without_cons (other : String) (texts : List Value) (rest : Failures) :
    Failures.without ruleType ((other, texts) :: rest) =
      if other = ruleType then rest.without ruleType
      else (other, texts) :: rest.without ruleType := by
  by_cases h : other = ruleType <;> simp [without, h]

theorem without_record_self (failed : Failures) (text : Value) :
    Failures.without ruleType (failed.alter (fun old => old.getD [] ++ [text]) ruleType) =
      failed.without ruleType := by
  induction failed with
  | nil => simp [Catalog.alter, without]
  | cons e rest ih =>
    obtain ⟨other, texts⟩ := e
    by_cases h : other = ruleType <;> simp [Catalog.alter, without_cons, h, ih]

theorem without_record {other : String} (h : other ≠ ruleType) (failed : Failures) (text : Value) :
    Failures.without ruleType (failed.alter (fun old => old.getD [] ++ [text]) other) =
      (failed.without ruleType).alter (fun old => old.getD [] ++ [text]) other := by
  induction failed with
  | nil => simp [Catalog.alter, without, h]
  | cons e rest ih =>
    obtain ⟨first, texts⟩ := e
    -- the entry that changes is one that stays, so it is still found where it was
    by_cases hf : first = other
    · subst hf
      simp [Catalog.alter, without_cons, h]
    · by_cases hr : first = ruleType <;> simp_all [Catalog.alter, without_cons]

end Failures

/-! ## Findings -/

/-- What is left of an answer. -/
def Finding.without (ruleType : String) : Finding → Option Finding
  | .message other text => if other = ruleType then none else some (.message other text)
  | .nested reports _ =>
    if h : Report.withoutAll ruleType reports = [] then none
    else some (.nested (Report.withoutAll ruleType reports) h)

/-- What is left of findings. -/
def Findings.without (ruleType : String) (f : Findings) : Findings :=
  ⟨f.failed.without ruleType, Report.withoutAll ruleType f.children⟩

variable {ruleType : String}

namespace Findings

theorem without_add (f : Findings) (x : Finding) :
    (f.add x).without ruleType = (f.without ruleType).addAll (x.without ruleType).toList := by
  cases x with
  | message other text =>
    by_cases h : other = ruleType
    · subst h
      have hfailed := @Failures.without_record_self other f.failed text
      simp [add, record, without, Finding.without, hfailed]
    · have hfailed := Failures.without_record h f.failed text
      simp [add, record, without, Finding.without, hfailed, h]
  | nested reports hne =>
    by_cases h : Report.withoutAll ruleType reports = [] <;>
      simp [add, addChildren, without, Finding.without, Report.withoutAll_append, h]

theorem without_addAll (f : Findings) (found : List Finding) :
    (f.addAll found).without ruleType =
      (f.without ruleType).addAll (found.filterMap (·.without ruleType)) := by
  induction found generalizing f with
  | nil => rfl
  | cons x rest ih =>
    rw [addAll_cons, ih, without_add, ← addAll_append]
    cases hx : x.without ruleType <;> simp [hx]

theorem without_report? (f : Findings) (name : String) (location : Option String) :
    (f.report? name location).bind (·.without ruleType) =
      (f.without ruleType).report? name location := by
  have hget {α : Type} (l : List α) : (nonempty? l).getD [] = l := by cases l <;> rfl
  unfold report?
  cases hc : f.isClear with
  | true =>
    obtain ⟨failed, children⟩ := f
    simp only [isClear, Bool.and_eq_true, List.isEmpty_iff] at hc
    obtain ⟨rfl, rfl⟩ := hc
    rfl
  | false =>
    simp only [Bool.false_eq_true, if_false, Option.bind_some, Report.without_mk, hget]
    rfl

end Findings

theorem Finding.without_ofReports? (name : String) (place : Option Nat) (reports : List Report) :
    (ofReports? name place reports).bind (·.without ruleType) =
      ofReports? name place (Report.withoutAll ruleType reports) := by
  by_cases hr : reports = []
  · subst hr
    rfl
  · by_cases h : Report.withoutAll ruleType reports = [] <;> cases place <;>
      simp [ofReports?, without, Report.withoutAll_element, hr, h]

/-! ## Surveys -/

/-- The action asks the strategy of a rule type. -/
def Action.isOf (ruleType : String) : Action → Bool
  | .predicate other _ _ => other = ruleType
  | .nested _ => false

/-- The actions that ask other strategies. -/
def Action.others (ruleType : String) (actions : List Action) : List Action :=
  actions.filter (!·.isOf ruleType)

variable {w : World} {nested nested' : Value → Course (List Report)}

theorem Action.action_of_mem_questions {h : Heap} {v : Value} {a : Action} {q : Question}
    (hq : q ∈ a.questions h v) : q.action = a := by
  obtain ⟨n, get, -, -, he⟩ | ⟨-, he⟩ := a.questions_cases h v <;> rw [he] at hq
  · obtain ⟨i, -, rfl⟩ := List.mem_map.1 hq
    rfl
  · rw [List.mem_singleton.1 hq]

/-- The other actions put the questions that are not from the ones left out. -/
theorem Action.questions_others (h : Heap) (v : Value) (actions : List Action) :
    (others ruleType actions).flatMap (·.questions h v) =
      (actions.flatMap (·.questions h v)).filter fun q => !q.action.isOf ruleType := by
  induction actions with
  | nil => rfl
  | cons a rest ih =>
    rw [List.flatMap_cons, List.filter_append, ← ih]
    cases ha : a.isOf ruleType with
    | true =>
      have hnone : (a.questions h v).filter (fun q => !q.action.isOf ruleType) = [] :=
        List.filter_eq_nil_iff.2 fun q hq => by simp [action_of_mem_questions hq, ha]
      rw [hnone, others, List.filter_cons_of_neg (by simp [ha])]
      rfl
    | false =>
      have hall : (a.questions h v).filter (fun q => !q.action.isOf ruleType) = a.questions h v :=
        List.filter_eq_self.2 fun q hq => by simp [action_of_mem_questions hq, ha]
      rw [hall, others, List.filter_cons_of_pos (by simp [ha])]
      rfl

theorem Executor.questions_others (o : Value) (e : Executor) :
    (e.mapActions (Action.others ruleType)).questions w o =
      (e.questions w o).filter fun q => !q.action.isOf ruleType := by
  simp only [questions, mapActions, Action.questions_others]
  split <;> rfl

/-- What is left of nested validations. -/
def Leaves (ruleType : String) (nested nested' : Value → Course (List Report)) : Prop :=
  ∀ v, (nested' v).outcome = (nested v).outcome.map (Report.withoutAll ruleType)

namespace Question

variable {name : String} {q : Question}

theorem answer_of_others (h : Leaves ruleType nested nested')
    (hq : q.action.isOf ruleType = false) : (q.answer w name nested').outcome =
      (q.answer w name nested).outcome.map (·.bind (·.without ruleType)) := by
  rw [outcome_answer, outcome_answer]
  cases ht : q.target? w.heap with
  | some v =>
    dsimp only
    rw [h v]
    cases (nested v).outcome with
    | error fault => rfl
    | ok reports => exact congrArg Except.ok (Finding.without_ofReports? name q.place reports).symm
  | none =>
    cases ha : q.action with
    | nested each => simp [complaint?, ha, Except.map]
    | predicate other d strategy =>
      have hother : other ≠ ruleType := by simpa [Action.isOf, ha] using hq
      simp only [complaint?, ha, Except.map]
      cases d.messageFor? w strategy name q.place q.subject <;> simp [Finding.without, hother]

theorem answer_of_isOf (hq : q.action.isOf ruleType = true) :
    (q.answer w name nested).outcome.map (·.bind (·.without ruleType)) = .ok none := by
  rw [outcome_answer]
  cases ha : q.action with
  | nested each => simp [Action.isOf, ha] at hq
  | predicate other d strategy =>
    obtain rfl : other = ruleType := by simpa [Action.isOf, ha] using hq
    simp only [target?, complaint?, ha, Except.map]
    cases d.messageFor? w strategy name q.place q.subject <;> simp [Finding.without]

end Question

theorem Executor.survey_without {o : Value} {e : Executor} (h : Leaves ruleType nested nested') :
    ((e.mapActions (Action.others ruleType)).survey w false nested' o).outcome =
      (e.survey w false nested o).outcome.map (·.bind (·.without ruleType)) := by
  have hgather : (Course.gather false (Question.answer w e.name nested')
      ((e.questions w o).filter fun q => !q.action.isOf ruleType)).outcome =
      (Course.gather false (Question.answer w e.name nested) (e.questions w o)).outcome.map
        (·.filterMap (·.without ruleType)) :=
    Course.gather_filterMap (fun q _ hq => Question.answer_of_others h (by simpa using hq))
      (fun q _ hq => Question.answer_of_isOf (by simpa using hq))
  rw [outcome_survey, outcome_survey, questions_others]
  dsimp only [mapActions]
  rw [hgather]
  cases (Course.gather false (Question.answer w e.name nested) (e.questions w o)).outcome with
  | error fault => rfl
  | ok found =>
    simp only [Except.map, Findings.without_report?, Findings.without_addAll]
    rfl

namespace World

/-- What is left of a survey is the survey with plans that lack the actions of the rule type. -/
theorem survey_without {supply supply' : Supply}
    (h : ∀ c, supply' c = (supply c).map (·.mapActions (Action.others ruleType)))
    (path : List Address) :
    Leaves ruleType (w.survey false supply path) (w.survey false supply' path) := by
  intro v
  induction path, v using enter_induction with
  | skip path v hs =>
    rw [survey_of_skips hs, survey_of_skips hs]
    rfl
  | enter path a hc ha ih =>
    rw [survey_enter hc ha, survey_enter hc ha, Course.outcome_bind, Course.outcome_bind,
      Course.outcome_plan, Course.outcome_plan, h]
    cases supply (w.classOf (.object a)) with
    | error fault => rfl
    | ok plan =>
      -- no executor is left out, and each reports what is left of its report
      have hgather : (Course.gather false (fun e => (e.mapActions (Action.others ruleType)).survey w
          false (w.survey false supply' (a :: path)) (.object a)) plan.executors).outcome =
          (Course.gather false (Executor.survey w false (w.survey false supply (a :: path))
            (.object a)) plan.executors).outcome.map (·.filterMap (Report.without ruleType)) := by
        conv_lhs => rw [← List.filter_true plan.executors]
        exact Course.gather_filterMap (fun _ _ _ => Executor.survey_without ih)
          fun _ _ h => nomatch h
      dsimp only [Except.map, Except.bind, Plan.mapActions]
      rw [Course.gather_map, hgather]
      exact congrArg (Except.map · _) (funext fun reports => (Report.withoutAll_eq reports).symm)

/-! ## Strategies -/

variable {strategies strategies' : StrategyRegistry} {owner : ClassId}

/-- The actions on other rule types are the same whatever strategy there is for this one. -/
theorem others_actions (h : ∀ other ≠ ruleType, strategies.get? other = strategies'.get? other)
    (name : String) (ds : List (String × Declaration)) :
    Action.others ruleType (w.actions strategies owner name ds).1 =
      Action.others ruleType (w.actions strategies' owner name ds).1 := by
  induction ds with
  | nil => rfl
  | cons x rest ih =>
    obtain ⟨other, d⟩ := x
    unfold Action.others at ih ⊢
    rw [actions_cons, actions_cons, List.filter_append, List.filter_append, ih]
    by_cases hn : other = nestedType
    · rw [if_pos hn, if_pos hn]
    · by_cases hr : other = ruleType
      · have hnone (o : Option Strategy) :
            (o.map (Action.predicate other d)).toList.filter (!·.isOf ruleType) = [] := by
          cases o <;> simp [Action.isOf, hr]
        rw [if_neg hn, if_neg hn, hnone, hnone]
      · rw [if_neg hn, if_neg hn, h other hr]

/-- No strategy is asked for the reserved rule types. -/
theorem actions_congr (h : ∀ other ≠ ruleType, strategies.get? other = strategies'.get? other)
    (hr : ruleType = optionalType ∨ ruleType = nestedType) (name : String)
    (ds : List (String × Declaration)) (hds : ∀ x ∈ ds, x.1 ≠ optionalType) :
    (w.actions strategies owner name ds).1 = (w.actions strategies' owner name ds).1 := by
  induction ds with
  | nil => rfl
  | cons x rest ih =>
    obtain ⟨other, d⟩ := x
    rw [actions_cons, actions_cons, ih fun x hx => hds x (.tail _ hx)]
    -- a rule that asks a strategy is of neither reserved type
    by_cases hn : other = nestedType
    · rw [if_pos hn, if_pos hn]
    · have hother : other ≠ ruleType := by
        rcases hr with rfl | rfl
        · exact hds _ (.head _)
        · exact hn
      rw [if_neg hn, if_neg hn, h other hother]

end World

namespace Setup

/-- The same setup with other strategies. -/
def withStrategies (s : Setup) (strategies : StrategyRegistry) : Setup := { s with strategies }

variable {s : Setup} {strategies strategies' : StrategyRegistry} {plans : Catalog ClassId Plan}

theorem supply_mapActions {f : List Action → List Action} (c : ClassId)
    (hf : ∀ name ds, (∀ x ∈ ds, x.1 ≠ optionalType) →
      f (s.world.actions strategies c name ds).1 = f (s.world.actions strategies' c name ds).1) :
    ((s.withStrategies strategies).supply plans c).map (·.mapActions f) =
      ((s.withStrategies strategies').supply plans c).map (·.mapActions f) := by
  unfold supply
  cases plans.get? c with
  | some plan => rfl
  | none => exact World.compile_mapActions hf _

/-- Nothing comes of a strategy but the messages of its own rule type: with any other strategy in
its place, one that fails, or none, a full run ends the same way, and its reports are the same when
the messages of the rule type are taken out of them. No strategy at all matters to the reserved rule
types. -/
theorem validate_without (s : Setup) (plans : Catalog ClassId Plan) (log : List Record)
    (root : Value) (ruleType : String) (strategies strategies' : StrategyRegistry)
    (h : ∀ other ≠ ruleType, strategies.get? other = strategies'.get? other) :
    let outcome strategies :=
      (((s.withStrategies strategies).aborting false).validate root ⟨plans, [], log⟩).1
    (outcome strategies).map (Report.withoutAll ruleType) =
        (outcome strategies').map (Report.withoutAll ruleType) ∧
      (ruleType = optionalType ∨ ruleType = nestedType →
        outcome strategies = outcome strategies') := by
  intro outcome
  have hout strategies : outcome strategies =
      (s.world.survey false ((s.withStrategies strategies).supply plans) [] root).outcome :=
    validate_fst ((s.withStrategies strategies).aborting false) root ⟨plans, [], log⟩
  rw [hout, hout]
  constructor
  · have hsupply (c : ClassId) :
        ((s.withStrategies strategies).supply plans c).map (·.mapActions (Action.others ruleType)) =
          ((s.withStrategies strategies').supply plans c).map
            (·.mapActions (Action.others ruleType)) :=
      supply_mapActions c fun name ds _ => World.others_actions h name ds
    rw [← World.survey_without hsupply, ← World.survey_without fun _ => rfl]
  · intro hr
    have hsupply : (s.withStrategies strategies).supply plans =
        (s.withStrategies strategies').supply plans := by
      funext c
      have hc : ((s.withStrategies strategies).supply plans c).map (Plan.mapActions id) =
          ((s.withStrategies strategies').supply plans c).map (Plan.mapActions id) :=
        supply_mapActions c (World.actions_congr h hr)
      rwa [Plan.mapActions_id, Except.map_id] at hc
    rw [hsupply]

end Setup

/-! ## The ring with a broken strategy -/

namespace Ring

/-- The strategies of the ring, less the one for text, which fails on everything. -/
def broken : StrategyRegistry :=
  (setup.strategies.register "IsString" fun _ _ _ _ => throw (.refused "Boom!")).1

end Ring

theorem Setup.validate_without_ring :
    (∀ other ≠ "IsString", Ring.setup.strategies.get? other = Ring.broken.get? other) ∧
    ((Ring.setup.aborting false).validate (.object 0) ⟨[], [], []⟩).1 = .ok Ring.reports ∧
    ((((Ring.setup.withStrategies Ring.broken).aborting false).validate (.object 0)
      ⟨[], [], []⟩).1).map (Report.withoutAll "IsString") = .ok [] := by
  have hothers : ∀ other ≠ "IsString",
      Ring.setup.strategies.get? other = Ring.broken.get? other := by
    intro other hne
    have hne : "IsString" ≠ other := hne.symm
    simp only [Ring.broken, StrategyRegistry.register, StrategyRegistry.get?, Catalog.put,
      Catalog.get?_alter, hne, if_false]
  have h := validate_without Ring.setup [] [] (.object 0) "IsString" Ring.setup.strategies
    Ring.broken hothers
  refine ⟨hothers, Ring.validate_fst, h.1.symm.trans ?_⟩
  change Except.map _ ((Ring.setup.aborting false).validate (.object 0) ⟨[], [], []⟩).1 = _
  rw [Ring.validate_fst]
  rfl

end Rulebook
