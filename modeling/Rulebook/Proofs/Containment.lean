import Rulebook.Proofs.Compilability
import Rulebook.Proofs.FullRun
import Rulebook.Proofs.Operations

/-!
# What makes a validation fail

Strategies may fail as they like: their failures are recorded as findings. A survey fails only with
the reason why a class that it comes to has no plan (`World.reaches_of_survey`), and such a reason
lies in a single declaration of the class (`Workspace.Stumbles`). So a validation of any value with
settings in any of their forms comes to reports, unless it stumbles over a declaration that is unfit
(`Operation.validate_contained`).
-/

set_option autoImplicit false

namespace Rulebook

variable {w : World} {nested : Value → Course (List Report)} {fault : Fault}

theorem Course.exists_of_gather {α β : Type} {first : Bool} {look : α → Course (Option β)}
    {as : List α} (h : (gather first look as).outcome = .error fault) :
    ∃ a ∈ as, (look a).outcome = .error fault := by
  induction as with
  | nil => cases h
  | cons a rest ih =>
    cases ha : (look a).outcome with
    | error fault' =>
      rw [gather, outcome_bind, ha] at h
      cases h
      exact ⟨a, .head _, ha⟩
    | ok o =>
      rw [gather, outcome_bind_ok ha] at h
      have hrest : (gather first look rest).outcome = .error fault := by
        cases o with
        | none => exact h
        | some b =>
          cases first with
          | true => cases h
          | false =>
            simp only [Bool.false_eq_true, if_false, outcome_bind] at h
            cases hr : (gather false look rest).outcome <;> rw [hr] at h
            · exact h
            · cases h
      obtain ⟨a', ha', herr⟩ := ih hrest
      exact ⟨a', .tail _ ha', herr⟩

theorem Question.target_of_answer {name : String} {q : Question}
    (h : (q.answer w name nested).outcome = .error fault) :
    ∃ v, q.target? w.heap = some v ∧ (nested v).outcome = .error fault := by
  rw [outcome_answer] at h
  split at h
  · rename_i v hv
    exact ⟨v, hv, Except.map_eq_error.1 h⟩
  · cases h

theorem Executor.target_of_survey {first : Bool} {o : Value} {e : Executor}
    (h : (e.survey w first nested o).outcome = .error fault) :
    ∃ q ∈ e.questions w o, ∃ v, q.target? w.heap = some v ∧ (nested v).outcome = .error fault := by
  rw [outcome_survey] at h
  obtain ⟨q, hq, h⟩ := Course.exists_of_gather (Except.map_eq_error.1 h)
  exact ⟨q, hq, Question.target_of_answer h⟩

/-- An executor that comes to something has had an answer for every value it was led to. -/
theorem Executor.ok_of_survey {o : Value} {e : Executor} {r : Option Report}
    (h : (e.survey w false nested o).outcome = .ok r) {q : Question} (hq : q ∈ e.questions w o)
    {v : Value} (hv : q.target? w.heap = some v) : ∃ reports, (nested v).outcome = .ok reports := by
  obtain ⟨found, hfound, -⟩ := survey_eq_ok.1 h
  obtain ⟨x, hx⟩ := Course.ok_of_gather hfound hq
  rcases Question.answer_eq_ok.1 hx with ⟨v', reports, hv', hr, -⟩ | ⟨hnone, -⟩
  · cases hv.symm.trans hv'
    exact ⟨reports, hr⟩
  · rw [hv] at hnone
    cases hnone

namespace World

variable {supply : Supply}

/-- A survey fails with the reason why the class of an object that it comes to has no plan. -/
theorem reaches_of_survey {first : Bool} {path : List Address} {v : Value}
    (h : (w.survey first supply path v).outcome = .error fault) :
    ∃ o, w.Reaches supply path v o ∧ supply (w.classOf o) = .error fault := by
  induction path, v using enter_induction with
  | skip path v hs =>
    rw [survey_of_skips hs] at h
    cases h
  | enter path a hc ha ih =>
    cases hp : supply (w.classOf (.object a)) with
    | error fault' =>
      rw [survey_enter hc ha, Course.outcome_bind, Course.outcome_plan, hp] at h
      cases h
      exact ⟨.object a, ⟨[], [], .stay hc ha⟩, hp⟩
    | ok plan =>
      rw [survey_enter hc ha, Course.outcome_bind_ok hp] at h
      obtain ⟨e, he, h⟩ := Course.exists_of_gather h
      obtain ⟨q, hq, v, hv, h⟩ := Executor.target_of_survey h
      obtain ⟨o, ⟨turns, labels, ho⟩, herr⟩ := ih v h
      obtain ⟨i, he⟩ := List.mem_iff_getElem?.1 he
      obtain ⟨k, hq⟩ := List.mem_iff_getElem?.1 hq
      have hasks : w.Asks plan (.object a) (.of i k) e q := ⟨he, hq⟩
      exact ⟨o, ⟨_, _, ho.turn hc ha hp hasks hv⟩, herr⟩

/-- A survey that does not stop early comes to every object there is a route to. -/
theorem plan_of_reaches {path : List Address} {v o : Value} {reports : List Report}
    (h : (w.survey false supply path v).outcome = .ok reports) (ho : w.Reaches supply path v o) :
    ∃ plan, supply (w.classOf o) = .ok plan := by
  obtain ⟨turns, labels, hc, objects, hroute, hnodup, hoff⟩ := ho
  -- on the route: what is left of it avoids the object that it starts from
  induction hroute generalizing path reports with
  | stay a =>
    rw [survey_enter hc (hoff a (.head _))] at h
    obtain ⟨plan, hp, -⟩ := Course.outcome_bind_eq_ok.1 h
    exact ⟨plan, hp⟩
  | @turn a plan p e q v o turns labels objects hp hasks hv hroute ih =>
    rw [survey_enter hc (hoff a (.head _)), Course.outcome_bind_ok hp] at h
    obtain ⟨r, hr⟩ := Course.ok_of_gather h (List.mem_of_getElem? hasks.executor)
    obtain ⟨reports', h⟩ :=
      Executor.ok_of_survey hr (List.mem_of_getElem? hasks.question) hv
    obtain ⟨hnew, hnodup⟩ := List.nodup_cons.1 hnodup
    refine ih h (Question.isComposite_target hv) hnodup fun b hb hm => ?_
    rcases List.mem_cons.1 hm with rfl | hm
    · exact hnew hb
    · exact hoff b (.tail _ hb) hm

theorem settingsOf_ok {options : Value} (h : options = .nothing ∨
    (∃ s, w.heap.content? options = some (.settings s)) ∨
    ∃ entries, w.heap.content? options = some (.mapping entries)) :
    ∃ settings, w.settingsOf options = .ok settings := by
  cases options with
  | nothing => exact ⟨.standard, rfl⟩
  | object a =>
    rcases h with h | ⟨s, hs⟩ | ⟨entries, he⟩
    · cases h
    · exact ⟨s, by simp only [settingsOf, hs]; rfl⟩
    · exact ⟨_, by simp only [settingsOf, he]; rfl⟩
  | _ => simp [Heap.content?, Heap.object?] at h

end World

/-- On its way from a value, a validation with an engine comes to an object of a class that the
engine has no plan for, and that has a declaration with which none can be made. -/
structure Workspace.Stumbles (ws : Workspace) (engine : String) (root o : Value) (d : Declaration)
    (fault : Fault) : Prop where
  reached : ws.world.Reaches (ws.supply engine) [] root o
  unplanned : (ws.engine engine).plans.get? (ws.world.classOf o) = none
  declared : d ∈ (ws.registry (ws.engine engine).rules).rulesOf (ws.world.classOf o)
  unfit : ws.world.unfit? d = some fault

section
variable {ws : Workspace} {engine : String} {root o : Value} {d : Declaration}

theorem Workspace.supply_unplanned {c : ClassId} (h : (ws.engine engine).plans.get? c = none) :
    ws.supply engine c = (ws.world.compile (ws.strategyRegistry (ws.engine engine).strategies) c
      ((ws.registry (ws.engine engine).rules).rulesOf c)).2 := by
  rw [supply, Setup.supply, h]
  rfl

theorem Workspace.Stumbles.supply_error (h : ws.Stumbles engine root o d fault) :
    ∃ fault', ws.supply engine (ws.world.classOf o) = .error fault' := by
  cases hs : ws.supply engine (ws.world.classOf o) with
  | error fault' => exact ⟨fault', rfl⟩
  | ok plan =>
    rw [Workspace.supply_unplanned h.unplanned] at hs
    have hfit := World.fit_of_compile hs h.declared
    rw [h.unfit] at hfit
    cases hfit

theorem Workspace.stumbles_of_supply (hreached : ws.world.Reaches (ws.supply engine) [] root o)
    (h : ws.supply engine (ws.world.classOf o) = .error fault) :
    ∃ d, ws.Stumbles engine root o d fault := by
  have hnone : (ws.engine engine).plans.get? (ws.world.classOf o) = none := by
    cases hp : (ws.engine engine).plans.get? (ws.world.classOf o) with
    | none => rfl
    | some plan =>
      rw [supply, Setup.supply, hp] at h
      cases h
  rw [Workspace.supply_unplanned hnone] at h
  obtain ⟨d, hd, hfault⟩ := World.unfit_of_compile h
  exact ⟨d, hreached, hnone, hd, hfault⟩

end

/-- A validation of any value comes to reports, whatever strategies do, unless it stumbles over an
unfit declaration; then it fails with the fault of that declaration and with nothing else. It never
passes over one: if it does not stop early it fails whenever there is one on its way, and in any
case if the root has one. -/
theorem Operation.validate_contained (ws : Workspace) (engine : String) (root options : Value)
    (hoptions : options = .nothing ∨ (∃ s, ws.world.heap.content? options = some (.settings s)) ∨
      ∃ entries, ws.world.heap.content? options = some (.mapping entries)) :
    ((∃ reports, (validate engine root options ws).1 = .ok reports) ∨
      ∃ o d fault, ws.Stumbles engine root o d fault ∧
        (validate engine root options ws).1 = .error (.fault fault)) ∧
    ∀ o d fault, ws.Stumbles engine root o d fault →
      ((ws.world.settingsOf options).map (·.abortEarly) = .ok false ∨ o = root) →
        ∃ failure, (validate engine root options ws).1 = .error failure := by
  obtain ⟨settings, hsettings⟩ := World.settingsOf_ok hoptions
  have hvalidate : (validate engine root options ws).1 = orFail (ws.world.survey
      settings.abortEarly (ws.supply engine) [] root).outcome := by
    rw [validate_fst, hsettings]
  rw [hvalidate]
  refine ⟨?_, fun o d fault hstumbles hfull => ?_⟩
  · cases hs : (ws.world.survey settings.abortEarly (ws.supply engine) [] root).outcome with
    | ok reports => exact .inl ⟨reports, rfl⟩
    | error fault =>
      obtain ⟨o, hreached, hsupply⟩ := World.reaches_of_survey hs
      obtain ⟨d, hstumbles⟩ := Workspace.stumbles_of_supply hreached hsupply
      exact .inr ⟨o, d, fault, hstumbles, rfl⟩
  · obtain ⟨fault', herr⟩ := hstumbles.supply_error
    cases hs : (ws.world.survey settings.abortEarly (ws.supply engine) [] root).outcome with
    | error fault => exact ⟨.fault fault, rfl⟩
    | ok reports =>
      exfalso
      rcases hfull with hfull | rfl
      · rw [hsettings] at hfull
        rw [show settings.abortEarly = false from Except.ok.inj hfull] at hs
        obtain ⟨plan, hp⟩ := World.plan_of_reaches hs hstumbles.reached
        rw [herr] at hp
        cases hp
      · obtain ⟨_, _, hc, _⟩ := hstumbles.reached
        obtain ⟨a, rfl⟩ := Heap.eq_object hc
        rw [World.survey_enter hc (List.not_mem_nil), Course.outcome_bind, Course.outcome_plan,
          herr] at hs
        cases hs

namespace TupleKey

/-! A class with a rule on a tuple that holds a list: it passes for a key and cannot be one. -/

def world : World where
  classes :=
    #[⟨"Customer", "customers", [.declared 0, .builtin .object], none, [], [], none, .ok []⟩]
  calls _ _ := none
  modules := []
  heap := #[⟨.builtin .list, .list #[.text "code"], [], []⟩,
    ⟨.builtin .tuple, .tuple #[.object 0], [], []⟩, ⟨.declared 0, .bare, [], []⟩]

def rule : Declaration := ⟨.declared 0, .object 1, .text "IsString", [], none, none, none⟩

def workspace : Workspace := (Operation.addRules "default" [rule] ⟨world, [], [], [], []⟩).2

theorem plans_workspace (name : String) : (workspace.engine name).plans = [] := rfl

theorem stumbles :
    workspace.Stumbles "default" (.object 2) (.object 2) rule (.unhashable "list") where
  reached := ⟨[], [], .stay rfl (List.not_mem_nil)⟩
  unplanned := rfl
  declared := by decide +kernel
  unfit := by decide +kernel

/-- What cannot have rules is no way to any object. -/
theorem not_stumbles {n : Int} {o : Value} {d : Declaration} {fault : Fault} :
    ¬workspace.Stumbles "default" (.int n) o d fault := by
  rintro ⟨⟨_, _, hc, _⟩, -, -, -⟩
  cases hc

theorem validate_fails :
    ((Operation.validate "default" (.object 2) .nothing workspace).1).toOption.isNone = true := by
  decide +kernel

end TupleKey

/-- Not every validation comes to reports, not even with the settings left out. -/
theorem Operation.validate_not_contained :
    ¬∀ (ws : Workspace) (engine : String) (root options : Value), (options = .nothing ∨
      (∃ s, ws.world.heap.content? options = some (.settings s)) ∨
        ∃ entries, ws.world.heap.content? options = some (.mapping entries)) →
      ∃ reports, (validate engine root options ws).1 = .ok reports := by
  intro h
  obtain ⟨reports, hr⟩ := h TupleKey.workspace "default" (.object 2) .nothing (.inl rfl)
  have hfails := TupleKey.validate_fails
  rw [hr] at hfails
  cases hfails

theorem Operation.validate_contained_tupleKey :
    (∃ failure, (validate "default" (.object 2) .nothing TupleKey.workspace).1 = .error failure) ∧
    ∃ reports, (validate "default" (.int 1) .nothing TupleKey.workspace).1 = .ok reports := by
  obtain ⟨-, hfails⟩ := validate_contained TupleKey.workspace "default" (.object 2) .nothing
    (.inl rfl)
  obtain ⟨hreports, -⟩ := validate_contained TupleKey.workspace "default" (.int 1) .nothing
    (.inl rfl)
  refine ⟨hfails _ _ _ TupleKey.stumbles (.inr rfl), ?_⟩
  rcases hreports with hreports | ⟨o, d, fault, hstumbles, -⟩
  · exact hreports
  · exact absurd hstumbles TupleKey.not_stumbles

end Rulebook
