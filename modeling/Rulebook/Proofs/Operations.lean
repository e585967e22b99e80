import Rulebook.Proofs.Inspection
import Rulebook.Workspace

/-!
# Operations as functions of the workspace

An operation takes a workspace to an outcome and the next workspace. The equations below say so for
those that run a part of a validation or shape data; what a validation comes to is told by the
survey with the plans that the engine gives to classes (`Workspace.supply`).
-/

set_option autoImplicit false

namespace Rulebook

namespace Workspace

/-- The plans that classes get from an engine: those it keeps, and new ones for all others. -/
def supply (ws : Workspace) (engine : String) : Supply :=
  (ws.setup (ws.engine engine) .standard).supply (ws.engine engine).plans

theorem registry_put (ws : Workspace) (registry name : String) (r : Registry) :
    Workspace.registry { ws with registries := ws.registries.put registry r } name =
      if registry = name then r else ws.registry name := by
  simp only [Workspace.registry, Catalog.put, Catalog.get?_alter]
  split <;> rfl

end Workspace

namespace Operation

theorem bind_eq {α β : Type} (m : Operation α) (f : α → Operation β) (ws : Workspace) :
    (m >>= f) ws = match m ws with
      | (.ok a, ws') => f a ws'
      | (.error failure, ws') => (.error failure, ws') := by
  change ExceptT.bindCont f (m ws).1 (m ws).2 = _
  cases m ws with
  | mk outcome ws' => cases outcome <;> rfl

theorem get_bind {α : Type} (f : Workspace → Operation α) (ws : Workspace) :
    ((get : Operation Workspace) >>= f) ws = f ws ws := rfl

theorem liftFault_bind {α β : Type} (r : Except Fault α) (f : α → Operation β) (ws : Workspace) :
    (liftFault r >>= f) ws = match r with
      | .ok a => f a ws
      | .error fault => (.error (.fault fault), ws) := by
  cases r <;> rfl

/-! ## Validations -/

/-- Running a part of a validation: the engine keeps the plans, all else but the log stays. -/
theorem running_eq {α : Type} (engine : String) (settings : Settings)
    (body : Setup → Validation α) (ws : Workspace) :
    let r := body (ws.setup (ws.engine engine) settings) ⟨(ws.engine engine).plans, [], []⟩
    running engine settings body ws = (orFail r.1, { ws with
      engines := ws.engines.put engine { ws.engine engine with plans := r.2.plans }
      log := ws.log ++ r.2.log }) := by
  intro r
  change liftFault r.1 _ = _
  cases r.1 <;> rfl

/-- Running a part of a validation comes to what its course says. -/
theorem running_fst {α : Type} {engine : String} (settings : Settings)
    (body : Setup → Validation α) {ws : Workspace} {t : Course α}
    (h : Follows (ws.setup (ws.engine engine) settings) (ws.supply engine) []
      (body (ws.setup (ws.engine engine) settings)) t) :
    (running engine settings body ws).1 = orFail t.outcome := by
  have hr := h ⟨(ws.engine engine).plans, [], []⟩ rfl rfl
  rw [running_eq]
  exact congrArg (fun r => orFail r.1) hr

/-- A class gets its plan. -/
theorem plan_fst (engine : String) (c : ClassId) (ws : Workspace) :
    (plan engine c ws).1 = orFail (ws.supply engine c) :=
  running_fst .standard (fun s => s.planOf c) (.planOf c)

theorem inspect_fst (engine : String) (v : Value) (settings : Settings) (ws : Workspace) :
    (inspect engine v settings ws).1 =
      orFail (ws.world.survey settings.abortEarly (ws.supply engine) [] v).outcome :=
  running_fst settings (fun s => s.validate v) (Setup.validate_follows v)

theorem validate_eq (engine : String) (v options : Value) (ws : Workspace) :
    validate engine v options ws = match ws.world.settingsOf options with
      | .ok settings => running engine settings (fun s => s.validate v) ws
      | .error fault => (.error (.fault fault), ws) := by
  rw [validate, get_bind, liftFault_bind]
  cases ws.world.settingsOf options <;> rfl

/-- What a validation comes to is told by the world, the plans that classes get and the options. -/
theorem validate_fst (engine : String) (v options : Value) (ws : Workspace) :
    (validate engine v options ws).1 = match ws.world.settingsOf options with
      | .ok settings => orFail
          (ws.world.survey settings.abortEarly (ws.supply engine) [] v).outcome
      | .error fault => .error (.fault fault) := by
  rw [validate_eq]
  cases ws.world.settingsOf options with
  | error fault => rfl
  | ok settings => exact inspect_fst engine v settings ws

/-- A validation that comes to reports has made sense of its options, and the survey comes to the
same reports. -/
theorem survey_of_validate {engine : String} {v options : Value} {ws : Workspace}
    {reports : List Report} (h : (validate engine v options ws).1 = .ok reports) :
    ∃ settings, ws.world.settingsOf options = .ok settings ∧
      (ws.world.survey settings.abortEarly (ws.supply engine) [] v).outcome = .ok reports := by
  rw [validate_eq] at h
  cases ho : ws.world.settingsOf options with
  | error fault => simp [ho] at h
  | ok settings =>
    simp only [ho] at h
    refine ⟨settings, rfl, ?_⟩
    have hs := (inspect_fst engine v settings ws).symm.trans h
    cases hr : (ws.world.survey settings.abortEarly (ws.supply engine) [] v).outcome with
    | error fault => rw [hr] at hs; cases hs
    | ok reports' => rw [hr] at hs; cases hs; rfl

/-! ## Raw data -/

/-- Shaping data puts the new instance into the world. -/
theorem shape_eq (registry : String) (c : ClassId) (data : Entries) (strip : Bool)
    (ws : Workspace) :
    shape registry c data strip ws =
      match ws.world.shape ((ws.registry registry).rulesOf c) c data strip with
      | .ok (w, v) => (.ok v, { ws with world := w })
      | .error failure => (.error failure, ws) := by
  rw [shape, get_bind, bind_eq]
  cases ws.world.shape ((ws.registry registry).rulesOf c) c data strip <;> rfl

theorem shape_eq_ok {registry : String} {c : ClassId} {data : Entries} {strip : Bool}
    {ws ws' : Workspace} {v : Value} : shape registry c data strip ws = (.ok v, ws') ↔
      ∃ w, ws.world.shape ((ws.registry registry).rulesOf c) c data strip = .ok (w, v) ∧
        ws' = { ws with world := w } := by
  rw [shape_eq]
  constructor
  · intro h
    cases hs : ws.world.shape ((ws.registry registry).rulesOf c) c data strip with
    | error failure => rw [hs] at h; cases h
    | ok made =>
      rw [hs] at h
      cases h
      exact ⟨made.1, rfl, rfl⟩
  · rintro ⟨w, hs, rfl⟩
    rw [hs]

end Operation

/-! ## One engine -/

namespace Setup

variable (s : Setup)

/-- A workspace with an engine for these rules. -/
def workspace : Workspace where
  world := s.world
  registries := [("rules", s.rules)]
  strategyRegistries := [("strategies", s.strategies)]
  engines := [("engine", ⟨"rules", "strategies", []⟩)]
  log := []

theorem plans_workspace (name : String) : (s.workspace.engine name).plans = [] := by
  simp only [Workspace.engine, workspace, Catalog.get?]
  split <;> rfl

theorem validate_workspace (v : Value) :
    (Operation.validate "engine" v .nothing s.workspace).1 =
      orFail ({ s with settings := .standard }.validate v ⟨[], [], []⟩).1 := by
  have he : s.workspace.engine "engine" = ⟨"rules", "strategies", []⟩ := rfl
  have hs : s.workspace.setup ⟨"rules", "strategies", []⟩ .standard =
      { s with settings := .standard } := rfl
  rw [Operation.validate_eq]
  change (Operation.running "engine" .standard (fun s => s.validate v) s.workspace).1 = _
  rw [Operation.running_eq, he, hs]

end Setup

end Rulebook
