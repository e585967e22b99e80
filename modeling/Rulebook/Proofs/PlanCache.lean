import Rulebook.Proofs.Operations

/-!
# The plans that engines keep

What the plans of an engine are is told without its cache: a `Session` remembers, for every engine
and class, from which contents of the world and the registries the class got its plan when the
engine reached it for the first time since its plans were dropped. What a validation asks for is
that of the survey (`World.survey`), given the plans of what is remembered.

`Session.Keeps` is the invariant: an engine holds exactly the plans that are remembered. Every step
keeps it (`Session.Keeps.next`), so it holds after all (`Session.Keeps.run`).
-/

set_option autoImplicit false

namespace Rulebook

/-! ## Contents -/

/-- What plans are made from. -/
structure Contents where
  world : World
  rules : Registry
  strategies : StrategyRegistry

/-- The plan of a class, or why it has none. -/
def Contents.compile (k : Contents) (c : ClassId) : Except Fault Plan :=
  (k.world.compile k.strategies c (k.rules.rulesOf c)).2

/-- What an engine makes plans from. -/
def Workspace.contents (ws : Workspace) (engine : String) : Contents :=
  ⟨ws.world, ws.registry (ws.engine engine).rules, ws.strategyRegistry (ws.engine engine).strategies⟩

/-- The workspace with an engine of this name. -/
def Workspace.withEngine (ws : Workspace) (name : String) (e : Engine) : Workspace :=
  { ws with engines := ws.engines.put name e }

theorem Workspace.engine_withEngine (ws : Workspace) (name name' : String) (e : Engine) :
    (ws.withEngine name e).engine name' = if name = name' then e else ws.engine name' := by
  simp only [engine, withEngine, Catalog.put, Catalog.get?_alter]
  split <;> rfl

/-- An engine with other plans makes plans from the same. -/
theorem Workspace.contents_withEngine (ws : Workspace) (name name' : String)
    (plans : Catalog ClassId Plan) :
    (ws.withEngine name { ws.engine name with plans }).contents name' = ws.contents name' := by
  simp only [contents, engine_withEngine]
  by_cases h : name = name'
  · subst h
    rw [if_pos rfl]
    rfl
  · rw [if_neg h]
    rfl

/-! ## Sessions -/

/-- What may happen to a workspace. -/
inductive Step where
  | declare (registry : String) (ds : List Declaration)
  | register (registry ruleType : String) (strategy : Strategy)
  | validate (engine : String) (v options : Value)
  | plan (engine : String) (c : ClassId)
  | clear (engine : String)
  /-- Classes and objects are made or changed. -/
  | become (w : World)

namespace Step

/-- The workspace after a step, which may have failed. -/
def after (ws : Workspace) : Step → Workspace
  | declare registry ds => (Operation.addRules registry ds ws).2
  | register registry ruleType strategy => (Operation.register registry ruleType strategy ws).2
  | validate engine v options => (Operation.validate engine v options ws).2
  | plan engine c => (Operation.plan engine c ws).2
  | clear engine => (Operation.clearPlans engine ws).2
  | become w => (Operation.changeWorld (fun _ => .ok w) ws).2

/-- The step drops the plans of an engine. -/
def clears : Step → String → Bool
  | clear engine, name => engine = name
  | _, _ => false

end Step

/-- A workspace, and what the classes that an engine has reached got their plans from. -/
structure Session where
  workspace : Workspace
  reached : String → ClassId → Option Contents

namespace Session

/-- A session in which no engine has reached anything. -/
def start (ws : Workspace) : Session := ⟨ws, fun _ _ => none⟩

/-- What an engine makes plans from. -/
def contents (s : Session) (name : String) : Contents := s.workspace.contents name

/-- What an engine works with. -/
def setup (s : Session) (name : String) (settings : Settings) : Setup :=
  s.workspace.setup (s.workspace.engine name) settings

/-- The plans that classes get from an engine: those of what is remembered, and new ones for
classes it has not reached. -/
def supply (s : Session) (name : String) : Supply := fun c =>
  ((s.reached name c).getD (s.contents name)).compile c

/-- What a validation does and comes to with the plans of a supply. -/
def survey (s : Session) (supply : Supply) (v options : Value) : Course (List Report) :=
  match s.workspace.world.settingsOf options with
  | .ok settings => s.workspace.world.survey settings.abortEarly supply [] v
  | .error fault => ⟨[], .error fault⟩

/-- The classes whose plans a step asks an engine for. -/
def asks (s : Session) : Step → String → List ClassId
  | .validate engine v options, name =>
    if engine = name then Event.classes (s.survey (s.supply name) v options).events else []
  | .plan engine c, name => if engine = name then [c] else []
  | _, _ => []

/-- A step. A class is reached when an engine is asked for its plan and gets it. What it was made
from is remembered until the plans of the engine are dropped. -/
def next (s : Session) (x : Step) : Session where
  workspace := x.after s.workspace
  reached name c :=
    if x.clears name then none
    else (s.reached name c).or
      (if c ∈ s.asks x name ∧ (s.supply name c).toOption.isSome then some (s.contents name)
        else none)

/-- Steps one after the other. -/
def run (s : Session) (steps : List Step) : Session := steps.foldl next s

@[simp] theorem run_nil (s : Session) : s.run [] = s := rfl

@[simp] theorem run_cons (s : Session) (x : Step) (rest : List Step) :
    s.run (x :: rest) = (s.next x).run rest := rfl

@[simp] theorem run_append (s : Session) (as bs : List Step) :
    s.run (as ++ bs) = (s.run as).run bs := List.foldl_append

/-- An engine holds exactly the plans of what is remembered for it. -/
structure Keeps (s : Session) : Prop where
  absent : ∀ {name c}, s.reached name c = none → (s.workspace.engine name).plans.get? c = none
  present : ∀ {name c k}, s.reached name c = some k →
    ∃ plan, k.compile c = .ok plan ∧ (s.workspace.engine name).plans.get? c = some plan

theorem Keeps.get?_eq_some {s : Session} (h : s.Keeps) {name : String} {c : ClassId}
    {plan : Plan} : (s.workspace.engine name).plans.get? c = some plan ↔
      ∃ k, s.reached name c = some k ∧ k.compile c = .ok plan := by
  cases hr : s.reached name c with
  | none => simp [h.absent hr]
  | some k =>
    obtain ⟨plan', hk, hp⟩ := h.present hr
    simp [hp, hk]

theorem Keeps.supply_eq {s : Session} (h : s.Keeps) (name : String) (settings : Settings) :
    (s.setup name settings).supply (s.workspace.engine name).plans = s.supply name := by
  funext c
  simp only [Setup.supply, supply]
  cases hr : s.reached name c with
  | none => simp only [h.absent hr]; rfl
  | some k =>
    obtain ⟨plan, hk, hp⟩ := h.present hr
    simp only [hp]
    exact hk.symm

/-! ## What a step does -/

section
variable {s : Session} {α : Type} {engine : String} {settings : Settings}
  {body : Setup → Validation α} {t : Course α}

/-- Running a part of a validation comes to what its course says. -/
theorem Keeps.outcome_running (h : s.Keeps)
    (hf : Follows (s.setup engine settings) (s.supply engine) [] (body (s.setup engine settings)) t) :
    (Operation.running engine settings body s.workspace).1 = orFail t.outcome := by
  have hs : s.workspace.supply engine = s.supply engine := h.supply_eq engine .standard
  rw [← hs] at hf
  exact Operation.running_fst settings body hf

/-- Running a part of a validation adds the plans that its course asks for. -/
theorem Keeps.plans_running (h : s.Keeps)
    (hf : Follows (s.setup engine settings) (s.supply engine) [] (body (s.setup engine settings)) t)
    (name : String) (c : ClassId) :
    ((Operation.running engine settings body s.workspace).2.engine name).plans.get? c =
      ((s.workspace.engine name).plans.get? c).or
        (if c ∈ (if engine = name then Event.classes t.events else []) then
          (s.supply name c).toOption else none) := by
  have hr := hf ⟨(s.workspace.engine engine).plans, [], []⟩ (h.supply_eq engine settings) rfl
  rw [Operation.running_eq]
  change ((s.workspace.withEngine engine { s.workspace.engine engine with
    plans := (body (s.setup engine settings) ⟨_, [], []⟩).2.plans }).engine name).plans.get? c = _
  rw [Workspace.engine_withEngine, hr]
  by_cases hn : engine = name
  · subst hn
    simp only [if_true, Setup.get?_replay, h.supply_eq]
  · simp [hn]

end

/-- What a step does to the plans of an engine. -/
theorem Keeps.plans_next {s : Session} (h : s.Keeps) (x : Step) (name : String) (c : ClassId) :
    ((s.next x).workspace.engine name).plans.get? c =
      if x.clears name then .none
      else ((s.workspace.engine name).plans.get? c).or
        (if c ∈ s.asks x name then (s.supply name c).toOption else .none) := by
  cases x with
  | declare registry ds => simp [Step.clears, asks]; rfl
  | register registry ruleType strategy => simp [Step.clears, asks]; rfl
  | become w => simp [Step.clears, asks]; rfl
  | clear engine =>
    change ((s.workspace.withEngine engine _).engine name).plans.get? c = _
    rw [Workspace.engine_withEngine]
    by_cases hn : engine = name <;> simp [Step.clears, asks, hn]
  | plan engine c' =>
    change ((Operation.running engine .standard (fun s => s.planOf c') s.workspace).2.engine
      name).plans.get? c = _
    rw [h.plans_running (.planOf c')]
    simp [Step.clears, asks, Course.plan]
  | validate engine v options =>
    change ((Operation.validate engine v options s.workspace).2.engine name).plans.get? c = _
    rw [Operation.validate_eq]
    cases ho : s.workspace.world.settingsOf options with
    | error fault => simp [Step.clears, asks, survey, ho]
    | ok settings =>
      simp only [Step.clears, asks, survey, ho]
      rw [h.plans_running (Setup.validate_follows v)]
      by_cases hn : engine = name
      · subst hn; rfl
      · simp [hn]

theorem supply_of_unreached {s : Session} {name : String} {c : ClassId}
    (h : s.reached name c = none) : s.supply name c = (s.contents name).compile c := by
  rw [supply, h, Option.getD_none]

theorem start_keeps {ws : Workspace} (h : ∀ name, (ws.engine name).plans = []) :
    (start ws).Keeps :=
  ⟨fun {name c} _ => (congrArg (Catalog.get? · c) (h name)).trans rfl, fun hr => nomatch hr⟩

/-- What is remembered after a step was remembered before, or the class has just been reached. -/
theorem reached_next {s : Session} {x : Step} {name : String} {c : ClassId} {k : Contents}
    (h : (s.next x).reached name c = some k) : x.clears name = false ∧
      (s.reached name c = some k ∨ s.reached name c = none ∧ c ∈ s.asks x name ∧
        k = s.contents name ∧ ∃ plan, k.compile c = .ok plan) := by
  simp only [next] at h
  split at h
  · cases h
  rename_i hx
  refine ⟨by simpa using hx, ?_⟩
  cases hold : s.reached name c with
  | some k' =>
    rw [hold] at h
    exact .inl h
  | none =>
    rw [hold, Option.none_or, supply_of_unreached hold] at h
    split at h
    · rename_i hnew
      cases h
      cases hk : (s.contents name).compile c with
      | ok plan => exact .inr ⟨rfl, hnew.1, rfl, plan, rfl⟩
      | error fault =>
        rw [hk] at hnew
        cases hnew.2
    · cases h

theorem unreached_next {s : Session} {x : Step} {name : String} {c : ClassId}
    (h : (s.next x).reached name c = none) : x.clears name = true ∨
      s.reached name c = none ∧ (c ∈ s.asks x name → (s.supply name c).toOption = none) := by
  simp only [next] at h
  split at h
  · exact .inl ‹_›
  · obtain ⟨hold, hnew⟩ := Option.or_eq_none_iff.1 h
    exact .inr ⟨hold, fun ha => by simpa [ha] using hnew⟩

theorem Keeps.next {s : Session} (h : s.Keeps) (x : Step) : (s.next x).Keeps := by
  refine ⟨fun {name c} hr => ?_, fun {name c k} hr => ?_⟩
  · rw [h.plans_next x name c]
    rcases unreached_next hr with hx | ⟨hold, hnew⟩
    · rw [if_pos hx]
    · rw [h.absent hold, Option.none_or]
      split
      · rfl
      · split
        · exact hnew ‹_›
        · rfl
  · obtain ⟨hx, hold | ⟨hold, ha, rfl, plan, hk⟩⟩ := reached_next hr
    · obtain ⟨plan, hk, hp⟩ := h.present hold
      exact ⟨plan, hk, by rw [h.plans_next x name c, hp, hx]; rfl⟩
    · have hs : s.supply name c = .ok plan := (supply_of_unreached hold).trans hk
      refine ⟨plan, hk, ?_⟩
      rw [h.plans_next x name c, h.absent hold, hx, if_pos ha, hs]
      rfl

theorem Keeps.run {s : Session} (h : s.Keeps) (steps : List Step) : (s.run steps).Keeps := by
  induction steps generalizing s with
  | nil => exact h
  | cons x rest ih => exact ih (h.next x)

/-- What a validation comes to. -/
theorem Keeps.outcome_validate {s : Session} (h : s.Keeps) (engine : String) (v options : Value) :
    (Operation.validate engine v options s.workspace).1 =
      orFail (s.survey (s.supply engine) v options).outcome := by
  rw [Operation.validate_eq, survey]
  cases s.workspace.world.settingsOf options with
  | error fault => rfl
  | ok settings => exact h.outcome_running (Setup.validate_follows v)

/-- What is remembered stays until the plans are dropped. -/
theorem reached_run {s : Session} {name : String} {c : ClassId} {k : Contents}
    (h : s.reached name c = some k) {steps : List Step}
    (hs : ∀ x ∈ steps, x.clears name = false) : (s.run steps).reached name c = some k := by
  induction steps generalizing s with
  | nil => exact h
  | cons x rest ih =>
    refine ih ?_ fun y hy => hs y (.tail _ hy)
    simp [next, hs x (.head _), h]

/-- The step between `earlier` and `later` is the one that an engine has reached a class in: it had
not done so yet, or not again since its plans were dropped, and they have not been dropped since. -/
structure ReachedAt (s : Session) (earlier : List Step) (x : Step) (later : List Step)
    (name : String) (c : ClassId) : Prop where
  unreached : (s.run earlier).reached name c = none
  asked : c ∈ (s.run earlier).asks x name
  kept : ∀ y ∈ x :: later, y.clears name = false

/-- What is remembered of a class, told from the history. -/
theorem reached_iff {s : Session} (hs : s.reached = fun _ _ => none) (steps : List Step)
    (name : String) (c : ClassId) (k : Contents) :
    (s.run steps).reached name c = some k ↔ ∃ earlier x later, steps = earlier ++ x :: later ∧
      s.ReachedAt earlier x later name c ∧ k = (s.run earlier).contents name ∧
      ∃ plan, k.compile c = .ok plan := by
  constructor
  · intro h
    -- from the end of the history: the last step has reached the class, or an earlier one
    induction steps using List.reverseRecOn with
    | nil => rw [run_nil, hs] at h; cases h
    | append_singleton before x ih =>
      rw [run_append] at h
      obtain ⟨hx, hold | ⟨hold, ha, hk, hp⟩⟩ := reached_next h
      · obtain ⟨earlier, y, later, rfl, hr, hk, hp⟩ := ih hold
        refine ⟨earlier, y, later ++ [x], by simp, ⟨hr.unreached, hr.asked, fun z hz => ?_⟩, hk, hp⟩
        rcases List.mem_append.1 (show z ∈ (y :: later) ++ [x] from hz) with hz | hz
        · exact hr.kept z hz
        · rw [List.mem_singleton.1 hz, hx]
      · exact ⟨before, x, [], rfl, ⟨hold, ha, by simpa using hx⟩, hk, hp⟩
  · rintro ⟨earlier, x, later, rfl, hr, rfl, plan, hp⟩
    rw [run_append, run_cons]
    refine reached_run ?_ fun y hy => hr.kept y (.tail _ hy)
    have hsome : ((s.run earlier).supply name c).toOption.isSome = true := by
      rw [supply_of_unreached hr.unreached, hp]
      rfl
    simp [next, hr.kept x (.head _), hr.unreached, hr.asked, hsome]

/-! ## While nothing is declared or registered -/

/-- The step declares and registers nothing. It may change the world, but not what an engine would
make of a class. -/
def Spares (s : Session) (name : String) (c : ClassId) : Step → Prop
  | .declare .. => False
  | .register .. => False
  | .become w =>
    (Workspace.contents { s.workspace with world := w } name).compile c =
      (s.contents name).compile c
  | _ => True

/-- Nothing is declared or registered in a number of steps. -/
def Quiet (name : String) (c : ClassId) : Session → List Step → Prop
  | _, [] => True
  | s, x :: rest => s.Spares name c x ∧ Quiet name c (s.next x) rest

/-- The class would get the same plan again. -/
def IsCurrent (s : Session) (name : String) (c : ClassId) : Prop :=
  ∀ k, s.reached name c = some k → k.compile c = (s.contents name).compile c

theorem IsCurrent.supply_eq {s : Session} {name : String} {c : ClassId} (h : s.IsCurrent name c) :
    s.supply name c = (s.contents name).compile c := by
  cases hr : s.reached name c with
  | none => exact supply_of_unreached hr
  | some k => rw [supply, hr, Option.getD_some, h k hr]

theorem contents_running {s : Session} {α : Type} (engine : String) (settings : Settings)
    (body : Setup → Validation α) (name : String) :
    (Operation.running engine settings body s.workspace).2.contents name = s.contents name := by
  rw [Operation.running_eq]
  exact s.workspace.contents_withEngine engine name _

theorem contents_validate {s : Session} (engine : String) (v options : Value) (name : String) :
    (s.next (.validate engine v options)).contents name = s.contents name := by
  change (Operation.validate engine v options s.workspace).2.contents name = s.contents name
  rw [Operation.validate_eq]
  split
  · exact contents_running engine _ _ name
  · rfl

theorem compile_next {s : Session} {x : Step} {name : String} {c : ClassId}
    (h : s.Spares name c x) :
    ((s.next x).contents name).compile c = (s.contents name).compile c := by
  cases x with
  | declare registry ds => cases h
  | register registry ruleType strategy => cases h
  | become w => exact h
  | clear engine =>
    exact congrArg (fun k : Contents => k.compile c)
      (s.workspace.contents_withEngine engine name [])
  | plan engine c' =>
    exact congrArg (fun k : Contents => k.compile c) (contents_running engine .standard _ name)
  | validate engine v options =>
    exact congrArg (fun k : Contents => k.compile c) (contents_validate engine v options name)

theorem IsCurrent.next {s : Session} {x : Step} {name : String} {c : ClassId}
    (h : s.IsCurrent name c) (hx : s.Spares name c x) : (s.next x).IsCurrent name c := by
  intro k hk
  rw [compile_next hx]
  obtain ⟨-, hold | ⟨-, -, rfl, -⟩⟩ := reached_next hk
  · exact h k hold
  · rfl

theorem IsCurrent.run {s : Session} {name : String} {c : ClassId} (h : s.IsCurrent name c)
    {steps : List Step} (hs : Quiet name c s steps) : (s.run steps).IsCurrent name c := by
  induction steps generalizing s with
  | nil => exact h
  | cons x rest ih => exact ih (h.next hs.1) hs.2

/-- A new engine on the registries of another. -/
def renew (s : Session) (name fresh : String) : Session where
  workspace := s.workspace.withEngine fresh { s.workspace.engine name with plans := [] }
  reached name' c := if fresh = name' then none else s.reached name' c

theorem Keeps.renew {s : Session} (h : s.Keeps) (name fresh : String) :
    (s.renew name fresh).Keeps := by
  refine ⟨fun {name' c} hr => ?_, fun {name' c k} hr => ?_⟩ <;>
    simp only [Session.renew, Workspace.engine_withEngine] at hr ⊢
  · split
    · rfl
    · exact h.absent (by simpa [*] using hr)
  · split at hr
    · cases hr
    · rw [if_neg ‹_›]
      exact h.present hr

theorem supply_renew (s : Session) (name fresh : String) :
    (s.renew name fresh).supply fresh = (s.contents name).compile := by
  funext c
  have hr : (s.renew name fresh).reached fresh c = none := if_pos rfl
  rw [supply_of_unreached hr, contents, Workspace.contents, renew, Workspace.engine_withEngine,
    if_pos rfl]
  rfl

/-- An engine whose plans are those that a new one would make validates like a new one. -/
theorem Keeps.outcome_renew {s : Session} (h : s.Keeps) {name : String} {v options : Value}
    (hc : (s.survey (s.contents name).compile v options).AsksOnly fun c => s.IsCurrent name c)
    (fresh : String) :
    (Operation.validate name v options s.workspace).1 =
      (Operation.validate fresh v options (s.renew name fresh).workspace).1 := by
  rw [h.outcome_validate, (h.renew name fresh).outcome_validate, supply_renew]
  -- the new engine stands in another workspace, but on the same world
  change _ = orFail (s.survey (s.contents name).compile v options).outcome
  have hs : s.survey (s.supply name) v options = s.survey (s.contents name).compile v options := by
    unfold survey at hc ⊢
    split
    · rename_i settings ho
      rw [ho] at hc
      exact World.survey_congr [] v fun c ha => (hc c ha).supply_eq
    · rfl
  rw [hs]

/-- The plans that engines keep, after any steps from a workspace whose engines have none.

An engine holds a plan for a class if and only if it has reached the class since its plans were last
dropped, and it is the plan that the contents of that moment give. Until the plans are dropped it
stays, whatever happens. A validation comes to what the survey does with the plans of
what is remembered, and new ones for all other classes. If nothing was declared or registered since
the classes that it asks for were reached, it comes to what it does with a new engine. -/
theorem plan_cache {ws : Workspace} (h : ∀ name, (ws.engine name).plans = [])
    (steps : List Step) :
    let s := (start ws).run steps
    (∀ name c plan, (s.workspace.engine name).plans.get? c = some plan ↔
      ∃ earlier x later, steps = earlier ++ x :: later ∧
        (start ws).ReachedAt earlier x later name c ∧
        (((start ws).run earlier).contents name).compile c = .ok plan) ∧
    (∀ name c plan, (s.workspace.engine name).plans.get? c = some plan →
      ∀ further, (∀ x ∈ further, x.clears name = false) →
        ((s.run further).workspace.engine name).plans.get? c = some plan) ∧
    (∀ name v options, (Operation.validate name v options s.workspace).1 =
      orFail (s.survey (s.supply name) v options).outcome) ∧
    ∀ name v options,
      ((s.survey (s.contents name).compile v options).AsksOnly fun c => ∃ earlier later,
        steps = earlier ++ later ∧ ((start ws).run earlier).reached name c = none ∧
          Quiet name c ((start ws).run earlier) later) →
      ∀ fresh, (Operation.validate name v options s.workspace).1 =
        (Operation.validate fresh v options
          (s.workspace.withEngine fresh { s.workspace.engine name with plans := [] })).1 := by
  intro s
  have hs : s.Keeps := (start_keeps h).run steps
  refine ⟨fun name c plan => ⟨fun hp => ?_, fun hr => ?_⟩, fun name c plan hp further hf => ?_,
    fun name v options => hs.outcome_validate name v options, fun name v options hq fresh => ?_⟩
  · obtain ⟨k, hr, hk⟩ := hs.get?_eq_some.1 hp
    obtain ⟨earlier, x, later, he, hat, rfl, -⟩ := (reached_iff rfl steps name c k).1 hr
    exact ⟨earlier, x, later, he, hat, hk⟩
  · obtain ⟨earlier, x, later, he, hat, hk⟩ := hr
    exact hs.get?_eq_some.2
      ⟨_, (reached_iff rfl steps name c _).2 ⟨earlier, x, later, he, hat, rfl, plan, hk⟩, hk⟩
  · obtain ⟨k, hr, hk⟩ := hs.get?_eq_some.1 hp
    exact (hs.run further).get?_eq_some.2 ⟨k, reached_run hr hf, hk⟩
  · refine hs.outcome_renew (fun c hc => ?_) fresh
    obtain ⟨earlier, later, rfl, hr, hquiet⟩ := hq c hc
    have hcurrent : ((start ws).run earlier).IsCurrent name c := fun k hk => by
      rw [hr] at hk
      cases hk
    have hlater := hcurrent.run hquiet
    rwa [← run_append] at hlater

theorem plan_cache_ring :
    (∀ name, (Ring.setup.workspace.engine name).plans = []) ∧
    let s := (start Ring.setup.workspace).run
      [.validate "engine" (.object 0) .nothing, .plan "engine" (.declared 0), .clear "other"]
    ∀ fresh, (Operation.validate "engine" (.object 0) .nothing s.workspace).1 =
      (Operation.validate fresh (.object 0) .nothing
        (s.workspace.withEngine fresh { s.workspace.engine "engine" with plans := [] })).1 := by
  refine ⟨Ring.setup.plans_workspace,
    (plan_cache Ring.setup.plans_workspace _).2.2.2 _ _ _ fun c _ => ?_⟩
  exact ⟨[], _, rfl, rfl, trivial, trivial, trivial, trivial⟩

end Session

end Rulebook
