import Rulebook.Engine

/-!
# Courses

The course of a validation tells what it does and what comes of it without the state it works on:
the plans it asks for, the records it adds, and its outcome. Where plans come from is a parameter
(`Supply`), so that a course knows no cache and no registry.

`Follows s supply path m t`: from every state in which classes get the plans of `supply` and the
objects of `path` are being validated, `m` has the outcome of `t` and leaves the state that the
events of `t` make of it (`Setup.replay`). The rules for it follow the ways to put validations
together.
-/

set_option autoImplicit false

namespace Rulebook

theorem Except.toOption_eq_some {ε α : Type} {x : Except ε α} {a : α} :
    x.toOption = some a ↔ x = .ok a := by
  cases x <;> simp [Except.toOption]

/-- The plan of every class, or why it has none. -/
abbrev Supply := ClassId → Except Fault Plan

/-- The plans that classes get when some have been made already. -/
def Setup.supply (s : Setup) (plans : Catalog ClassId Plan) : Supply := fun c =>
  match plans.get? c with
  | some plan => .ok plan
  | none => (s.world.compile s.strategies c (s.rules.rulesOf c)).2

/-- Something that a validation does. -/
inductive Event where
  /-- The plan of a class was asked for. -/
  | asked (c : ClassId)
  | noted (records : List Record)

/-- The classes whose plans were asked for. -/
def Event.classes (events : List Event) : List ClassId :=
  events.filterMap fun
    | asked c => some c
    | noted _ => none

@[simp] theorem Event.classes_nil : classes [] = [] := rfl

@[simp] theorem Event.classes_asked (c : ClassId) (rest : List Event) :
    classes (asked c :: rest) = c :: classes rest := rfl

@[simp] theorem Event.classes_noted (records : List Record) (rest : List Event) :
    classes (noted records :: rest) = classes rest := rfl

@[simp] theorem Event.classes_append (as bs : List Event) :
    classes (as ++ bs) = classes as ++ classes bs := List.filterMap_append

namespace Setup

/-- What an event makes of the state. -/
def apply (s : Setup) (run : Run) : Event → Run
  | .asked c =>
    match run.plans.get? c with
    | some _ => run
    | none =>
      let (records, outcome) := s.world.compile s.strategies c (s.rules.rulesOf c)
      { run with
        log := run.log ++ records
        plans := match outcome with
          | .ok plan => run.plans.put c plan
          | .error _ => run.plans }
  | .noted records => { run with log := run.log ++ records }

/-- What events make of the state, one after the other. -/
def replay (s : Setup) (run : Run) (events : List Event) : Run := events.foldl s.apply run

variable (s : Setup)

@[simp] theorem replay_nil (run : Run) : s.replay run [] = run := rfl

theorem replay_cons (run : Run) (e : Event) (rest : List Event) :
    s.replay run (e :: rest) = s.replay (s.apply run e) rest := List.foldl_cons ..

@[simp] theorem replay_append (run : Run) (as bs : List Event) :
    s.replay run (as ++ bs) = s.replay (s.replay run as) bs := List.foldl_append

theorem apply_path (run : Run) (e : Event) : (s.apply run e).path = run.path := by
  cases e with
  | asked c => simp only [apply]; split <;> rfl
  | noted records => rfl

@[simp] theorem replay_path (run : Run) (events : List Event) :
    (s.replay run events).path = run.path := by
  induction events generalizing run with
  | nil => rfl
  | cons e rest ih => exact (ih _).trans (s.apply_path run e)

theorem apply_withPath (run : Run) (path : List Address) (e : Event) :
    s.apply { run with path } e = { s.apply run e with path } := by
  cases e with
  | asked c => simp only [apply]; split <;> rfl
  | noted records => rfl

/-- Events do the same whatever objects are being validated. -/
theorem replay_withPath (run : Run) (path : List Address) (events : List Event) :
    s.replay { run with path } events = { s.replay run events with path } := by
  induction events generalizing run with
  | nil => rfl
  | cons e rest ih => exact (congrArg (s.replay · rest) (s.apply_withPath run path e)).trans (ih _)

theorem supply_put {plans : Catalog ClassId Plan} {c : ClassId} {plan : Plan}
    (h : s.supply plans c = .ok plan) : s.supply (plans.put c plan) = s.supply plans := by
  funext c'
  by_cases hc : c = c'
  · subst hc
    rw [h]
    simp [supply, Catalog.put, Catalog.get?_alter]
  · simp [supply, Catalog.put, Catalog.get?_alter, hc]

theorem supply_apply (run : Run) (e : Event) :
    s.supply (s.apply run e).plans = s.supply run.plans := by
  cases e with
  | noted records => rfl
  | asked c =>
    simp only [apply]
    split
    · rfl
    · rename_i hc
      split
      · rename_i plan hp
        exact s.supply_put (by simp only [supply, hc]; exact hp)
      · rfl

/-- Plans are kept, so no event changes what classes get. -/
@[simp] theorem supply_replay (run : Run) (events : List Event) :
    s.supply (s.replay run events).plans = s.supply run.plans := by
  induction events generalizing run with
  | nil => rfl
  | cons e rest ih => exact (ih _).trans (s.supply_apply run e)

theorem get?_apply_asked (run : Run) (c c' : ClassId) :
    (s.apply run (.asked c)).plans.get? c' =
      (run.plans.get? c').or (if c' = c then (s.supply run.plans c').toOption else none) := by
  by_cases h : c' = c
  · subst h
    simp only [apply, supply, if_true]
    cases hc : run.plans.get? c' with
    | some plan => simp [hc]
    | none =>
      cases (s.world.compile s.strategies c' (s.rules.rulesOf c')).2 <;>
        simp [Except.toOption, Catalog.put, Catalog.get?_alter, hc]
  · have h' : c ≠ c' := fun e => h e.symm
    simp only [apply, h, if_false, Option.or_none]
    split
    · rfl
    · split <;> simp [Catalog.put, Catalog.get?_alter, h']

/-- The plans after a run: those before, and those that classes got when they were asked for. -/
theorem get?_replay (run : Run) (events : List Event) (c : ClassId) :
    (s.replay run events).plans.get? c =
      (run.plans.get? c).or
        (if c ∈ Event.classes events then (s.supply run.plans c).toOption else none) := by
  induction events generalizing run with
  | nil => simp
  | cons e rest ih =>
    change (s.replay (s.apply run e) rest).plans.get? c = _
    rw [ih, supply_apply]
    cases e with
    | noted records => rfl
    | asked c' =>
      rw [get?_apply_asked, Option.or_assoc]
      by_cases hc : c = c'
      · subst hc
        cases (s.supply run.plans c).toOption <;> simp
      · simp [hc]

end Setup

/-! ## Courses -/

/-- What is done, and what comes of it. -/
@[ext] structure Course (α : Type) where
  events : List Event
  outcome : Except Fault α

namespace Course

variable {α β : Type}

instance : Monad Course where
  pure a := ⟨[], .ok a⟩
  bind t f := match t.outcome with
    | .ok a => ⟨t.events ++ (f a).events, (f a).outcome⟩
    | .error fault => ⟨t.events, .error fault⟩

/-- Adds records. -/
def note (records : List Record) : Course Unit := ⟨[.noted records], .ok ()⟩

/-- Asks for the plan of a class. -/
def plan (supply : Supply) (c : ClassId) : Course Plan := ⟨[.asked c], supply c⟩

@[simp] theorem outcome_pure (a : α) : (pure a : Course α).outcome = .ok a := rfl

@[simp] theorem outcome_note (records : List Record) : (note records).outcome = .ok () := rfl

@[simp] theorem outcome_plan (supply : Supply) (c : ClassId) :
    (plan supply c).outcome = supply c := rfl

theorem outcome_bind (t : Course α) (f : α → Course β) :
    (t >>= f).outcome = t.outcome.bind fun a => (f a).outcome := by
  obtain ⟨events, outcome⟩ := t
  cases outcome <;> rfl

theorem outcome_bind_ok {t : Course α} {f : α → Course β} {a : α} (h : t.outcome = .ok a) :
    (t >>= f).outcome = (f a).outcome := by rw [outcome_bind, h]; rfl

theorem outcome_bind_eq_ok {t : Course α} {f : α → Course β} {b : β} :
    (t >>= f).outcome = .ok b ↔ ∃ a, t.outcome = .ok a ∧ (f a).outcome = .ok b := by
  rw [outcome_bind]
  cases t.outcome <;> simp [Except.bind]

@[simp] theorem pure_bind (a : α) (f : α → Course β) : (pure a >>= f) = f a := rfl

theorem bind_assoc {γ : Type} (t : Course α) (f : α → Course β) (g : β → Course γ) :
    (t >>= f >>= g) = (t >>= fun a => f a >>= g) := by
  obtain ⟨events, outcome⟩ := t
  cases outcome with
  | error fault => rfl
  | ok a =>
    change (Course.mk (events ++ (f a).events) (f a).outcome >>= g) =
      ⟨events ++ (f a >>= g).events, (f a >>= g).outcome⟩
    generalize f a = u
    obtain ⟨events', outcome'⟩ := u
    cases outcome' with
    | error fault => rfl
    | ok b => exact Course.ext (List.append_assoc ..) rfl

@[simp] theorem bind_pure (t : Course α) : (t >>= fun a => pure a) = t := by
  obtain ⟨events, outcome⟩ := t
  cases outcome with
  | error fault => rfl
  | ok a => exact Course.ext (List.append_nil _) rfl

/-! ## Courses that get the same plans -/

/-- All classes whose plans are asked for are of a kind. -/
def AsksOnly (P : ClassId → Prop) (t : Course α) : Prop := ∀ c ∈ Event.classes t.events, P c

section
variable {P : ClassId → Prop} {t : Course α} {f f' : α → Course β}

theorem AsksOnly.left (h : (t >>= f).AsksOnly P) : t.AsksOnly P := by
  obtain ⟨events, outcome⟩ := t
  cases outcome with
  | error fault => exact h
  | ok a =>
    intro c hc
    refine h c ?_
    change c ∈ Event.classes (events ++ (f a).events)
    rw [Event.classes_append]
    exact List.mem_append_left _ hc

theorem AsksOnly.right (h : (t >>= f).AsksOnly P) {a : α} (ha : t.outcome = .ok a) :
    (f a).AsksOnly P := by
  obtain ⟨events, outcome⟩ := t
  cases ha
  intro c hc
  refine h c ?_
  change c ∈ Event.classes (events ++ (f a).events)
  rw [Event.classes_append]
  exact List.mem_append_right _ hc

theorem AsksOnly.pure (a : α) : (pure a : Course α).AsksOnly P := fun _ h => nomatch h

theorem AsksOnly.note (records : List Record) : (note records).AsksOnly P := fun _ h => nomatch h

theorem AsksOnly.bind (h : t.AsksOnly P) (hf : ∀ a, t.outcome = .ok a → (f a).AsksOnly P) :
    (t >>= f).AsksOnly P := by
  obtain ⟨events, outcome⟩ := t
  cases outcome with
  | error fault => exact h
  | ok a =>
    intro c hc
    change c ∈ Event.classes (events ++ (f a).events) at hc
    rw [Event.classes_append] at hc
    exact (List.mem_append.1 hc).elim (h c) (hf a rfl c)

theorem bind_congr (t : Course α) (h : ∀ a, t.outcome = .ok a → f' a = f a) :
    (t >>= f') = (t >>= f) := by
  obtain ⟨events, outcome⟩ := t
  cases outcome with
  | error fault => rfl
  | ok a =>
    change (⟨events ++ (f' a).events, (f' a).outcome⟩ : Course β) = ⟨_, (f a).outcome⟩
    rw [h a rfl]

end

end Course

/-! ## Following a course -/

/-- A validation follows a course (module doc). -/
def Follows {α : Type} (s : Setup) (supply : Supply) (path : List Address) (m : Validation α)
    (t : Course α) : Prop :=
  ∀ run : Run, s.supply run.plans = supply → run.path = path →
    m run = (t.outcome, s.replay run t.events)

namespace Follows

variable {α β : Type} {s : Setup} {supply : Supply} {path : List Address}

protected theorem pure (a : α) : Follows s supply path (pure a) (pure a) := fun _ _ _ => rfl

protected theorem note (records : List Record) :
    Follows s supply path (Validation.note records) (Course.note records) := fun _ _ _ => rfl

/-- The second part need only follow what comes of the first. -/
theorem bind_ok {m : Validation α} {t : Course α} {f : α → Validation β} {u : α → Course β}
    (h : Follows s supply path m t)
    (hf : ∀ a, t.outcome = .ok a → Follows s supply path (f a) (u a)) :
    Follows s supply path (m >>= f) (t >>= u) := by
  intro run hs hp
  have hm := h run hs hp
  obtain ⟨events, outcome⟩ := t
  change ExceptT.bindCont f (m run).1 (m run).2 = _
  rw [hm]
  cases outcome with
  | error fault => rfl
  | ok a =>
    change f a (s.replay run events) = ((u a).outcome, s.replay run (events ++ (u a).events))
    rw [hf a rfl _ (by rw [s.supply_replay, hs]) (by rw [s.replay_path, hp]), s.replay_append]

theorem bind {m : Validation α} {t : Course α} {f : α → Validation β} {u : α → Course β}
    (h : Follows s supply path m t) (hf : ∀ a, Follows s supply path (f a) (u a)) :
    Follows s supply path (m >>= f) (t >>= u) := h.bind_ok fun a _ => hf a

/-- The plan of a class is the one supplied. -/
theorem planOf (c : ClassId) : Follows s supply path (s.planOf c) (Course.plan supply c) := by
  rintro run rfl -
  change (match run.plans.get? c with
    | some plan => (pure plan : Validation Plan)
    | none => _) run = (s.supply run.plans c, s.apply run (.asked c))
  cases hc : run.plans.get? c with
  | some plan => simp only [Setup.supply, Setup.apply, hc]; rfl
  | none =>
    simp only [Setup.supply, Setup.apply, hc]
    cases s.world.compile s.strategies c (s.rules.rulesOf c) with
    | mk records outcome => cases outcome <;> rfl

/-- An object that is put on the path is taken away again. -/
theorem within {m : Validation α} {t : Course α} {a : Address}
    (h : Follows s supply (a :: path) m t) :
    Follows s supply path (Validation.within a m) t := by
  rintro run hs rfl
  have hm := h { run with path := a :: run.path } hs rfl
  change (match m { run with path := a :: run.path } with
    | (outcome, run) => (outcome, { run with path := run.path.erase a })) = _
  rw [hm, s.replay_withPath]
  simp only [List.erase_cons_head]
  rw [← s.replay_withPath]

end Follows

end Rulebook
