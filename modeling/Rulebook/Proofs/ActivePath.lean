import Rulebook.Proofs.Inspection

/-!
# The objects that are being validated

A validation that goes down into nested values puts the objects it is in on one path, shared by all
its calls (`Run.path`), and takes each away again however the call on it ends. So every call leaves
the path as it found it, and whenever an executor runs the path holds the objects of the calls under
way, each of them once (`Setup.path_restored`).

What the path is at such a moment is told by a look: `Setup.inspectWatched` validates as
`Setup.inspect` does, hands the objects of the calls under way down from call to call, and looks at
the state whenever an executor is about to run or to call a nested validation. A look that would do
something if ever the path was not the one handed down is never noticed.
-/

set_option autoImplicit false

namespace Rulebook

/-! ## Looks -/

/-- Something done when an executor runs, given the objects of the calls under way, innermost
first. -/
abbrev Look := List Address → Executor → Validation Unit

/-- The look does nothing as long as the objects being validated are those of the calls under way,
each of them once, on top of those of `base`. -/
def Look.IsIdle (look : Look) (base : List Address) : Prop :=
  ∀ chain e (run : Run), run.path = chain ++ base → chain.Nodup → chain.Disjoint base →
    look chain e run = (.ok (), run)

/-- Validates properties as `executeAll` does, with a look at the state before each executor and
before each nested validation that it calls. -/
def Executor.executeAllWatched (s : Setup) (look : Executor → Validation Unit)
    (inspect : Value → Validation (List Report)) (instanceValue : Value) :
    List Executor → Validation (List Report)
  | [] => return []
  | e :: rest => do
    look e
    match ← e.execute s (fun v => do look e; inspect v) instanceValue with
    | none => executeAllWatched s look inspect instanceValue rest
    | some report =>
      if s.settings.abortEarly then return [report]
      else return report :: (← executeAllWatched s look inspect instanceValue rest)

namespace Setup

/-- Validates as `inspect` does, with looks at the state. The calls under way are on the objects of
`chain`. -/
def inspectWatched (s : Setup) (look : Look) :
    (room : Nat) → (chain : List Address) → Value → Validation (List Report)
  | 0, _, _ => return []
  | room + 1, chain, v =>
    s.enterWith (fun a =>
      Executor.executeAllWatched s (look (a :: chain)) (s.inspectWatched look room (a :: chain))
        (.object a)) v

end Setup

/-! ## Looks that are never noticed -/

variable {s : Setup} {supply : Supply} {path : List Address}

theorem Executor.executeAllWatched_follows {look : Executor → Validation Unit}
    {inspect : Value → Validation (List Report)} {t : Value → Course (List Report)} (o : Value)
    (hlook : ∀ e, Follows s supply path (look e) (pure ()))
    (h : ∀ v, Follows s supply path (inspect v) (t v)) (es : List Executor) :
    Follows s supply path (executeAllWatched s look inspect o es)
      (Course.gather s.settings.abortEarly (survey s.world s.settings.abortEarly t o) es) := by
  induction es with
  | nil => exact .pure _
  | cons e rest ih =>
    have hnested : FollowsOn s supply path (fun v => do look e; inspect v) t
        (e.questions s.world o) := fun _ _ v _ => (hlook e).bind fun _ => h v
    refine (hlook e).bind (u := fun _ => Course.gather _ _ (e :: rest)) fun _ =>
      (execute_follows o e hnested).bind fun report => ?_
    cases report with
    | none => exact ih
    | some report =>
      dsimp only
      split
      · exact .pure _
      · exact ih.bind fun _ => .pure _

namespace Setup

section
variable {body : Address → List Executor → Validation (List Report)}

theorem enterWith_passes {v : Value} (h : s.world.Skips path v) :
    Follows s supply path (s.enterWith body v) (pure []) := by
  rintro run - rfl
  exact enterWith_of_skips h

/-- An object that is entered is on the path for as long as its executors run. -/
theorem enterWith_follows {a : Address} {u : List Executor → Course (List Report)}
    (hc : s.world.heap.isComposite (.object a) = true) (ha : a ∉ path)
    (h : ∀ es, Follows s supply (a :: path) (body a es) (u es)) :
    Follows s supply path (s.enterWith body (.object a)) (do
      let plan ← Course.plan supply (s.world.classOf (.object a))
      if plan.executors.isEmpty then pure [] else u plan.executors) := by
  rintro run hs rfl
  rw [enterWith_object, if_pos ⟨hc, ha⟩]
  refine Follows.bind (.planOf _) (fun plan => ?_) run hs rfl
  split
  · exact .pure _
  · exact (h plan.executors).within

end

/-- With an idle look or without any, a call follows one and the same course. -/
theorem exists_course {look : Look} {base : List Address} (hlook : look.IsIdle base) (room : Nat)
    {chain : List Address} (hnodup : chain.Nodup) (hoff : chain.Disjoint base) (v : Value) :
    ∃ t, Follows s supply (chain ++ base) (s.inspect room v) t ∧
      Follows s supply (chain ++ base) (s.inspectWatched look room chain v) t := by
  induction room generalizing chain v with
  | zero => exact ⟨pure [], .pure _, .pure _⟩
  | succ room ih =>
    rw [inspect, enter_eq_enterWith]
    by_cases hskip : s.world.Skips (chain ++ base) v
    · exact ⟨pure [], enterWith_passes hskip, enterWith_passes hskip⟩
    obtain ⟨a, rfl, hc, ha⟩ := World.enters_of_not_skips hskip
    -- the object entered is new, both among those of the calls and among those of the base
    obtain ⟨hnew, hout⟩ := not_or.1 (mt List.mem_append.2 ha)
    have hnodup' : (a :: chain).Nodup := List.nodup_cons.2 ⟨hnew, hnodup⟩
    have hoff' : (a :: chain).Disjoint base := List.disjoint_cons_left.2 ⟨hout, hoff⟩
    have hidle (e : Executor) :
        Follows s supply (a :: chain ++ base) (look (a :: chain) e) (pure ()) :=
      fun run _ hp => hlook (a :: chain) e run hp hnodup' hoff'
    choose t hplain hwatched using fun v => ih hnodup' hoff' v
    exact ⟨_,
      enterWith_follows hc ha fun es =>
        Executor.executeAll_follows (.object a) es fun _ _ _ _ v _ => hplain v,
      enterWith_follows hc ha fun es =>
        Executor.executeAllWatched_follows (.object a) hidle hwatched es⟩

/-- Every call leaves the objects that are being validated as it found them, however it ends. And
whenever an executor runs, they are the objects of the calls under way, each of them once, on top of
those there were at the beginning: what a look does in any other state is never done. -/
theorem path_restored (s : Setup) :
    (∀ room v run, (s.inspect room v run).2.path = run.path) ∧
    ∀ (look : Look) room v run, look.IsIdle run.path →
      s.inspectWatched look room [] v run = s.inspect room v run := by
  refine ⟨fun room v run => ?_, fun look room v run hlook => ?_⟩
  · have hidle : Look.IsIdle (fun _ _ => pure ()) run.path := fun _ _ _ _ _ _ => rfl
    obtain ⟨t, ht, -⟩ := @exists_course s (s.supply run.plans) _ _ hidle room _ .nil
      (List.disjoint_nil_left _) v
    rw [ht run rfl rfl]
    exact s.replay_path run t.events
  · obtain ⟨t, hplain, hwatched⟩ := @exists_course s (s.supply run.plans) _ _ hlook room _ .nil
      (List.disjoint_nil_left _) v
    rw [hplain run rfl rfl, hwatched run rfl rfl]

end Setup

namespace Ring

/-- Fails unless the objects being validated are those of the calls under way. -/
def sentinel : Look := fun chain _ => do
  if (← get).path = chain then return () else throw .tooDeep

theorem sentinel_isIdle : sentinel.IsIdle [] := by
  intro chain e run hp _ _
  rw [List.append_nil] at hp
  change (if run.path = chain then (pure () : Validation Unit) else throw .tooDeep) run = _
  rw [if_pos hp]
  rfl

end Ring

theorem Setup.path_restored_ring :
    Ring.sentinel.IsIdle [] ∧
      ((Ring.setup.aborting false).inspectWatched Ring.sentinel 2 [] (.object 0) ⟨[], [], []⟩).1 =
        .ok Ring.reports ∧
      ((Ring.setup.aborting false).inspect 2 (.object 0) ⟨[], [], []⟩).2.path = [] := by
  obtain ⟨hpath, hlook⟩ := path_restored (Ring.setup.aborting false)
  refine ⟨Ring.sentinel_isIdle, ?_, hpath _ _ _⟩
  rw [hlook Ring.sentinel 2 (.object 0) ⟨[], [], []⟩ Ring.sentinel_isIdle]
  exact Ring.validate_fst

/-- Looks are taken down in the ring too: here one that fails when both nodes are being validated,
the second one from within the first. -/
example :
    (Ring.setup.inspectWatched
        (fun chain e => if chain = [1, 0] then throw (.refused e.name) else pure ())
        2 [] (.object 0) ⟨[], [], []⟩).1 = .error (.refused "next") := by
  with_unfolding_all rfl

end Rulebook
