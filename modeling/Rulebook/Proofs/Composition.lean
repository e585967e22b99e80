import Rulebook.Proofs.Reach
import Rulebook.Proofs.Termination

/-!
# Nested validation is compositional

The objects on the path matter to a validation only so far as they lie below the value
(`Setup.validate_onPath`). On an acyclic graph they never do: a validation calls others with a path
of objects that lie above (`World.Calls.apart`), so each comes to what it would come to alone, and
the test of the path could be left out altogether (`Setup.enterFreely`).
-/

set_option autoImplicit false

namespace Rulebook

open Relation (ReflTransGen TransGen)

/-- Runs a part as if exactly the objects of `path` were being validated. -/
def Validation.onPath {α : Type} (path : List Address) (body : Validation α) : Validation α :=
  ExceptT.mk do
    let before := (← get).path
    modify fun run => { run with path }
    let outcome ← body.run
    modify fun run => { run with path := before }
    return outcome

theorem Validation.onPath_apply {α : Type} (path : List Address) (body : Validation α) (run : Run) :
    onPath path body run =
      ((body { run with path }).1, { (body { run with path }).2 with path := run.path }) := rfl

theorem Validation.map_apply {α β : Type} (g : α → β) (m : Validation α) (run : Run) :
    (g <$> m) run = ((m run).1.map g, (m run).2) := by
  rw [← bind_pure_comp]
  change ExceptT.bindCont (fun a => (pure (g a) : Validation β)) (m run).1 (m run).2 = _
  cases (m run).1 <;> rfl

theorem Findings.addChildren_nil (f : Findings) : f.addChildren [] = f := by
  simp [addChildren]

theorem Run.withPath_eq_self {run : Run} {path : List Address} (h : run.path = path) :
    { run with path } = run := by
  subst h
  rfl

/-! ## Objects apart -/

namespace World

/-- Nested rules never lead from a value below `root` back to it. -/
def Acyclic (w : World) (supply : Supply) (root : Value) : Prop :=
  ∀ o, w.Below supply root o → ¬TransGen (w.Nested supply) o o

/-- No object on the path lies below the value. -/
def Apart (w : World) (supply : Supply) (c : Value × List Address) : Prop :=
  ∀ a ∈ c.2, ¬w.Below supply c.1 (.object a)

variable {w : World} {supply : Supply}

theorem Acyclic.nested {o v : Value} (h : w.Acyclic supply o) (hn : w.Nested supply o v) :
    w.Acyclic supply v := fun x hx => h x (.head hn hx)

/-- A validation puts its object on the path, and that does not lie below what it leads to. -/
theorem Calls.apart {c c' : Value × List Address} (h : w.Calls supply c' c)
    (hacyclic : w.Acyclic supply c.1) (hc : w.Apart supply c) : w.Apart supply c' := by
  have hn := h.nested
  obtain ⟨a, ha, -, -, hpath⟩ := h.entered
  intro b hb hbelow
  rw [hpath] at hb
  rcases List.mem_cons.1 hb with rfl | hb
  · rw [← ha] at hbelow
    exact hacyclic c.1 .refl (TransGen.head' hn hbelow)
  · exact hc b hb (.head hn hbelow)

theorem apart_of_calls {c c' : Value × List Address}
    (h : ReflTransGen (flip (w.Calls supply)) c c') (hacyclic : w.Acyclic supply c.1)
    (hc : w.Apart supply c) : w.Acyclic supply c'.1 ∧ w.Apart supply c' := by
  induction h with
  | refl => exact ⟨hacyclic, hc⟩
  | tail _ hcall ih => exact ⟨ih.1.nested (Calls.nested hcall), Calls.apart hcall ih.1 ih.2⟩

end World

/-! ## Validation without a path -/

namespace Setup

/-- What entering an object would do if it did not matter which objects are being validated. -/
def enterFreely (s : Setup) (nested : Value → Validation (List Report)) :
    Value → Validation (List Report)
  | .object a => do
    if !s.world.heap.isComposite (.object a) then return []
    let plan ← s.planOf (s.world.classOf (.object a))
    Executor.executeAll s nested (.object a) plan.executors
  | _ => return []

variable {s : Setup} {supply : Supply} {path path₀ : List Address} {v : Value}
  {inspect : Value → Validation (List Report)}

theorem enterFreely_of_not_composite (h : s.world.heap.isComposite v = false) :
    s.enterFreely inspect v = pure [] := by
  cases v with
  | object a => simp only [enterFreely, h]; rfl
  | _ => rfl

theorem enterFreely_of_composite {a : Address}
    (h : s.world.heap.isComposite (.object a) = true) :
    s.enterFreely inspect (.object a) = (do
      let plan ← s.planOf (s.world.classOf (.object a))
      Executor.executeAll s inspect (.object a) plan.executors) := by
  simp only [enterFreely, h]
  rfl

/-- Where no object on the path is come to again, nothing is passed over. -/
theorem enterFreely_follows (hv : s.world.Apart supply (v, path))
    (h : ∀ c, s.world.Calls supply c (v, path) → Follows s supply path₀ (inspect c.1)
      (s.world.survey s.settings.abortEarly supply c.2 c.1)) :
    Follows s supply path₀ (s.enterFreely inspect v)
      (s.world.survey s.settings.abortEarly supply path v) := by
  cases hc : s.world.heap.isComposite v with
  | false =>
    rw [enterFreely_of_not_composite hc, World.survey_of_skips (.inl hc)]
    exact .pure []
  | true =>
    obtain ⟨a, rfl⟩ := Heap.eq_object hc
    have ha : a ∉ path := fun ha => hv a ha .refl
    rw [enterFreely_of_composite hc, World.survey_enter hc ha]
    refine .bind_ok (.planOf _) fun plan hplan => ?_
    exact Executor.executeAll_follows _ _ fun e he q hq x hx =>
      h (x, a :: path) (.intro hc ha hplan he hq hx)

/-- A recursion deep enough for the objects off the path. The path is that of the survey: the
recursion itself neither reads nor changes the one in the state. -/
theorem enterFreely_iterate_follows (bottom : Value → Validation (List Report)) {n : Nat}
    (hacyclic : s.world.Acyclic supply v) (hv : s.world.Apart supply (v, path))
    (hn : (s.world.heap.free path).card < n) :
    Follows s supply path₀ (s.enterFreely^[n] bottom v)
      (s.world.survey s.settings.abortEarly supply path v) := by
  induction n generalizing path v with
  | zero => omega
  | succ n ih =>
    rw [Function.iterate_succ_apply']
    refine enterFreely_follows hv fun c hc => ?_
    have hfree : (s.world.heap.free c.2).card < n :=
      hc.card_free_lt.trans_le (Nat.le_of_lt_succ hn)
    exact ih (hacyclic.nested hc.nested) (hc.apart hacyclic hv) hfree

/-- Paths that hold the same of the objects below a value make no difference to its validation. -/
theorem validate_onPath {run : Run}
    (h : ∀ a, s.world.Below (s.supply run.plans) v (.object a) → (a ∈ path ↔ a ∈ run.path)) :
    Validation.onPath path (s.validate v) run = s.validate v run := by
  have hsurvey : s.world.survey s.settings.abortEarly (s.supply run.plans) path v =
      s.world.survey s.settings.abortEarly (s.supply run.plans) run.path v :=
    World.survey_congr_path h
  have hpath := s.validate_eq v { run with path }
  dsimp only at hpath
  rw [hsurvey, s.replay_withPath] at hpath
  rw [Validation.onPath_apply, hpath, s.validate_eq]
  exact Prod.ext rfl (Run.withPath_eq_self (s.replay_path run _))

/-- Validating a value alone. -/
theorem validate_alone {run : Run} (h : s.world.Apart (s.supply run.plans) (v, run.path)) :
    Validation.onPath [] (s.validate v) run = s.validate v run :=
  validate_onPath fun a ha =>
    ⟨fun hm => absurd hm List.not_mem_nil, fun hm => absurd ha (h a hm)⟩

/-- A nested rule for a whole value adds the reports on it, if there are any. -/
theorem take_nested (name : String) (v : Value) (f : Findings) :
    Action.take s name s.validate v (.nested false) f = f.addChildren <$> s.validate v := by
  have hadd (reports : List Report) :
      (if reports.isEmpty then f else f.addChildren reports) = f.addChildren reports := by
    cases reports with
    | nil => exact f.addChildren_nil.symm
    | cons r rest => rfl
  change Action.visit s s.validate v f = _
  unfold Action.visit
  cases hc : s.world.heap.isComposite v with
  | true => simp only [hadd, if_true, bind_pure_comp]
  | false =>
    funext run
    rw [Validation.map_apply, validate_eq, World.survey_of_skips (.inl hc)]
    exact Prod.ext (congrArg Except.ok f.addChildren_nil.symm) rfl

/-- A validation does not depend on where it stands. Objects that do not lie below the value may be
on the path or not; a nested rule for a value that leads to no object on the path adds exactly the
reports of the value validated alone. If nested rules never lead back to an object, then validating
without a look at the path comes to the same, so that every object is validated wherever it is come
to, as if it were held there only. -/
theorem validate_compositional (s : Setup) :
    s.enter s.validate = s.validate ∧
    (∀ v run (path added : List Address),
      (∀ a ∈ added, ¬s.world.Below (s.supply run.plans) v (.object a)) →
      (∀ a, a ∈ path ↔ a ∈ run.path ∨ a ∈ added) →
        Validation.onPath path (s.validate v) run = s.validate v run) ∧
    (∀ name v f run, s.world.Apart (s.supply run.plans) (v, run.path) →
      Action.take s name s.validate v (.nested false) f run =
        (f.addChildren <$> Validation.onPath [] (s.validate v)) run) ∧
    ∀ root run, s.world.Acyclic (s.supply run.plans) root →
      s.world.Apart (s.supply run.plans) (root, run.path) →
        (∀ bottom n, s.world.heap.size < n →
          s.enterFreely^[n] bottom root run = s.validate root run) ∧
        ∀ c, ReflTransGen (flip (s.world.Calls (s.supply run.plans))) (root, run.path) c →
          ∀ run' : Run, s.supply run'.plans = s.supply run.plans → run'.path = c.2 →
            Validation.onPath [] (s.validate c.1) run' = s.validate c.1 run' := by
  refine ⟨?_, fun v run path added hadded hpath => ?_, fun name v f run hv => ?_,
    fun root run hacyclic hroot => ⟨fun bottom n hn => ?_, fun c hc run' hs hp => ?_⟩⟩
  · funext v run
    exact enter_eq_validate fun _ _ _ _ _ => rfl
  · refine validate_onPath fun a ha => (hpath a).trans ⟨fun hm => ?_, .inl⟩
    exact hm.resolve_right fun hm => hadded a hm ha
  · rw [take_nested, Validation.map_apply, Validation.map_apply, validate_alone hv]
  · rw [s.validate_eq]
    have hfree := (Heap.card_free_le s.world.heap run.path).trans_lt hn
    exact enterFreely_iterate_follows bottom hacyclic hroot hfree run rfl rfl
  · have hapart := (World.apart_of_calls hc hacyclic hroot).2
    exact validate_alone (by rw [hs, hp]; exact hapart)

end Setup

/-! ## A diamond

A node that holds another one twice.
-/

namespace Diamond

def world : World where
  classes := Ring.world.classes
  calls _ _ := none
  modules := []
  heap := #[⟨.declared 0, .bare, [(.ofText "left", (.text "left", .object 1)),
    (.ofText "right", (.text "right", .object 1))], []⟩,
    ⟨.declared 0, .bare, [(.ofText "label", (.text "label", .int 1))], []⟩]

def setup : Setup where
  world := world
  rules := (Registry.empty "rules").addAll
    [Ring.rule "left" "ValidateNested", Ring.rule "right" "ValidateNested",
      Ring.rule "label" "IsString"]
  strategies := .initial "strategies" true
  settings := ⟨false, false⟩

theorem leads_top : world.leads (setup.supply []) (.object 0) = [.object 1, .object 1] := by
  with_unfolding_all rfl

theorem leads_shared : world.leads (setup.supply []) (.object 1) = [] := by
  with_unfolding_all rfl

theorem nested_iff {o v : Value} :
    world.Nested (setup.supply []) o v ↔ o = .object 0 ∧ v = .object 1 := by
  constructor
  · intro h
    have hc : world.heap.isComposite o = true := by obtain ⟨hc, -⟩ := h; exact hc
    rw [World.nested_iff_mem_leads] at h
    obtain ⟨a, rfl⟩ := Heap.eq_object hc
    match a, Heap.lt_size hc with
    | 0, _ =>
      rw [leads_top] at h
      exact ⟨rfl, by simpa using h⟩
    | 1, _ =>
      rw [leads_shared] at h
      cases h
  · rintro ⟨rfl, rfl⟩
    rw [World.nested_iff_mem_leads, leads_top]
    exact .head _

theorem acyclic (o : Value) : world.Acyclic (setup.supply []) o := by
  intro x _ hx
  obtain ⟨y, hxy, -⟩ := TransGen.head'_iff.1 hx
  obtain ⟨z, -, hzx⟩ := TransGen.tail'_iff.1 hx
  have h := (nested_iff.1 hxy).1.symm.trans (nested_iff.1 hzx).2
  cases h

theorem apart : world.Apart (setup.supply []) (.object 1, [0]) := by
  intro a ha hbelow
  rw [List.mem_singleton.1 ha] at hbelow
  obtain h | ⟨x, hx, -⟩ := hbelow.cases_head
  · cases h
  · cases (nested_iff.1 hx).1

def reports : List Report :=
  [.mk "left" none none (some [Ring.labelReport]) none,
    .mk "right" none none (some [Ring.labelReport]) none, Ring.labelReport]

theorem validate_fst : (setup.validate (.object 0) ⟨[], [], []⟩).1 = .ok reports := by
  with_unfolding_all rfl

end Diamond

/-- The node that is held twice is reported on in both places, with or without a look at the path,
and as if it were held in one. -/
theorem Setup.validate_compositional_diamond :
    Diamond.world.Acyclic (Diamond.setup.supply []) (.object 0) ∧
    Diamond.world.Apart (Diamond.setup.supply []) (.object 0, []) ∧
    (Diamond.setup.enterFreely^[3] (fun _ => pure []) (.object 0) ⟨[], [], []⟩).1 =
      .ok Diamond.reports ∧
    Diamond.world.Calls (Diamond.setup.supply []) (.object 1, [0]) (.object 0, []) ∧
    Validation.onPath [] (Diamond.setup.validate (.object 1)) ⟨[], [0], []⟩ =
      Diamond.setup.validate (.object 1) ⟨[], [0], []⟩ ∧
    Validation.onPath [0] (Diamond.setup.validate (.object 1)) ⟨[], [], []⟩ =
      Diamond.setup.validate (.object 1) ⟨[], [], []⟩ := by
  have hroot : Diamond.world.Apart (Diamond.setup.supply []) (.object 0, []) :=
    fun a ha => absurd ha List.not_mem_nil
  have hcall : Diamond.world.Calls (Diamond.setup.supply []) (.object 1, [0]) (.object 0, []) :=
    (Diamond.nested_iff.2 ⟨rfl, rfl⟩).calls List.not_mem_nil
  obtain ⟨-, honPath, -, hacyclic⟩ := validate_compositional Diamond.setup
  obtain ⟨hfree, halone⟩ := hacyclic (.object 0) ⟨[], [], []⟩ (Diamond.acyclic _) hroot
  refine ⟨Diamond.acyclic _, hroot, ?_, hcall, ?_, ?_⟩
  · rw [hfree _ 3 (by decide), Diamond.validate_fst]
  · exact halone _ (.single hcall) ⟨[], [0], []⟩ rfl rfl
  · exact honPath (.object 1) ⟨[], [], []⟩ [0] [0] Diamond.apart fun a => by simp

end Rulebook
