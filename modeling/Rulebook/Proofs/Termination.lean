import Mathlib.Logic.Function.Iterate
import Rulebook.Proofs.Inspection
import Rulebook.Proofs.Wire

/-!
# Validation ends

A validation calls others only on the values that nested rules lead to, and with one object more on
the path (`World.Calls`). The objects on the path are distinct and there are only so many, so calls
do not go on forever on any heap, however cyclic. Written as one entry that calls further ones
(`Setup.enter`), a recursion of one more entry than there are objects never gets to its bottom.

The same measure bounds the reports: every object that is entered adds at most two levels, the
property that was read and an element of its value.
-/

set_option autoImplicit false

namespace Rulebook

/-! ## Depth -/

namespace Report

mutual

/-- How many reports stand below one another, at most. -/
def depth : Report → Nat
  | mk _ _ _ none _ => 1
  | mk _ _ _ (some children) _ => depthAll children + 1

/-- The depth of the deepest report. -/
def depthAll : List Report → Nat
  | [] => 0
  | r :: rest => max (depth r) (depthAll rest)

end

theorem depthAll_le {reports : List Report} {n : Nat} :
    depthAll reports ≤ n ↔ ∀ r ∈ reports, r.depth ≤ n := by
  induction reports with
  | nil => simp [depthAll]
  | cons r rest ih => simp [depthAll, ih]

theorem depth_le {r : Report} {n : Nat} (h : ∀ children, r.children = some children →
    depthAll children ≤ n) : r.depth ≤ n + 1 := by
  obtain ⟨_, _, _, children, _⟩ := r
  cases children with
  | none => exact Nat.le_add_left 1 n
  | some children => exact Nat.succ_le_succ (h children rfl)

end Report

/-- An element of a sequence stands between its reports and those of the property. -/
theorem Finding.depth_ofReports? {name : String} {place : Option Nat} {reports : List Report}
    {x : Finding} (h : Finding.ofReports? name place reports = some x) :
    Report.depthAll x.reports ≤ Report.depthAll reports + 1 := by
  unfold ofReports? at h
  split at h
  · cases h
  · split at h <;> cases h
    · exact Nat.le_succ _
    · simp [Finding.reports, Report.depthAll, Report.depth]

theorem Question.depth_answer {w : World} {name : String} {nested : Value → Course (List Report)}
    {q : Question} {x : Finding} {n : Nat}
    (hn : ∀ v reports, (nested v).outcome = .ok reports → Report.depthAll reports ≤ n)
    (h : (q.answer w name nested).outcome = .ok (some x)) : Report.depthAll x.reports ≤ n + 1 := by
  rcases answer_eq_ok.1 h with ⟨v, reports, -, hr, hx⟩ | ⟨-, hx⟩
  · have hd := Finding.depth_ofReports? hx.symm
    exact hd.trans (Nat.succ_le_succ (hn v reports hr))
  · obtain ⟨c, -, rfl⟩ := Option.map_eq_some_iff.1 hx.symm
    exact Nat.zero_le _

theorem Findings.children_report? {f : Findings} {name : String} {location : Option String}
    {r : Report} (h : f.report? name location = some r) {children : List Report}
    (hc : r.children = some children) : children = f.children := by
  obtain ⟨-, rfl⟩ := report?_eq_some.1 h
  exact (nonempty?_eq_some_iff.1 hc).1

theorem Executor.depth_survey {w : World} {first : Bool} {nested : Value → Course (List Report)}
    {o : Value} {e : Executor} {r : Report} {n : Nat}
    (hn : ∀ v reports, (nested v).outcome = .ok reports → Report.depthAll reports ≤ n)
    (h : (e.survey w first nested o).outcome = .ok (some r)) : r.depth ≤ n + 2 := by
  obtain ⟨found, hfound, h⟩ := survey_eq_ok.1 h
  refine Report.depth_le fun children hc => ?_
  rw [Findings.children_report? h hc, Findings.children_addAll]
  refine Report.depthAll_le.2 fun r hr => ?_
  obtain ⟨x, hx, hr⟩ := List.mem_flatMap.1 (by simpa [Findings.none] using hr)
  obtain ⟨q, -, hx⟩ := Course.mem_of_gather hfound hx
  exact Report.depthAll_le.1 (Question.depth_answer hn hx) r hr

namespace World

variable {w : World} {first : Bool} {supply : Supply}

theorem depth_survey (path : List Address) (v : Value) (reports : List Report)
    (h : (w.survey first supply path v).outcome = .ok reports) :
    Report.depthAll reports ≤ 2 * (w.heap.free path).card := by
  induction path, v using enter_induction generalizing reports with
  | skip path v hs =>
    rw [survey_of_skips hs] at h
    cases h
    exact Nat.zero_le _
  | enter path a hc ha ih =>
    rw [survey_enter hc ha] at h
    obtain ⟨plan, -, h⟩ := Course.outcome_bind_eq_ok.1 h
    have hfree := Heap.card_free_cons hc ha
    refine Report.depthAll_le.2 fun r hr => ?_
    obtain ⟨e, -, hr⟩ := Course.mem_of_gather h hr
    have hd := Executor.depth_survey ih hr
    omega

/-! ## Calls -/

theorem calls_wellFounded (w : World) (supply : Supply) : WellFounded (w.Calls supply) :=
  Subrelation.wf (fun h => h.card_free_lt)
    (InvImage.wf (fun c : Value × List Address => (w.heap.free c.2).card) Nat.lt_wfRel.wf)

/-- What calls others is an object that was not being validated, and it is from then on. -/
theorem Calls.entered {c c' : Value × List Address} (h : w.Calls supply c' c) :
    ∃ a, c.1 = .object a ∧ a < w.heap.size ∧ a ∉ c.2 ∧ c'.2 = a :: c.2 := by
  obtain ⟨hc, ha, -⟩ := h
  exact ⟨_, rfl, Heap.lt_size hc, ha, rfl⟩

end World

namespace Setup

variable {s : Setup}

/-- A recursion deep enough for the objects off the path follows the survey. -/
theorem enter_iterate_follows (bottom : Value → Validation (List Report)) {supply : Supply}
    {path : List Address} {n : Nat} (h : (s.world.heap.free path).card < n) (v : Value) :
    Follows s supply path (s.enter^[n] bottom v)
      (s.world.survey s.settings.abortEarly supply path v) := by
  induction n generalizing path v with
  | zero => omega
  | succ n ih =>
    rw [Function.iterate_succ_apply']
    exact enter_follows fun c hc => ih (hc.card_free_lt.trans_le (Nat.le_of_lt_succ h)) c.1

/-- What an entry comes to depends only on the validations that it calls. -/
theorem enter_eq_validate {nested : Value → Validation (List Report)} {v : Value} {run : Run}
    (h : ∀ c, s.world.Calls (s.supply run.plans) c (v, run.path) → ∀ run' : Run,
      s.supply run'.plans = s.supply run.plans → run'.path = c.2 →
        nested c.1 run' = s.validate c.1 run') :
    s.enter nested v run = s.validate v run := by
  rw [validate_eq]
  refine enter_follows (fun c hc run' hs hp => ?_) run rfl rfl
  rw [h c hc run' hs hp]
  exact validate_follows c.1 run' hs hp

/-- Validation ends on every heap. Calls are well-founded, since each is made by an object that is
new on the path, and nothing but calls matters to what a validation comes to; so a recursion with
one entry more than there are objects comes to the same whatever is at its bottom. Reports are at
most twice as deep as there are objects. -/
theorem validation_ends (s : Setup) :
    (∀ supply, WellFounded (s.world.Calls supply)) ∧
    (∀ supply c c', s.world.Calls supply c' c →
      ∃ a, c.1 = .object a ∧ a < s.world.heap.size ∧ a ∉ c.2 ∧ c'.2 = a :: c.2) ∧
    (∀ nested v run, (∀ c, s.world.Calls (s.supply run.plans) c (v, run.path) → ∀ run' : Run,
        s.supply run'.plans = s.supply run.plans → run'.path = c.2 →
          nested c.1 run' = s.validate c.1 run') →
      s.enter nested v run = s.validate v run) ∧
    (∀ bottom v run, s.enter^[s.world.heap.size + 1] bottom v run = s.validate v run) ∧
    ∀ v run reports, (s.validate v run).1 = .ok reports →
      Report.depthAll reports ≤ 2 * s.world.heap.size := by
  refine ⟨s.world.calls_wellFounded, fun _ _ _ h => h.entered,
    fun _ _ _ h => enter_eq_validate h, fun bottom v run => ?_, fun v run reports h => ?_⟩
  · rw [validate_eq]
    exact enter_iterate_follows bottom (Nat.lt_succ_of_le (Heap.card_free_le _ _)) v run rfl rfl
  · rw [validate_eq] at h
    exact (World.depth_survey _ _ _ h).trans (Nat.mul_le_mul_left 2 (Heap.card_free_le _ _))

theorem validation_ends_ring :
    ((Ring.setup.aborting false).validate (.object 0) ⟨[], [], []⟩).1 = .ok Ring.reports ∧
      Report.depthAll Ring.reports ≤ 2 * Ring.world.heap.size ∧
      WellFounded (Ring.world.Calls (Ring.setup.supply [])) := by
  have h := validation_ends (Ring.setup.aborting false)
  exact ⟨Ring.validate_fst, h.2.2.2.2 _ _ _ Ring.validate_fst, h.1 _⟩

end Setup

end Rulebook
