import Rulebook.Proofs.FullRun

/-!
# Stopping at the first failure

A validation that stops early is the full one cut down to its first failure. Stopping is built into
four loops, which are all the one loop of the survey (`Course.gather`); so both runs are compared
with the list of trails at once, one head at a time (`Course.Heads`): the report of the early run is
a chain that leads to one message (`Report.IsChain`), the full report on the same property holds that
message too, and its trail is the first in the list.
-/

set_option autoImplicit false

namespace Rulebook

open Course (Heads)

namespace Report

/-- Nothing but one message, with the report that holds it at the end of a chain. -/
inductive IsChain : Report → Remark → Prop
  | leaf (property : String) (location : Option String) (ruleType : String) (text : Value)
      (index : Option Int) :
      IsChain (.mk property location (some [(ruleType, [text])]) none index)
        ⟨[(property, index)], ruleType, text⟩
  | link {child : Report} {m : Remark} (property : String) (location : Option String)
      (index : Option Int) : IsChain child m →
      IsChain (.mk property location none (some [child]) index) (m.under [(property, index)])

theorem IsChain.remarks_eq {r : Report} {m : Remark} (h : r.IsChain m) : r.remarks = [m] := by
  induction h with
  | leaf => rfl
  | link _ _ _ _ ih => simp [remarks, remarksAll, Failures.remarks, ih]

/-- `short` is what is left of `full` when all but the message `m` goes. -/
structure CutTo (m : Remark) (full short : Report) : Prop where
  property : short.property = full.property
  location : short.location = full.location
  isChain : short.IsChain m
  mem : m ∈ full.remarks

end Report

namespace Finding

/-- An answer that amounts to one message. -/
inductive IsChain (name : String) : Finding → Remark → Prop
  | message (ruleType : String) (text : Value) :
      IsChain name (.message ruleType text) ⟨[(name, none)], ruleType, text⟩
  | nested {r : Report} {m : Remark} (h : [r] ≠ []) :
      r.IsChain m → IsChain name (.nested [r] h) (m.under [(name, none)])

/-- `short` is what is left of `full` when all but the message `m` goes. -/
structure CutTo (name : String) (m : Remark) (full short : Finding) : Prop where
  isChain : short.IsChain name m
  mem : m ∈ full.remarks name

theorem IsChain.report? {name : String} {x : Finding} {m : Remark} (h : x.IsChain name m)
    (location : Option String) :
    ∃ r, (Findings.none.add x).report? name location = some r ∧ r.property = name ∧
      r.location = location ∧ r.IsChain m := by
  cases h with
  | message ruleType text => exact ⟨_, rfl, rfl, rfl, .leaf name location ruleType text none⟩
  | nested _ h => exact ⟨_, rfl, rfl, rfl, .link name location none h⟩

end Finding

/-- Reports are made for what was found, under the name and with the location of the property. -/
theorem Findings.report?_addAll_cons (x : Finding) (found : List Finding) (name : String)
    (location : Option String) :
    ∃ r, (none.addAll (x :: found)).report? name location = some r ∧ r.property = name ∧
      r.location = location := by
  have h : (none.addAll (x :: found)).isClear = false := isClear_addAll _ rfl
  exact ⟨_, report?_eq_some.2 ⟨h, rfl⟩, rfl, rfl⟩

/-! ## The two runs side by side -/

variable {w : World} {nested nested' : Value → Course (List Report)}
  {below : Value → List (Trail × Remark)}

/-- The full run, the one that stops early and the trails agree about the first failure. -/
def Agree (nested nested' : Value → Course (List Report)) (below : Value → List (Trail × Remark)) :
    Prop :=
  ∀ v reports, (nested v).outcome = .ok reports →
    ∃ reports', (nested' v).outcome = .ok reports' ∧
      Heads (fun r r' x => Report.CutTo x.2 r r') reports reports' (below v)

theorem Finding.cutTo_ofReports? {name : String} {q : Question} {reports reports' : List Report}
    {trails : List (Trail × Remark)} (p : Place)
    (h : Heads (fun r r' x => Report.CutTo x.2 r r') reports reports' trails) :
    Heads (fun x x' y => CutTo name y.2 x x') (ofReports? name q.place reports).toList
      (ofReports? name q.place reports').toList
      (trails.map fun (t, m) => (t.after p, m.under (q.labels name))) := by
  cases h with
  | nil => exact .nil
  | @cons r rest r' x others h =>
    have hmem : x.2.under (q.labels name) ∈
        (ofReports? name q.place (r :: rest)).toList.flatMap (·.remarks name) := by
      rw [Finding.remarks_ofReports?, Report.remarksAll]
      exact List.mem_map_of_mem (List.mem_append_left _ h.mem)
    unfold Question.labels at hmem ⊢
    cases hq : q.place with
    | none =>
      simp only [hq] at hmem
      refine .cons ⟨.nested _ h.isChain, ?_⟩
      simpa [ofReports?] using hmem
    | some i =>
      simp only [hq] at hmem
      refine .cons ⟨.nested _ (.link (elementName name i) none (some i) h.isChain), ?_⟩
      simpa [ofReports?] using hmem

theorem Question.agree_answer {name : String} {q : Question} (h : Agree nested nested' below)
    (p : Place) {o : Option Finding} (ho : (q.answer w name nested).outcome = .ok o) :
    ∃ o', (q.answer w name nested').outcome = .ok o' ∧
      Heads (fun x x' y => Finding.CutTo name y.2 x x') o.toList o'.toList
        (q.trails w name below p) := by
  rcases answer_eq_ok.1 ho with ⟨v, reports, ht, hr, rfl⟩ | ⟨ht, rfl⟩
  · obtain ⟨reports', hr', hheads⟩ := h v reports hr
    rw [trails_of_target ht]
    exact ⟨_, answer_eq_ok.2 (.inl ⟨v, reports', ht, hr', rfl⟩), Finding.cutTo_ofReports? p hheads⟩
  · rw [trails_of_no_target ht]
    refine ⟨_, answer_eq_ok.2 (.inr ⟨ht, rfl⟩), ?_⟩
    cases q.complaint? w name with
    | none => exact .nil
    | some c => exact .cons ⟨.message c.1 c.2, .head _⟩

theorem Executor.agree_survey {o : Value} {e : Executor} (h : Agree nested nested' below) (i : Nat)
    {r : Option Report} (hr : (e.survey w false nested o).outcome = .ok r) :
    ∃ r', (e.survey w true nested' o).outcome = .ok r' ∧
      Heads (fun r r' x => Report.CutTo x.2 r r') r.toList r'.toList (e.trails w below o i) := by
  obtain ⟨found, hfound, rfl⟩ := survey_eq_ok.1 hr
  rw [Course.gather_zipIdx] at hfound
  obtain ⟨found', hfound', hheads⟩ := Course.gather_heads hfound
    fun x _ o ho => Question.agree_answer h (.of i x.2) ho
  rw [← Course.gather_zipIdx] at hfound'
  refine ⟨_, survey_eq_ok.2 ⟨found', hfound', rfl⟩, ?_⟩
  change Heads _ _ _ ((e.questions w o).zipIdx.flatMap _)
  generalize (e.questions w o).zipIdx.flatMap _ = trails at hheads ⊢
  cases hheads with
  | nil => exact .nil
  | @cons x rest x' y others h =>
    obtain ⟨r, hr, hname, hloc⟩ := Findings.report?_addAll_cons x rest e.name e.location
    obtain ⟨r', hr', hname', hloc', hchain⟩ := h.isChain.report? e.location
    have hremarks := @Findings.remarks_report? e.name (.addAll .none (x :: rest)) e.location
    have hmem : y.2 ∈ r.remarks := by
      simp only [hr, Option.toList_some, List.flatMap_singleton] at hremarks
      rw [hremarks, (Findings.remarks_addAll _ _).mem_iff, List.flatMap_cons]
      exact List.mem_append_right _ (List.mem_append_left _ h.mem)
    rw [hr, Findings.addAll_cons, Findings.addAll_nil, hr']
    exact .cons ⟨by rw [hname, hname'], by rw [hloc, hloc'], hchain, hmem⟩

namespace World

variable {supply : Supply}

theorem agree_survey (path : List Address) :
    Agree (w.survey false supply path) (w.survey true supply path) (w.trails supply path) := by
  intro v
  induction path, v using enter_induction with
  | skip path v hs =>
    intro reports h
    rw [survey_of_skips hs] at h ⊢
    cases h
    rw [trails_of_skips hs]
    exact ⟨[], rfl, .nil⟩
  | enter path a hc ha ih =>
    intro reports h
    rw [survey_enter hc ha] at h ⊢
    obtain ⟨plan, hplan, h⟩ := Course.outcome_bind_eq_ok.1 h
    rw [Course.outcome_bind_ok hplan, trails_enter hc ha hplan]
    rw [Course.gather_zipIdx] at h ⊢
    exact Course.gather_heads h fun x _ r hr => Executor.agree_survey ih x.2 hr

end World

/-- A run that stops early reports nothing if and only if the full run does. Otherwise it reports
what the full run says first, on the same property and from the same location, but cut down to one
message, which the full report holds as well, under the same labels and rule type. It is the message
whose trail comes before all others: that of the first failing action of the first property, at the
first failing element. The early run may start with the same plans, or with those that the full run
has left. -/
theorem Setup.validate_aborting (s : Setup) (plans : Catalog ClassId Plan) (log log' : List Record)
    (root : Value) (full : List Report) (run : Run)
    (hfull : (s.aborting false).validate root ⟨plans, [], log⟩ = (.ok full, run))
    (known : Catalog ClassId Plan) (hknown : known = plans ∨ known = run.plans) :
    ∃ short run', (s.aborting true).validate root ⟨known, [], log'⟩ = (.ok short, run') ∧
      (short = [] ↔ full = []) ∧
      ∀ r rest, full = r :: rest → ∃ r' t m, short = [r'] ∧ Report.CutTo m r r' ∧
        r'.remarks = [m] ∧ r'.messages = [m.text] ∧ m.text ∈ r.messages ∧
        s.world.Uncovers (s.supply plans) [] root t m ∧
        ∀ t' m', s.world.Uncovers (s.supply plans) [] root t' m' →
          t' = t ∨ t.places < t'.places := by
  have hv := (s.aborting false).validate_eq root ⟨plans, [], log⟩
  obtain ⟨hout, hrun⟩ := Prod.mk.inj (hfull.symm.trans hv)
  have hout : (s.world.survey false (s.supply plans) [] root).outcome = .ok full := hout.symm
  have hsupply : (s.aborting true).supply known = s.supply plans := by
    rcases hknown with rfl | rfl
    · rfl
    · rw [hrun]
      exact (s.aborting false).supply_replay ⟨plans, [], log⟩ _
  obtain ⟨short, hshort, hheads⟩ := World.agree_survey [] root full hout
  have hv' := (s.aborting true).validate_eq root ⟨known, [], log'⟩
  rw [hsupply] at hv'
  refine ⟨short, _, hv'.trans (Prod.ext hshort rfl), ?_, ?_⟩
  · cases full with
    | nil => exact iff_of_true hheads.eq_nil.1 rfl
    | cons r rest =>
      obtain ⟨r', x, others, rfl, -, -⟩ := hheads.eq_cons
      simp
  · rintro r rest rfl
    obtain ⟨r', x, others, rfl, htrails, hcut⟩ := hheads.eq_cons
    have hr' := hcut.isChain.remarks_eq
    refine ⟨r', x.1, x.2, rfl, hcut, hr', ?_, ?_, World.uncovers_first htrails⟩
    · rw [← Report.map_text_remarks, hr', List.map_singleton]
    · rw [← Report.map_text_remarks]
      exact List.mem_map_of_mem hcut.mem

theorem Setup.validate_aborting_ring :
    ((Ring.setup.aborting false).validate (.object 0) ⟨[], [], []⟩).1 = .ok Ring.reports ∧
    ∃ short run' m, (Ring.setup.aborting true).validate (.object 0) ⟨[], [], []⟩ =
        (.ok [short], run') ∧ Report.CutTo m Ring.reports.head! short := by
  obtain ⟨short, run', hv, -, hcut⟩ := validate_aborting Ring.setup [] [] [] (.object 0)
    Ring.reports _ (Prod.ext Ring.validate_fst rfl) [] (.inl rfl)
  obtain ⟨r, t, m, rfl, hcut, -⟩ := hcut _ _ rfl
  exact ⟨Ring.validate_fst, r, run', m, hv, hcut⟩

end Rulebook
