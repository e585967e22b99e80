import Rulebook.Proofs.Parallel

/-!
# Reports but for locations

Declarations are counterparts if they have the same message and the strategy of their rule type
cannot tell them apart (`Declaration.Counterpart`). What else they have, their locations above all,
goes into reports as locations at most: plans made of counterparts lead to the same reports but for
these (`Report.unlocatedAll`, `World.survey_unlocated`), or fail alike.
-/

set_option autoImplicit false

namespace Rulebook

namespace Report

mutual

/-- The report without locations. -/
def unlocated : Report → Report
  | mk property _ failed none index => mk property none failed none index
  | mk property _ failed (some children) index =>
    mk property none failed (some (unlocatedAll children)) index

/-- The reports without locations. -/
def unlocatedAll : List Report → List Report
  | [] => []
  | r :: rest => unlocated r :: unlocatedAll rest

end

theorem unlocatedAll_eq (reports : List Report) : unlocatedAll reports = reports.map unlocated := by
  induction reports with
  | nil => rfl
  | cons r rest ih => rw [unlocatedAll, ih, List.map_cons]

theorem unlocatedAll_append (as bs : List Report) :
    unlocatedAll (as ++ bs) = unlocatedAll as ++ unlocatedAll bs := by
  simp only [unlocatedAll_eq, List.map_append]

theorem unlocatedAll_eq_nil {reports : List Report} : unlocatedAll reports = [] ↔ reports = [] := by
  rw [unlocatedAll_eq, List.map_eq_nil_iff]

/-- Reports that are the same but for locations, one by one. -/
theorem unlocatedAll_of_forall₂ {reports reports' : List Report}
    (h : List.Forall₂ (fun r r' => r.unlocated = r'.unlocated) reports reports') :
    unlocatedAll reports = unlocatedAll reports' := by
  induction h with
  | nil => rfl
  | cons hr _ ih => rw [unlocatedAll, unlocatedAll, hr, ih]

end Report

/-! ## Findings -/

/-- The same answer, but for the locations in reports. -/
inductive Finding.Like : Finding → Finding → Prop
  | message (ruleType : String) (text : Value) :
      Like (.message ruleType text) (.message ruleType text)
  | nested {reports reports' : List Report} (h : reports ≠ []) (h' : reports' ≠ []) :
      Report.unlocatedAll reports = Report.unlocatedAll reports' →
      Like (.nested reports h) (.nested reports' h')

theorem Finding.like_ofReports? {reports reports' : List Report} (name : String)
    (place : Option Nat) (h : Report.unlocatedAll reports = Report.unlocatedAll reports') :
    Option.Rel Like (ofReports? name place reports) (ofReports? name place reports') := by
  by_cases hr : reports = []
  · have hr' : reports' = [] := by
      rw [← Report.unlocatedAll_eq_nil, ← h, Report.unlocatedAll_eq_nil, hr]
    rw [hr, hr']
    exact .none
  · have hr' : reports' ≠ [] := by
      rw [Ne, ← Report.unlocatedAll_eq_nil, ← h, Report.unlocatedAll_eq_nil]
      exact hr
    rw [ofReports?, ofReports?, dif_neg hr, dif_neg hr']
    cases place with
    | none => exact .some (.nested hr hr' h)
    | some i =>
      refine .some (.nested _ _ ?_)
      simp only [Report.unlocatedAll, Report.unlocated, h]

/-- The same findings, but for the locations in reports. -/
structure Findings.Like (f f' : Findings) : Prop where
  failed : f.failed = f'.failed
  children : Report.unlocatedAll f.children = Report.unlocatedAll f'.children

namespace Findings

variable {f f' : Findings}

theorem Like.add (h : f.Like f') {x x' : Finding} (hx : x.Like x') :
    (f.add x).Like (f'.add x') := by
  cases hx with
  | message ruleType text =>
    have hfailed := congrArg (Catalog.alter (fun old => old.getD [] ++ [text]) · ruleType) h.failed
    exact ⟨hfailed, h.children⟩
  | nested _ _ hreports =>
    refine ⟨h.failed, ?_⟩
    rw [Findings.add, Findings.add, addChildren, addChildren, Report.unlocatedAll_append,
      Report.unlocatedAll_append, h.children, hreports]

theorem Like.addAll (h : f.Like f') {found found' : List Finding}
    (hfound : List.Forall₂ Finding.Like found found') :
    (f.addAll found).Like (f'.addAll found') := by
  induction hfound generalizing f f' with
  | nil => exact h
  | cons hx _ ih => exact ih (h.add hx)

theorem Like.report? (h : f.Like f') (name : String) (location location' : Option String) :
    Option.Rel (fun r r' => r.unlocated = r'.unlocated) (f.report? name location)
      (f'.report? name location') := by
  have hchildren := h.children
  rw [Findings.report?, Findings.report?, isClear, isClear, ← h.failed]
  cases hc : f.children with
  | nil =>
    rw [hc] at hchildren
    rw [Report.unlocatedAll_eq_nil.1 hchildren.symm]
    split
    · exact .none
    · exact .some rfl
  | cons r rest =>
    rw [hc] at hchildren
    obtain ⟨r', rest', hc'⟩ : ∃ r' rest', f'.children = r' :: rest' := by
      refine List.exists_cons_of_ne_nil fun hnil => ?_
      rw [hnil] at hchildren
      cases hchildren
    rw [hc', List.isEmpty_cons, List.isEmpty_cons, Bool.and_false, if_neg Bool.false_ne_true,
      if_neg Bool.false_ne_true]
    rw [hc'] at hchildren
    refine .some ?_
    simp only [nonempty?, Report.unlocated, hchildren]

end Findings

/-! ## Counterparts -/

/-- The declarations have the same message, and the strategy of their rule type cannot tell them
apart. -/
structure Declaration.Counterpart (w : World) (strategies : StrategyRegistry)
    (d d' : Declaration) : Prop where
  peer : d.Peer d'
  override : d.override? = d'.override?
  answers : ∀ ruleType strategy, w.heap.text? d.ruleType = some ruleType →
    strategies.get? ruleType = some strategy → ∀ v name, strategy w v d name = strategy w v d' name

section
variable {w : World} {strategies : StrategyRegistry} {supply supply' : Supply}

theorem Declaration.Counterpart.refl (d : Declaration) : d.Counterpart w strategies d :=
  ⟨⟨rfl, rfl, rfl, rfl⟩, rfl, fun _ _ _ _ _ _ => rfl⟩

/-- Questions about counterparts are answered by the same complaint. -/
theorem Question.Peer.complaint?_eq {name : String} {q q' : Question}
    (h : Question.Peer w strategies (Declaration.Counterpart w strategies) q q') :
    q.complaint? w name = q'.complaint? w name := by
  obtain ⟨a, place, v⟩ := q
  obtain ⟨a', place', v'⟩ := q'
  obtain ⟨ha, hplace, hv⟩ := h
  dsimp only at ha hplace hv
  subst hplace hv
  cases ha with
  | nested each => rfl
  | predicate htype hget hd =>
    have hanswer := hd.answers _ _ htype hget v name
    simp only [complaint?, Declaration.messageFor?, hanswer, hd.override]

theorem Question.Peer.answer_like {name : String} {q q' : Question}
    {nested nested' : Value → Course (List Report)}
    (hq : Question.Peer w strategies (Declaration.Counterpart w strategies) q q')
    (ih : ∀ v, Alike (fun rs rs' => Report.unlocatedAll rs = Report.unlocatedAll rs')
      (nested v).outcome (nested' v).outcome) :
    Alike (Option.Rel Finding.Like) (q.answer w name nested).outcome
      (q'.answer w name nested').outcome := by
  rw [outcome_answer, outcome_answer, ← hq.target?, ← hq.complaint?_eq, ← hq.place]
  cases q.target? w.heap with
  | some v => exact (ih v).map fun rs rs' _ _ h => Finding.like_ofReports? name q.place h
  | none =>
    refine .ok ?_
    cases q.complaint? w name with
    | none => exact .none
    | some c => exact .some (.message c.1 c.2)

theorem Executor.Peer.survey_unlocated {first : Bool} {o : Value} {e e' : Executor}
    {nested nested' : Value → Course (List Report)}
    (he : Executor.Peer w strategies (Declaration.Counterpart w strategies) e e')
    (ih : ∀ v, Alike (fun rs rs' => Report.unlocatedAll rs = Report.unlocatedAll rs')
      (nested v).outcome (nested' v).outcome) :
    Alike (Option.Rel fun r r' => r.unlocated = r'.unlocated) (e.survey w first nested o).outcome
      (e'.survey w first nested' o).outcome := by
  have hquestions := he.questions (fun d d' hd => hd.peer) o
  rw [outcome_survey, outcome_survey, ← he.name]
  refine (Course.gather_alike_forall₂ hquestions fun q q' hq => hq.answer_like ih).map
    fun found found' _ _ hfound => ?_
  have hnone : Findings.none.Like Findings.none := ⟨rfl, rfl⟩
  exact (hnone.addAll hfound).report? e.name e.location e'.location

/-- Plans of counterparts lead to the same reports but for locations, or fail alike. -/
theorem World.survey_unlocated (hsupply : ∀ c, Alike
      (Plan.Peer w strategies (Declaration.Counterpart w strategies)) (supply c) (supply' c))
    (first : Bool) (path : List Address) (v : Value) :
    Alike (fun rs rs' => Report.unlocatedAll rs = Report.unlocatedAll rs')
      (w.survey first supply path v).outcome (w.survey first supply' path v).outcome := by
  induction path, v using enter_induction with
  | skip path v hs =>
    rw [survey_of_skips hs, survey_of_skips hs]
    exact .ok rfl
  | enter path a hc ha ih =>
    rw [survey_enter hc ha, survey_enter hc ha, Course.outcome_bind, Course.outcome_bind,
      Course.outcome_plan, Course.outcome_plan]
    refine (hsupply (w.classOf (.object a))).bind fun plan plan' hplan => ?_
    refine (Course.gather_alike_forall₂ hplan.executors
      fun e e' he => he.survey_unlocated ih).imp ?_
    exact fun rs rs' h => Report.unlocatedAll_of_forall₂ h

end

end Rulebook
