import Rulebook.Proofs.Compilation
import Rulebook.Proofs.FullRun

/-!
# The order of declarations

Declarations of different properties, or of different classes, may come in any order: plans have
the same executors then, in some order (`World.compile_perm`), and a full run reports the same up to
the order of reports that stand side by side (`Report.SimilarAll`). Labels, locations, places in
sequences, and messages with their order are the same, so nothing but the order in which properties
are looked at comes of the mix.
-/

set_option autoImplicit false

namespace Rulebook

/-! ## Reports up to order -/

namespace Report

/-- The same report, but for the order of the reports on the value, and so on below these. -/
inductive Similar : Report → Report → Prop
  | leaf (property : String) (location : Option String) (failed : Option Failures)
      (index : Option Int) :
      Similar (.mk property location failed none index) (.mk property location failed none index)
  | node (property : String) (location : Option String) (failed : Option Failures)
      (index : Option Int) {reports arranged reports' : List Report} :
      reports.Perm arranged → List.Forall₂ Similar arranged reports' →
      Similar (.mk property location failed (some reports) index)
        (.mk property location failed (some reports') index)

/-- The same reports, but for the order at every level. -/
def SimilarAll (reports reports' : List Report) : Prop :=
  ∃ arranged, reports.Perm arranged ∧ List.Forall₂ Similar arranged reports'

namespace SimilarAll

variable {as as' bs bs' : List Report}

theorem nil : SimilarAll [] [] := ⟨[], .nil, .nil⟩

theorem append (ha : SimilarAll as as') (hb : SimilarAll bs bs') :
    SimilarAll (as ++ bs) (as' ++ bs') := by
  obtain ⟨as₀, hpa, hfa⟩ := ha
  obtain ⟨bs₀, hpb, hfb⟩ := hb
  exact ⟨as₀ ++ bs₀, hpa.append hpb, List.rel_append hfa hfb⟩

theorem eq_nil_iff (h : SimilarAll as bs) : as = [] ↔ bs = [] := by
  obtain ⟨arranged, hp, hf⟩ := h
  have hlength : as.length = bs.length := hp.length_eq.trans hf.length_eq
  rw [← List.length_eq_zero_iff, hlength, List.length_eq_zero_iff]

theorem node (h : SimilarAll as bs) (property : String) (location : Option String)
    (failed : Option Failures) (index : Option Int) :
    Similar (.mk property location failed (some as) index)
      (.mk property location failed (some bs) index) := by
  obtain ⟨arranged, hp, hf⟩ := h
  exact .node property location failed index hp hf

end SimilarAll

end Report

open Report (SimilarAll)

/-- The same answer, but for the order of reports. -/
inductive Finding.Similar : Finding → Finding → Prop
  | message (ruleType : String) (text : Value) :
      Similar (.message ruleType text) (.message ruleType text)
  | nested {reports reports' : List Report} (h : reports ≠ []) (h' : reports' ≠ []) :
      SimilarAll reports reports' → Similar (.nested reports h) (.nested reports' h')

theorem Finding.similar_ofReports? {reports reports' : List Report} (name : String)
    (place : Option Nat) (h : SimilarAll reports reports') :
    List.Forall₂ Similar (ofReports? name place reports).toList
      (ofReports? name place reports').toList := by
  by_cases hr : reports = []
  · obtain rfl := hr
    obtain rfl := h.eq_nil_iff.1 rfl
    exact .nil
  · have hr' : reports' ≠ [] := fun hr' => hr (h.eq_nil_iff.2 hr')
    rw [ofReports?, ofReports?, dif_neg hr, dif_neg hr']
    cases place with
    | none => exact .cons (.nested hr hr' h) .nil
    | some i =>
      have helement := h.node (elementName name i) none none (some i)
      exact .cons (.nested _ _ ⟨_, .refl _, .cons helement .nil⟩) .nil

/-- The same findings, but for the order of reports. -/
structure Findings.Similar (f f' : Findings) : Prop where
  failed : f.failed = f'.failed
  children : SimilarAll f.children f'.children

namespace Findings

variable {f f' : Findings}

theorem Similar.add (h : f.Similar f') {x x' : Finding} (hx : x.Similar x') :
    (f.add x).Similar (f'.add x') := by
  cases hx with
  | message ruleType text =>
    have hfailed := congrArg (Catalog.alter (fun old => old.getD [] ++ [text]) · ruleType) h.failed
    exact ⟨hfailed, h.children⟩
  | nested _ _ hreports => exact ⟨h.failed, h.children.append hreports⟩

theorem Similar.addAll (h : f.Similar f') {found found' : List Finding}
    (hfound : List.Forall₂ Finding.Similar found found') :
    (f.addAll found).Similar (f'.addAll found') := by
  induction hfound generalizing f f' with
  | nil => exact h
  | cons hx _ ih => exact ih (h.add hx)

theorem Similar.report? (h : f.Similar f') (name : String) (location : Option String) :
    List.Forall₂ Report.Similar (f.report? name location).toList
      (f'.report? name location).toList := by
  obtain ⟨failed, children⟩ := f
  obtain ⟨failed', children'⟩ := f'
  obtain ⟨rfl, hchildren⟩ := h
  unfold report? isClear
  cases children with
  | nil =>
    obtain rfl := hchildren.eq_nil_iff.1 rfl
    cases failed with
    | nil => exact .nil
    | cons e rest => exact .cons (.leaf name location _ .none) .nil
  | cons r rest =>
    cases children' with
    | nil => cases hchildren.eq_nil_iff.2 rfl
    | cons r' rest' =>
      simp only [List.isEmpty_cons, Bool.and_false, Bool.false_eq_true, if_false]
      exact .cons (hchildren.node name location _ .none) .nil

end Findings

/-! ## Surveys -/

variable {w : World} {nested nested' : Value → Course (List Report)}

/-- Nested validations that come to reports come to similar ones. -/
def Resembles (nested nested' : Value → Course (List Report)) : Prop :=
  ∀ v reports, (nested v).outcome = .ok reports →
    ∃ reports', (nested' v).outcome = .ok reports' ∧ SimilarAll reports reports'

theorem Question.similar_answer {name : String} {q : Question} (h : Resembles nested nested')
    {o : Option Finding} (ho : (q.answer w name nested).outcome = .ok o) :
    ∃ o', (q.answer w name nested').outcome = .ok o' ∧
      List.Forall₂ Finding.Similar o.toList o'.toList := by
  rcases answer_eq_ok.1 ho with ⟨v, reports, ht, hr, rfl⟩ | ⟨ht, rfl⟩
  · obtain ⟨reports', hr', hsimilar⟩ := h v reports hr
    exact ⟨_, answer_eq_ok.2 (.inl ⟨v, reports', ht, hr', rfl⟩),
      Finding.similar_ofReports? name q.place hsimilar⟩
  · refine ⟨_, answer_eq_ok.2 (.inr ⟨ht, rfl⟩), ?_⟩
    cases q.complaint? w name with
    | none => exact .nil
    | some c => exact .cons (.message c.1 c.2) .nil

theorem Executor.similar_survey {o : Value} {e : Executor} (h : Resembles nested nested')
    {r : Option Report} (hr : (e.survey w false nested o).outcome = .ok r) :
    ∃ r', (e.survey w false nested' o).outcome = .ok r' ∧
      List.Forall₂ Report.Similar r.toList r'.toList := by
  obtain ⟨found, hfound, rfl⟩ := survey_eq_ok.1 hr
  obtain ⟨found', hfound', hsimilar⟩ :=
    Course.gather_forall₂ hfound fun q _ o ho => Question.similar_answer h ho
  have hnone : Findings.none.Similar .none := ⟨rfl, .nil⟩
  exact ⟨_, survey_eq_ok.2 ⟨found', hfound', rfl⟩, (hnone.addAll hsimilar).report? _ _⟩

namespace World

/-- With the executors of every plan in another order, a full survey comes to similar reports. -/
theorem similar_survey {supply supply' : Supply}
    (h : ∀ c plan, supply c = .ok plan →
      ∃ plan', supply' c = .ok plan' ∧ plan.executors.Perm plan'.executors) (path : List Address) :
    Resembles (w.survey false supply path) (w.survey false supply' path) := by
  intro v
  induction path, v using enter_induction with
  | skip path v hs =>
    intro reports hr
    rw [survey_of_skips hs] at hr ⊢
    cases hr
    exact ⟨[], rfl, .nil⟩
  | enter path a hc ha ih =>
    intro reports hr
    rw [survey_enter hc ha] at hr ⊢
    obtain ⟨plan, hplan, hr⟩ := Course.outcome_bind_eq_ok.1 hr
    obtain ⟨plan', hplan', hp⟩ := h _ plan hplan
    -- the same run over the executors in the other order lies between the two
    obtain ⟨arranged, harranged, hperm⟩ := Course.gather_of_perm hp hr
    obtain ⟨reports', hreports', hsimilar⟩ :=
      Course.gather_forall₂ harranged fun e _ r hr => Executor.similar_survey ih hr
    exact ⟨reports', (Course.outcome_bind_ok hplan').trans hreports', arranged, hperm, hsimilar⟩

end World

/-! ## Declarations in another order -/

namespace Setup

/-- The same setup with these declarations, made one after the other. -/
def declaring (s : Setup) (ds : List Declaration) : Setup :=
  { s with rules := (Registry.empty s.rules.name).addAll ds }

theorem rulesOf_declaring (s : Setup) (ds : List Declaration) (c : ClassId) :
    (s.declaring ds).rules.rulesOf c = ds.filter (·.owner = c) :=
  Registry.rulesOf_addAll _ ds c

/-- A class that gets a plan from the one sequence of declarations gets one from the other. -/
theorem supply_declaring {s : Setup} {plans : Catalog ClassId Plan} {ds ds' : List Declaration}
    (hkeys : ∀ d ∈ ds ++ ds', ∃ k, s.world.key? d.key = .ok k)
    (hsame : ∀ c k, ds.filter (fun d => s.world.hasKey k d && d.owner = c) =
      ds'.filter fun d => s.world.hasKey k d && d.owner = c)
    (c : ClassId) (plan : Plan) (h : (s.declaring ds).supply plans c = .ok plan) :
    ∃ plan', (s.declaring ds').supply plans c = .ok plan' ∧
      plan.executors.Perm plan'.executors := by
  unfold supply at h ⊢
  cases hc : plans.get? c with
  | some known =>
    rw [hc] at h
    cases h
    exact ⟨plan, rfl, .refl _⟩
  | none =>
    rw [hc] at h
    dsimp only at h ⊢
    rw [rulesOf_declaring] at h ⊢
    refine World.compile_perm (fun d hd => ?_) (fun d hd => ?_) (fun k => ?_) h
    · exact hkeys d (List.mem_append_left _ (List.mem_filter.1 hd).1)
    · exact hkeys d (List.mem_append_right _ (List.mem_filter.1 hd).1)
    · rw [List.filter_filter, List.filter_filter]
      exact hsame c k

/-- A full run on any heap comes to the same reports, but for the order of those that stand side by
side, whatever the order in which declarations of different classes, or of different properties of a
class, have been made. Properties are the same if their keys are equal. -/
theorem validate_reordered (s : Setup) (plans : Catalog ClassId Plan) (log : List Record)
    (root : Value) (ds ds' : List Declaration)
    (hkeys : ∀ d ∈ ds ++ ds', ∃ k, s.world.key? d.key = .ok k)
    (hsame : ∀ c k, ds.filter (fun d => s.world.hasKey k d && d.owner = c) =
      ds'.filter fun d => s.world.hasKey k d && d.owner = c)
    (hplans : ∀ o, s.world.Reaches ((s.declaring ds).supply plans) [] root o →
      ∃ plan, (s.declaring ds).supply plans (s.world.classOf o) = .ok plan) :
    ∃ reports reports',
      (((s.declaring ds).aborting false).validate root ⟨plans, [], log⟩).1 = .ok reports ∧
      (((s.declaring ds').aborting false).validate root ⟨plans, [], log⟩).1 = .ok reports' ∧
      SimilarAll reports reports' := by
  obtain ⟨reports, hr⟩ := World.survey_ok hplans
  obtain ⟨reports', hr', hsimilar⟩ :=
    World.similar_survey (supply_declaring hkeys hsame) [] root reports hr
  have hv := ((s.declaring ds).aborting false).validate_fst root ⟨plans, [], log⟩
  have hv' := ((s.declaring ds').aborting false).validate_fst root ⟨plans, [], log⟩
  exact ⟨reports, reports', hv.trans hr, hv'.trans hr', hsimilar⟩

end Setup

/-! ## The ring with its rules in the other order -/

namespace Ring

/-- The rule on the next node, then the one on the label. -/
def rules : List Declaration := [rule "next" "ValidateNested", rule "label" "IsString"]

theorem declaring_rules : setup.declaring rules = setup := rfl

theorem key?_rule (key ruleType : String) :
    world.key? (rule key ruleType).key = .ok (.ofText key) := rfl

theorem filter_reverse_rules (c : ClassId) (k : Key) :
    rules.filter (fun d => world.hasKey k d && d.owner = c) =
      rules.reverse.filter fun d => world.hasKey k d && d.owner = c := by
  have hother {key : String} (ruleType : String) (h : Key.ofText key ≠ k) :
      world.hasKey k (rule key ruleType) = false := by
    simp [World.hasKey, key?_rule, h]
  -- no key is that of both rules, so at most one of them is left
  by_cases hk : Key.ofText "next" = k
  · have hlabel : Key.ofText "label" ≠ k := hk ▸ by decide
    simp [rules, List.filter_cons, hother _ hlabel]
  · simp [rules, List.filter_cons, hother _ hk]

theorem validate_reverse_rules :
    (((setup.declaring rules.reverse).aborting false).validate (.object 0) ⟨[], [], []⟩).1 =
      .ok reports.reverse := by
  with_unfolding_all rfl

end Ring

theorem Setup.validate_reordered_ring :
    (∀ d ∈ Ring.rules ++ Ring.rules.reverse, ∃ k, Ring.world.key? d.key = .ok k) ∧
    (∀ c k, Ring.rules.filter (fun d => Ring.world.hasKey k d && d.owner = c) =
      Ring.rules.reverse.filter fun d => Ring.world.hasKey k d && d.owner = c) ∧
    (∀ o, Ring.world.Reaches ((Ring.setup.declaring Ring.rules).supply []) [] (.object 0) o →
      ∃ plan, (Ring.setup.declaring Ring.rules).supply [] (Ring.world.classOf o) = .ok plan) ∧
    SimilarAll Ring.reports Ring.reports.reverse := by
  have hkeys : ∀ d ∈ Ring.rules ++ Ring.rules.reverse, ∃ k, Ring.world.key? d.key = .ok k := by
    intro d hd
    have hd : d ∈ Ring.rules := by simpa using hd
    rcases List.mem_cons.1 hd with rfl | hd
    · exact ⟨_, Ring.key?_rule _ _⟩
    · rw [List.mem_singleton.1 hd]
      exact ⟨_, Ring.key?_rule _ _⟩
  have hplans o (_ : Ring.world.Reaches ((Ring.setup.declaring Ring.rules).supply []) []
      (.object 0) o) : ∃ plan, (Ring.setup.declaring Ring.rules).supply []
        (Ring.world.classOf o) = .ok plan := Ring.supply_ok (Ring.world.classOf o)
  obtain ⟨reports, reports', hr, hr', hsimilar⟩ := validate_reordered Ring.setup [] [] (.object 0)
    Ring.rules Ring.rules.reverse hkeys Ring.filter_reverse_rules hplans
  rw [Ring.declaring_rules] at hr
  cases Ring.validate_fst.symm.trans hr
  cases Ring.validate_reverse_rules.symm.trans hr'
  exact ⟨hkeys, Ring.filter_reverse_rules, hplans, hsimilar⟩

end Rulebook
