import Rulebook.Proofs.Growth
import Rulebook.Proofs.Parallel

/-!
# Other messages

The messages of declarations replace what strategies say, and do nothing else. If strategies do not
look at them (`Strategy.IgnoresMessages`; none of those that are always there does), declarations
with other messages come to the same reports, message by message (`World.survey_reworded`): the
outlines of the reports are the same (`Report.outlineAll`), and any two messages that stand in the
same place come from the same question (`World.Rephrases`). Where the strategy fails instead of
answering, they are one and the same message, as declared messages do not replace failures.

That holds whether or not a validation stops early: it stops at messages, whatever they say.
-/

set_option autoImplicit false

namespace Rulebook

/-! ## Outlines -/

/-- Failed rules with blanks for their messages. -/
def Failures.outline (failed : Failures) : Failures :=
  failed.map fun (ruleType, texts) => (ruleType, texts.map fun _ => .nothing)

namespace Report

mutual

/-- The report with blanks for its messages. -/
def outline : Report → Report
  | mk property location failed none index =>
    mk property location (failed.map Failures.outline) none index
  | mk property location failed (some children) index =>
    mk property location (failed.map Failures.outline) (some (outlineAll children)) index

/-- The reports with blanks for their messages. -/
def outlineAll : List Report → List Report
  | [] => []
  | r :: rest => outline r :: outlineAll rest

end

theorem outlineAll_eq (reports : List Report) : outlineAll reports = reports.map outline := by
  induction reports with
  | nil => rfl
  | cons r rest ih => rw [outlineAll, ih, List.map_cons]

theorem outlineAll_append (as bs : List Report) :
    outlineAll (as ++ bs) = outlineAll as ++ outlineAll bs := by
  simp [outlineAll_eq]

end Report

/-! ## Declarations with other messages -/

/-- The declarations differ in their messages at most. -/
structure Declaration.Reworded (d d' : Declaration) : Prop where
  owner : d.owner = d'.owner
  key : d.key = d'.key
  ruleType : d.ruleType = d'.ruleType
  constraints : d.constraints = d'.constraints
  each : d.each = d'.each
  priority : d.priority = d'.priority
  location : d.location = d'.location

theorem Declaration.Reworded.peer (d d' : Declaration) (h : d.Reworded d') : d.Peer d' :=
  ⟨h.key, h.ruleType, h.priority, h.each⟩

/-- The strategy answers in the same way whatever the messages of a declaration are. -/
def Strategy.IgnoresMessages (w : World) (strategy : Strategy) : Prop :=
  ∀ v d d' name, d.Reworded d' → strategy w v d name = strategy w v d' name

theorem Strategy.standing_ignoresMessages {ruleType : String} {strategy : Strategy}
    (h : (ruleType, strategy) ∈ standing) (w : World) : strategy.IgnoresMessages w := by
  intro v d d' name hd
  refine standing_congr h (fun i default => ?_) w v name
  rw [Declaration.constraint, Declaration.constraint, hd.constraints]

/-! ## Messages in two wordings -/

/-- A message in two wordings, with the trail to the question that it answers. -/
structure Rephrasing where
  trail : Trail
  before : Remark
  after : Remark

/-- The message, seen from further out. -/
def Rephrasing.under (x : Rephrasing) (p : Place) (labels : List Label) : Rephrasing :=
  ⟨x.trail.after p, x.before.under labels, x.after.under labels⟩

/-- The strategy that the question is put to fails instead of answering. -/
def Question.Breaks (w : World) (name : String) (q : Question) : Prop :=
  ∃ ruleType d strategy text, q.action = .predicate ruleType d strategy ∧
    Verdict.ask w strategy d name q.subject = .breaks text

/-- Two messages come from the same question: one trail leads both surveys to it, and they have the
same rule type and labels. If the strategy fails there, they are the same message. -/
inductive World.Rephrases (w : World) (supply supply' : Supply) (path : List Address)
    (root : Value) : Rephrasing → Prop
  | intro {t : Trail} {labels : List Label} {o : Value} {plan plan' : Plan} {e e' : Executor}
      {q q' : Question} {ruleType : String} {text text' : Value} :
      w.Leads supply path root t.turns labels o → w.Leads supply' path root t.turns labels o →
      supply (w.classOf o) = .ok plan → supply' (w.classOf o) = .ok plan' →
      w.Asks plan o t.check e q → w.Asks plan' o t.check e' q' → e.name = e'.name →
      q.place = q'.place → q.subject = q'.subject →
      q.complaint? w e.name = some (ruleType, text) →
      q'.complaint? w e'.name = some (ruleType, text') →
      (q.Breaks w e.name → text' = text) →
      Rephrases w supply supply' path root ⟨t, ⟨labels ++ [(e.name, none)], ruleType, text⟩,
        ⟨labels ++ [(e.name, none)], ruleType, text'⟩⟩

/-- The messages of the reports are those of the rephrasings, one by one. -/
structure Report.Rephrased (reports reports' : List Report) (xs : List Rephrasing) : Prop where
  outline : outlineAll reports = outlineAll reports'
  before : xs.map (·.before) = remarksAll reports
  after : xs.map (·.after) = remarksAll reports'

/-- Reports side by side hold the messages of all. -/
theorem Report.rephrased_flatMap {us : List ((Report × Report) × List Rephrasing)}
    (h : ∀ u ∈ us, Rephrased [u.1.1] [u.1.2] u.2) :
    Rephrased (us.map (·.1.1)) (us.map (·.1.2)) (us.flatMap (·.2)) := by
  induction us with
  | nil => exact ⟨rfl, rfl, rfl⟩
  | cons u rest ih =>
    obtain ⟨hu, hrest⟩ := List.forall_mem_cons.1 h
    have ih := ih hrest
    rw [List.flatMap_cons]
    refine ⟨?_, ?_, ?_⟩
    · exact congrArg₂ (· ++ ·) hu.outline ih.outline
    · rw [List.map_append, hu.before, ih.before, ← remarksAll_append]
      rfl
    · rw [List.map_append, hu.after, ih.after, ← remarksAll_append]
      rfl

/-! ## Findings -/

/-- Answers that count in both surveys, with their messages. -/
inductive Finding.Rephrased (name : String) : Finding → Finding → List Rephrasing → Prop
  | message (t : Trail) (ruleType : String) (text text' : Value) :
      Rephrased name (.message ruleType text) (.message ruleType text')
        [⟨t, ⟨[(name, none)], ruleType, text⟩, ⟨[(name, none)], ruleType, text'⟩⟩]
  | nested {reports reports' : List Report} (h : reports ≠ []) (h' : reports' ≠ [])
      {xs : List Rephrasing} : Report.outlineAll reports = Report.outlineAll reports' →
      xs.map (·.before) = (Report.remarksAll reports).map (·.under [(name, none)]) →
      xs.map (·.after) = (Report.remarksAll reports').map (·.under [(name, none)]) →
      Rephrased name (.nested reports h) (.nested reports' h') xs

/-- What comes of reports on a value holds their messages, seen from the property. -/
theorem Finding.rephrased_ofReports? {name : String} {q : Question} {reports reports' : List Report}
    {xs : List Rephrasing} (p : Place) (h : Report.Rephrased reports reports' xs) :
    Option.Rel (fun x x' => Finding.Rephrased name x x' (xs.map (·.under p (q.labels name))))
      (ofReports? name q.place reports) (ofReports? name q.place reports') := by
  have hremarks := Finding.remarks_ofReports? name q reports
  have hremarks' := Finding.remarks_ofReports? name q reports'
  have hbefore : (xs.map (·.under p (q.labels name))).map (·.before) =
      (Report.remarksAll reports).map (·.under (q.labels name)) := by
    rw [← h.before, List.map_map, List.map_map]
    rfl
  have hafter : (xs.map (·.under p (q.labels name))).map (·.after) =
      (Report.remarksAll reports').map (·.under (q.labels name)) := by
    rw [← h.after, List.map_map, List.map_map]
    rfl
  rw [← hremarks] at hbefore
  rw [← hremarks'] at hafter
  have houtline := h.outline
  simp only [Report.outlineAll_eq] at houtline
  cases reports with
  | nil =>
    obtain rfl : reports' = [] := List.map_eq_nil_iff.1 houtline.symm
    exact .none
  | cons r rest =>
    cases reports' with
    | nil => cases houtline
    | cons r' rest' =>
      generalize xs.map (·.under p (q.labels name)) = ys at hbefore hafter ⊢
      rw [ofReports?, dif_neg (List.cons_ne_nil r rest)] at hbefore ⊢
      rw [ofReports?, dif_neg (List.cons_ne_nil r' rest')] at hafter ⊢
      cases hp : q.place with
      | none =>
        simp only [hp, Option.toList_some, List.flatMap_singleton] at hbefore hafter
        exact .some (.nested _ _ h.outline hbefore hafter)
      | some i =>
        simp only [hp, Option.toList_some, List.flatMap_singleton] at hbefore hafter
        refine .some (.nested _ _ ?_ hbefore hafter)
        rw [Report.outlineAll_eq, Report.outlineAll_eq, List.map_singleton, List.map_singleton,
          Report.outline, Report.outline, h.outline]

/-- A text in two wordings, with the trail to the question that it answers. -/
structure Wording where
  trail : Trail
  before : Value
  after : Value

/-- The wording as one of a message about a property. -/
def Wording.rephrasing (x : Wording) (name ruleType : String) : Rephrasing :=
  ⟨x.trail, ⟨[(name, none)], ruleType, x.before⟩, ⟨[(name, none)], ruleType, x.after⟩⟩

/-- The wordings of failed rules as messages about a property. -/
def rephrasings (name : String) (c : Catalog String (List Wording)) : List Rephrasing :=
  c.flatMap fun (ruleType, xs) => xs.map (·.rephrasing name ruleType)

/-- What was found on a property in both surveys: the same rules failed in the same order, and there
are as many messages of each. -/
structure Findings.Rephrased (name : String) (f f' : Findings) (c : Catalog String (List Wording))
    (below : List Rephrasing) : Prop where
  failed : f.failed = c.map (Prod.map id (List.map (·.before)))
  failed' : f'.failed = c.map (Prod.map id (List.map (·.after)))
  children : Report.outlineAll f.children = Report.outlineAll f'.children
  nested : below.map (·.before) = (Report.remarksAll f.children).map (·.under [(name, .none)])
  nested' : below.map (·.after) = (Report.remarksAll f'.children).map (·.under [(name, .none)])

theorem rephrasings_alter (name ruleType : String) (c : Catalog String (List Wording))
    (x : Wording) :
    (rephrasings name (c.alter (fun old => old.getD [] ++ [x]) ruleType)).Perm
      (rephrasings name c ++ [x.rephrasing name ruleType]) := by
  induction c with
  | nil => exact .refl _
  | cons e rest ih =>
    obtain ⟨ruleType', xs⟩ := e
    rw [Catalog.alter]
    split
    · rename_i hk
      subst hk
      simp only [rephrasings, List.flatMap_cons, Option.getD_some, List.map_append,
        List.append_assoc]
      exact .append_left _ List.perm_append_comm
    · simp only [rephrasings, List.flatMap_cons, List.append_assoc] at ih ⊢
      exact .append_left _ ih

namespace Findings

variable {name : String}

theorem Rephrased.add {f f' : Findings} {c : Catalog String (List Wording)}
    {below : List Rephrasing} (h : Rephrased name f f' c below) {x x' : Finding}
    {xs : List Rephrasing} (hx : x.Rephrased name x' xs) : ∃ c' below',
      Rephrased name (f.add x) (f'.add x') c' below' ∧
      (rephrasings name c' ++ below').Perm (rephrasings name c ++ below ++ xs) := by
  cases hx with
  | message t ruleType text text' =>
    refine ⟨c.alter (fun old => old.getD [] ++ [⟨t, text, text'⟩]) ruleType, below,
      ⟨?_, ?_, h.children, h.nested, h.nested'⟩, ?_⟩
    · rw [Findings.add, record, h.failed]
      refine (Catalog.map_alter (fun old => ?_) c ruleType).symm
      cases old <;> simp
    · rw [Findings.add, record, h.failed']
      refine (Catalog.map_alter (fun old => ?_) c ruleType).symm
      cases old <;> simp
    · refine ((rephrasings_alter name ruleType c _).append_right below).trans ?_
      rw [List.append_assoc, List.append_assoc]
      exact .append_left _ List.perm_append_comm
  | nested hne hne' houtline hbefore hafter =>
    refine ⟨c, below ++ xs, ⟨h.failed, h.failed', ?_, ?_, ?_⟩, ?_⟩
    · rw [Findings.add, Findings.add, addChildren, addChildren, Report.outlineAll_append,
        Report.outlineAll_append, h.children, houtline]
    · rw [Findings.add, addChildren, Report.remarksAll_append, List.map_append, List.map_append,
        h.nested, hbefore]
    · rw [Findings.add, addChildren, Report.remarksAll_append, List.map_append, List.map_append,
        h.nested', hafter]
    · rw [List.append_assoc]

/-- Answers are added side by side. -/
theorem Rephrased.addAll {f f' : Findings} {c : Catalog String (List Wording)}
    {below : List Rephrasing} (h : Rephrased name f f' c below)
    {zs : List ((Finding × Finding) × List Rephrasing)}
    (hzs : ∀ z ∈ zs, z.1.1.Rephrased name z.1.2 z.2) : ∃ c' below',
      Rephrased name (f.addAll (zs.map (·.1.1))) (f'.addAll (zs.map (·.1.2))) c' below' ∧
      (rephrasings name c' ++ below').Perm (rephrasings name c ++ below ++ zs.flatMap (·.2)) := by
  induction zs generalizing f f' c below with
  | nil => exact ⟨c, below, h, by simp⟩
  | cons z rest ih =>
    obtain ⟨hz, hrest⟩ := List.forall_mem_cons.1 hzs
    obtain ⟨c₁, below₁, h₁, hperm₁⟩ := h.add hz
    obtain ⟨c₂, below₂, h₂, hperm₂⟩ := ih h₁ hrest
    refine ⟨c₂, below₂, h₂, hperm₂.trans ?_⟩
    rw [List.flatMap_cons, ← List.append_assoc]
    exact hperm₁.append_right _

theorem Rephrased.isClear {f f' : Findings} {c : Catalog String (List Wording)}
    {below : List Rephrasing} (h : Rephrased name f f' c below) : f.isClear = f'.isClear := by
  have hchildren : f.children.isEmpty = f'.children.isEmpty := by
    have hlength := congrArg List.isEmpty h.children
    simpa only [Report.outlineAll_eq, List.isEmpty_map] using hlength
  rw [Findings.isClear, Findings.isClear, h.failed, h.failed', hchildren, List.isEmpty_map,
    List.isEmpty_map]

/-- The messages of the failed rules, in the order of the report. -/
theorem remarks_failed (c : Catalog String (List Wording)) (f : Wording → Value)
    (g : Rephrasing → Remark) (hg : ∀ (x : Wording) ruleType,
      g (x.rephrasing name ruleType) = ⟨[(name, Option.none)], ruleType, f x⟩) :
    (rephrasings name c).map g =
      Failures.remarks (c.map (Prod.map id (List.map f))) [(name, Option.none)] := by
  rw [rephrasings, Failures.remarks, List.map_flatMap, List.flatMap_map]
  refine List.flatMap_congr fun e _ => ?_
  simp only [List.map_map, Function.comp_def, hg, Prod.map_fst, Prod.map_snd, id_eq]

theorem outline_report (f : Findings) (location : Option String) :
    (Report.mk name location (nonempty? f.failed) (nonempty? f.children) .none).outline =
      .mk name location ((nonempty? f.failed).map Failures.outline)
        ((nonempty? f.children).map Report.outlineAll) .none := by
  cases f.children <;> rfl

theorem Rephrased.outline_failed {f f' : Findings} {c : Catalog String (List Wording)}
    {below : List Rephrasing} (h : Rephrased name f f' c below) :
    (nonempty? f.failed).map Failures.outline = (nonempty? f'.failed).map Failures.outline := by
  rw [h.failed, h.failed']
  cases c with
  | nil => rfl
  | cons e rest => simp [nonempty?, Failures.outline, Function.comp_def]

theorem Rephrased.outline_children {f f' : Findings} {c : Catalog String (List Wording)}
    {below : List Rephrasing} (h : Rephrased name f f' c below) :
    (nonempty? f.children).map Report.outlineAll =
      (nonempty? f'.children).map Report.outlineAll := by
  have hchildren := h.children
  cases hf : f.children with
  | nil =>
    rw [hf] at hchildren
    cases hf' : f'.children with
    | nil => rfl
    | cons r' rest' => rw [hf'] at hchildren; cases hchildren
  | cons r rest =>
    rw [hf] at hchildren
    cases hf' : f'.children with
    | nil => rw [hf'] at hchildren; cases hchildren
    | cons r' rest' => rw [hf'] at hchildren; exact congrArg some hchildren

/-- The reports on a property hold the same messages in their wordings. -/
theorem Rephrased.report? {f f' : Findings} {c : Catalog String (List Wording)}
    {below : List Rephrasing} (h : Rephrased name f f' c below) (location : Option String) :
    Option.Rel (fun r r' => Report.Rephrased [r] [r'] (rephrasings name c ++ below))
      (f.report? name location) (f'.report? name location) := by
  have hremarks := @remarks_report? name f location
  have hremarks' := @remarks_report? name f' location
  have hclear := h.isClear
  unfold Findings.report? at hremarks hremarks' ⊢
  rw [← hclear] at hremarks' ⊢
  cases hc : f.isClear with
  | true => exact .none
  | false =>
    simp only [hc, Bool.false_eq_true, if_false, Option.toList_some, List.flatMap_singleton]
      at hremarks hremarks' ⊢
    refine .some ⟨?_, ?_, ?_⟩
    · rw [Report.outlineAll_eq, Report.outlineAll_eq, List.map_singleton, List.map_singleton,
        outline_report, outline_report, h.outline_failed, h.outline_children]
    · rw [List.map_append, h.nested, remarks_failed c (·.before) _ fun _ _ => rfl, ← h.failed]
      rw [Report.remarksAll, Report.remarksAll, List.append_nil, hremarks]
      rfl
    · rw [List.map_append, h.nested', remarks_failed c (·.after) _ fun _ _ => rfl, ← h.failed']
      rw [Report.remarksAll, Report.remarksAll, List.append_nil, hremarks']
      rfl

end Findings

/-! ## Answers -/

/-- What replaces a complaint does not matter to whether there is one. -/
theorem Verdict.messageAt?_rel (w : World) (override override' : Option Value) (place : Option Nat)
    (verdict : Verdict) : Option.Rel (fun text text' => (∃ s, verdict = .breaks s) → text' = text)
      (verdict.messageAt? w override place) (verdict.messageAt? w override' place) := by
  cases verdict with
  | passes => cases place <;> exact .none
  | fails complaint =>
    have hno : ∀ text text' : Value,
        (∃ s, fails complaint = .breaks s) → text' = text := by rintro _ _ ⟨s, hs⟩; cases hs
    cases place <;> cases override <;> cases override' <;> exact .some (hno _ _)
  | breaks text => cases place <;> exact .some fun _ => rfl

section
variable {w : World} {strategies : StrategyRegistry}
  (hignore : ∀ ruleType strategy, strategies.get? ruleType = some strategy →
    strategy.IgnoresMessages w)
include hignore

/-- Questions about reworded declarations are answered by complaints of the same rule types. -/
theorem Question.Peer.complaint?_rel {name : String} {q q' : Question}
    (h : Question.Peer w strategies Declaration.Reworded q q') :
    Option.Rel (fun c c' => c.1 = c'.1 ∧ (q.Breaks w name → c'.2 = c.2)) (q.complaint? w name)
      (q'.complaint? w name) := by
  obtain ⟨a, place, v⟩ := q
  obtain ⟨a', place', v'⟩ := q'
  obtain ⟨ha, hplace, hv⟩ := h
  dsimp only at ha hplace hv
  subst hplace hv
  cases ha with
  | nested each => exact .none
  | @predicate ruleType d d' strategy _ hget hd =>
    have hask : Verdict.ask w strategy d' name v = Verdict.ask w strategy d name v := by
      rw [Verdict.ask, Verdict.ask, hignore ruleType strategy hget v d d' name hd]
    have hrel := Verdict.messageAt?_rel w d.override? d'.override? place
      (Verdict.ask w strategy d name v)
    simp only [complaint?, ← Verdict.messageAt?_ask, hask]
    generalize (Verdict.ask w strategy d name v).messageAt? w d.override? place = m at hrel ⊢
    generalize (Verdict.ask w strategy d name v).messageAt? w d'.override? place = m' at hrel ⊢
    cases hrel with
    | none => exact .none
    | some htext =>
      refine .some ⟨rfl, ?_⟩
      rintro ⟨_, _, _, text, haction, hbreaks⟩
      cases haction
      exact htext ⟨text, hbreaks⟩

/-! ## Surveys -/

variable {supply supply' : Supply}

/-- Nested validations come to the same reports in other words, with messages of the trails there
are. -/
def World.Rewords (w : World) (supply supply' : Supply) (path : List Address) (v : Value)
    (reports reports' : List Report) : Prop :=
  ∃ xs, Report.Rephrased reports reports' xs ∧
    (xs.map fun x => (x.trail, x.before)).Subperm (w.trails supply path v) ∧
    ∀ x ∈ xs, w.Rephrases supply supply' path v x

omit hignore in
/-- Rephrasings of what a question leads to, seen from the object that it is put to. -/
theorem World.Rephrases.turn {path : List Address} {a : Address} {plan plan' : Plan} {p : Place}
    {e e' : Executor} {q q' : Question} {v : Value} {x : Rephrasing}
    (hc : w.heap.isComposite (.object a) = true) (ha : a ∉ path)
    (hplan : supply (w.classOf (.object a)) = .ok plan)
    (hplan' : supply' (w.classOf (.object a)) = .ok plan')
    (hasks : w.Asks plan (.object a) p e q) (hasks' : w.Asks plan' (.object a) p e' q')
    (hlabels : q'.labels e'.name = q.labels e.name) (hv : q.target? w.heap = some v)
    (hv' : q'.target? w.heap = some v) (h : w.Rephrases supply supply' (a :: path) v x) :
    w.Rephrases supply supply' path (.object a) (x.under p (q.labels e.name)) := by
  obtain ⟨hleads, hleads', hp, hp', hask, hask', hname, hplace, hsubject, hcomp, hcomp',
    hbreaks⟩ := h
  have hturn := hleads.turn hc ha hplan hasks hv
  have hturn' := hleads'.turn hc ha hplan' hasks' hv'
  rw [hlabels] at hturn'
  have h := World.Rephrases.intro (t := Trail.after ⟨_, _⟩ p) hturn hturn' hp hp' hask hask' hname
    hplace hsubject hcomp hcomp' hbreaks
  rw [List.append_assoc] at h
  exact h

/-- Corresponding questions to the same object are answered in the same way, in other words. -/
theorem Question.Peer.answer_reworded {path : List Address} {a : Address} {plan plan' : Plan}
    {p : Place} {e e' : Executor} {q q' : Question} {nested nested' : Value → Course (List Report)}
    (hq : Question.Peer w strategies Declaration.Reworded q q') (hname : e.name = e'.name)
    (hc : w.heap.isComposite (.object a) = true) (ha : a ∉ path)
    (hplan : supply (w.classOf (.object a)) = .ok plan)
    (hplan' : supply' (w.classOf (.object a)) = .ok plan')
    (hasks : w.Asks plan (.object a) p e q) (hasks' : w.Asks plan' (.object a) p e' q')
    (ih : ∀ v, Alike (w.Rewords supply supply' (a :: path) v) (nested v).outcome
      (nested' v).outcome) :
    Alike (Option.Rel fun x x' => ∃ ys, Finding.Rephrased e.name x x' ys ∧
        (ys.map fun y => (y.trail, y.before)).Subperm
          (q.trails w e.name (w.trails supply (a :: path)) p) ∧
        ∀ y ∈ ys, w.Rephrases supply supply' path (.object a) y)
      (q.answer w e.name nested).outcome (q'.answer w e'.name nested').outcome := by
  rw [outcome_answer, outcome_answer, ← hq.target?]
  cases hv : q.target? w.heap with
  | some v =>
    have hv' : q'.target? w.heap = some v := hq.target? ▸ hv
    have hlabels : q'.labels e'.name = q.labels e.name := by
      rw [labels, labels, hq.place, hname]
    refine (ih v).map fun reports reports' _ _ hreports => ?_
    obtain ⟨xs, hxs, hsub, hall⟩ := hreports
    rw [← hname, ← hq.place]
    refine optionRel_imp (Finding.rephrased_ofReports? p hxs) fun x x' hx => ⟨_, hx, ?_, ?_⟩
    · rw [trails_of_target hv, List.map_map]
      obtain ⟨found, hperm, hfound⟩ := hsub
      have hmap := hperm.map fun y : Trail × Remark => (y.1.after p, y.2.under (q.labels e.name))
      rw [List.map_map] at hmap
      exact ⟨_, hmap, hfound.map _⟩
    · intro y hy
      obtain ⟨x, hx, rfl⟩ := List.mem_map.1 hy
      exact (hall x hx).turn hc ha hplan hplan' hasks hasks' hlabels hv hv'
  | none =>
    have hrel : Option.Rel (fun c c' => c.1 = c'.1 ∧ (q.Breaks w e.name → c'.2 = c.2))
        (q.complaint? w e.name) (q'.complaint? w e.name) := hq.complaint?_rel hignore
    rw [trails_of_no_target hv, ← hname]
    refine .ok ?_
    generalize hcomp : q.complaint? w e.name = c at hrel ⊢
    generalize hcomp' : q'.complaint? w e.name = c' at hrel ⊢
    cases hrel with
    | none => exact .none
    | @some c c' h =>
      obtain ⟨ruleType, text⟩ := c
      obtain ⟨_, text'⟩ := c'
      obtain ⟨rfl, hbreaks⟩ := h
      refine .some ⟨_, .message ⟨[], p⟩ ruleType text text', .refl _, ?_⟩
      have hx : w.Rephrases supply supply' path (.object a) ⟨⟨[], p⟩,
          ⟨[] ++ [(e.name, none)], ruleType, text⟩, ⟨[] ++ [(e.name, none)], ruleType, text'⟩⟩ :=
        .intro (.stay hc ha) (.stay hc ha) hplan hplan' hasks hasks' hname hq.place hq.subject
          hcomp (hname ▸ hcomp') hbreaks
      exact List.forall_mem_singleton.2 hx

omit hignore in
/-- What two loops find side by side holds messages of the trails there are, none of them twice, if
that is so for what they find in any two elements. -/
theorem gather_reworded {ι α α' β β' : Type} {F : β → β' → List Rephrasing → Prop}
    {P : Rephrasing → Prop} {T : ι → List (Trail × Remark)} {first : Bool}
    {look : α → Course (Option β)} {look' : α' → Course (Option β')} {f : ι → α} {g : ι → α'}
    {zs : List ι} (h : ∀ z ∈ zs, Alike (Option.Rel fun b b' => ∃ ys, F b b' ys ∧
        (ys.map fun y => (y.trail, y.before)).Subperm (T z) ∧ ∀ y ∈ ys, P y)
      (look (f z)).outcome (look' (g z)).outcome) :
    Alike (fun bs bs' => ∃ us : List ((β × β') × List Rephrasing), us.map (·.1.1) = bs ∧
        us.map (·.1.2) = bs' ∧ (∀ u ∈ us, F u.1.1 u.1.2 u.2) ∧
        ((us.flatMap (·.2)).map fun y => (y.trail, y.before)).Subperm (zs.flatMap T) ∧
        ∀ y ∈ us.flatMap (·.2), P y)
      (Course.gather first look (zs.map f)).outcome
      (Course.gather first look' (zs.map g)).outcome := by
  refine (Course.gather_alike h).imp fun bs bs' hbs => ?_
  obtain ⟨xs, hsub, rfl, rfl, hxs⟩ := hbs
  have hxs : ∀ x, ∃ ys, x ∈ xs → F x.2.1 x.2.2 ys ∧
      (ys.map fun y => (y.trail, y.before)).Subperm (T x.1) ∧ ∀ y ∈ ys, P y := by
    intro x
    by_cases hx : x ∈ xs
    · obtain ⟨ys, hys⟩ := hxs x hx
      exact ⟨ys, fun _ => hys⟩
    · exact ⟨[], fun hmem => absurd hmem hx⟩
  choose ys hys using hxs
  refine ⟨xs.map fun x => (x.2, ys x), ?_, ?_, ?_, ?_, ?_⟩
  · rw [List.map_map]
    rfl
  · rw [List.map_map]
    rfl
  · intro u hu
    obtain ⟨x, hx, rfl⟩ := List.mem_map.1 hu
    exact (hys x hx).1
  · rw [List.flatMap_map, List.map_flatMap]
    have hall : (xs.flatMap fun x => (ys x).map fun y => (y.trail, y.before)).Subperm
        (xs.flatMap fun x => T x.1) := subperm_flatMap_congr fun x hx => (hys x hx).2.1
    refine hall.trans ?_
    have hfound := hsub.flatMap T
    rw [List.flatMap_map] at hfound
    exact hfound.subperm
  · intro y hy
    rw [List.flatMap_map] at hy
    obtain ⟨x, hx, hy⟩ := List.mem_flatMap.1 hy
    exact (hys x hx).2.2 y hy

section
variable {first : Bool} {path : List Address} {a : Address} {plan plan' : Plan} {i : Nat}
  {e e' : Executor} {nested nested' : Value → Course (List Report)}
  (he : Executor.Peer w strategies Declaration.Reworded e e')
  (hc : w.heap.isComposite (.object a) = true) (ha : a ∉ path)
  (hplan : supply (w.classOf (.object a)) = .ok plan)
  (hplan' : supply' (w.classOf (.object a)) = .ok plan')
  (hi : plan.executors[i]? = some e) (hi' : plan'.executors[i]? = some e')
  (ih : ∀ v, Alike (w.Rewords supply supply' (a :: path) v) (nested v).outcome
    (nested' v).outcome)
include he hc ha hplan hplan' hi hi' ih

/-- Corresponding executors find the same on an object, in other words. -/
theorem Executor.Peer.found_reworded :
    Alike (fun found found' => ∃ us : List ((Finding × Finding) × List Rephrasing),
        us.map (·.1.1) = found ∧ us.map (·.1.2) = found' ∧
        (∀ u ∈ us, Finding.Rephrased e.name u.1.1 u.1.2 u.2) ∧
        ((us.flatMap (·.2)).map fun y => (y.trail, y.before)).Subperm
          (e.trails w (w.trails supply (a :: path)) (.object a) i) ∧
        ∀ y ∈ us.flatMap (·.2), w.Rephrases supply supply' path (.object a) y)
      (Course.gather first (Question.answer w e.name nested) (e.questions w (.object a))).outcome
      (Course.gather first (Question.answer w e'.name nested')
        (e'.questions w (.object a))).outcome := by
  have hquestions := he.questions Declaration.Reworded.peer (.object a)
  obtain ⟨hplaces, hfst, hsnd, hpairs⟩ := map_zipIdx_zip_of_forall₂ hquestions
  have htrails : e.trails w (w.trails supply (a :: path)) (.object a) i =
      ((e.questions w (.object a)).zip (e'.questions w (.object a))).zipIdx.flatMap fun z =>
        z.1.1.trails w e.name (w.trails supply (a :: path)) (.of i z.2) := by
    rw [trails, ← hplaces, List.flatMap_map]
  rw [htrails]
  generalize ((e.questions w (.object a)).zip (e'.questions w (.object a))).zipIdx = zs
    at hfst hsnd hpairs ⊢
  rw [← hfst, ← hsnd]
  refine gather_reworded fun z hz => ?_
  obtain ⟨hq, hq', hpeer⟩ := hpairs z hz
  have hasks : w.Asks plan (.object a) (.of i z.2) e z.1.1 := ⟨hi, hq⟩
  have hasks' : w.Asks plan' (.object a) (.of i z.2) e' z.1.2 := ⟨hi', hq'⟩
  exact hpeer.answer_reworded hignore he.name hc ha hplan hplan' hasks hasks' ih

/-- Corresponding executors report the same on an object, in other words. -/
theorem Executor.Peer.survey_reworded :
    Alike (Option.Rel fun r r' => ∃ xs, Report.Rephrased [r] [r'] xs ∧
        (xs.map fun x => (x.trail, x.before)).Subperm
          (e.trails w (w.trails supply (a :: path)) (.object a) i) ∧
        ∀ x ∈ xs, w.Rephrases supply supply' path (.object a) x)
      (e.survey w first nested (.object a)).outcome
      (e'.survey w first nested' (.object a)).outcome := by
  rw [outcome_survey, outcome_survey]
  refine (he.found_reworded hignore hc ha hplan hplan' hi hi' ih).map fun found found' _ _ h => ?_
  obtain ⟨us, rfl, rfl, hus, hsub, hall⟩ := h
  have hnone : Findings.Rephrased e.name .none .none [] [] := ⟨rfl, rfl, rfl, rfl, rfl⟩
  obtain ⟨c, below, hfindings, hperm⟩ := hnone.addAll hus
  have hlocation : e.location = e'.location := he.location fun d d' hd => hd.location
  rw [← he.name, ← hlocation]
  refine optionRel_imp (hfindings.report? e.location) fun r r' hr => ⟨_, hr, ?_, ?_⟩
  · exact (hperm.map _).subperm.trans hsub
  · intro x hx
    exact hall x (hperm.mem_iff.1 hx)

end

/-- Plans of reworded declarations make surveys come to the same reports in other words, or fail
alike, whether they stop early or not. -/
theorem World.survey_reworded (hsupply : ∀ c,
      Alike (Plan.Peer w strategies Declaration.Reworded) (supply c) (supply' c))
    (first : Bool) (path : List Address) (v : Value) :
    Alike (w.Rewords supply supply' path v) (w.survey first supply path v).outcome
      (w.survey first supply' path v).outcome := by
  induction path, v using enter_induction with
  | skip path v hs =>
    rw [survey_of_skips hs, survey_of_skips hs]
    exact .ok ⟨[], ⟨rfl, rfl, rfl⟩, List.nil_subperm, List.forall_mem_nil _⟩
  | enter path a hc ha ih =>
    rw [survey_enter hc ha, survey_enter hc ha, Course.outcome_bind, Course.outcome_bind]
    have hplans := hsupply (w.classOf (.object a))
    rw [Course.outcome_plan, Course.outcome_plan]
    generalize hplan : supply (w.classOf (.object a)) = outcome at hplans ⊢
    generalize hplan' : supply' (w.classOf (.object a)) = outcome' at hplans ⊢
    cases hplans with
    | error fault => exact .error fault
    | @ok plan plan' hpeer =>
      obtain ⟨hplaces, hfst, hsnd, hpairs⟩ := map_zipIdx_zip_of_forall₂ hpeer.executors
      have htrails : w.trails supply path (.object a) =
          (plan.executors.zip plan'.executors).zipIdx.flatMap fun z =>
            z.1.1.trails w (w.trails supply (a :: path)) (.object a) z.2 := by
        rw [trails_enter hc ha hplan, ← hplaces, List.flatMap_map]
      change Alike (w.Rewords supply supply' path (.object a))
        (Course.gather first (Executor.survey w first (w.survey first supply (a :: path))
          (.object a)) plan.executors).outcome
        (Course.gather first (Executor.survey w first (w.survey first supply' (a :: path))
          (.object a)) plan'.executors).outcome
      unfold Rewords
      rw [htrails]
      generalize (plan.executors.zip plan'.executors).zipIdx = zs at hfst hsnd hpairs ⊢
      -- an executor is told from others by its place, so messages of two of them have two trails
      have hloop : ∀ z ∈ zs, Alike (Option.Rel fun r r' => ∃ xs, Report.Rephrased [r] [r'] xs ∧
            (xs.map fun x => (x.trail, x.before)).Subperm
              (z.1.1.trails w (w.trails supply (a :: path)) (.object a) z.2) ∧
            ∀ x ∈ xs, w.Rephrases supply supply' path (.object a) x)
          (z.1.1.survey w first (w.survey first supply (a :: path)) (.object a)).outcome
          (z.1.2.survey w first (w.survey first supply' (a :: path)) (.object a)).outcome := by
        intro z hz
        obtain ⟨hi, hi', hpeer⟩ := hpairs z hz
        exact hpeer.survey_reworded hignore hc ha hplan hplan' hi hi' ih
      rw [← hfst, ← hsnd]
      refine (gather_reworded hloop).imp fun reports reports' h => ?_
      obtain ⟨us, rfl, rfl, hus, hsub, hall⟩ := h
      exact ⟨us.flatMap (·.2), Report.rephrased_flatMap hus, hsub, hall⟩

end

/-- Other messages make no difference but to the text of messages. If strategies do not look at the
messages of declarations, as none of those that are always there does, whatever checks callers have,
then a validation under declarations with other messages, with messages added or without those that
there were, fails alike or comes to reports of the same outline: on the same properties, with the
same locations and places, the same failed rules in the same order, and as many messages of each.
Messages in the same place come from the same question, no question being counted twice, and where
its strategy fails they are one and the same. All this holds whether validations stop early or not.
-/
theorem Setup.validate_reworded (s : Setup) (rules : Registry) (first : Bool)
    (log log' : List Record) (root : Value)
    (hignore : ∀ ruleType strategy, s.strategies.get? ruleType = some strategy →
      strategy.IgnoresMessages s.world)
    (hrules : ∀ c, List.Forall₂ Declaration.Reworded (s.rules.rulesOf c) (rules.rulesOf c)) :
    let s' : Setup := { s with rules }
    (∀ name ruleType strategy, (StrategyRegistry.initial name true).get? ruleType = some strategy →
      ∀ w, strategy.IgnoresMessages w) ∧
    Alike (fun reports reports' => Report.outlineAll reports = Report.outlineAll reports' ∧
        ∃ xs : List Rephrasing, xs.map (·.before) = Report.remarksAll reports ∧
          xs.map (·.after) = Report.remarksAll reports' ∧ (xs.map (·.trail)).Nodup ∧
          ∀ x ∈ xs, s.world.Rephrases (s.supply []) (s'.supply []) [] root x)
      ((s.aborting first).validate root ⟨[], [], log⟩).1
      ((s'.aborting first).validate root ⟨[], [], log'⟩).1 := by
  intro s'
  refine ⟨fun name ruleType strategy hget w =>
    Strategy.standing_ignoresMessages (Catalog.mem_of_get? hget) w, ?_⟩
  have hsupply : ∀ c, Alike (Plan.Peer s.world s.strategies Declaration.Reworded) (s.supply [] c)
      (s'.supply [] c) := fun c => s.supply_peers Declaration.Reworded.peer (hrules c)
  rw [validate_fst, validate_fst]
  refine (World.survey_reworded hignore hsupply first [] root).imp fun reports reports' h => ?_
  obtain ⟨xs, hxs, ⟨found, hperm, hsub⟩, hall⟩ := h
  have hnodup : (found.map Prod.fst).Nodup := (World.nodup_trails [] root).sublist (hsub.map _)
  have htrails := (hperm.map Prod.fst).nodup_iff.1 hnodup
  rw [List.map_map] at htrails
  exact ⟨hxs.outline, xs, hxs.before, hxs.after, htrails, hall⟩

/-! ## The ring with an empty message -/

namespace Ring

/-- The rules of the ring, where labels that are no text get an empty message. -/
def reworded : Registry :=
  (Registry.empty "rules").addAll
    [rule "next" "ValidateNested", { rule "label" "IsString" with message := some (.text "") }]

/-- What is wrong with the label of a node, without a word about it. -/
def bareReport : Report :=
  .mk "label" none (some [("IsString", [.text ""])]) none none

theorem forall₂_reworded (c : ClassId) :
    List.Forall₂ Declaration.Reworded (setup.rules.rulesOf c) (reworded.rulesOf c) := by
  by_cases hc : ClassId.declared 0 = c
  · rw [← hc]
    exact .cons ⟨rfl, rfl, rfl, rfl, rfl, rfl, rfl⟩ (.cons ⟨rfl, rfl, rfl, rfl, rfl, rfl, rfl⟩ .nil)
  · have hnone : reworded.rulesOf c = [] := by
      simp only [reworded, Registry.addAll, List.foldl, Registry.rulesOf_add, rule, hc, if_false]
      rfl
    rw [rulesOf_other hc, hnone]
    exact .nil

theorem validate_reworded_fst :
    ((Setup.aborting { setup with rules := reworded } false).validate (.object 0) ⟨[], [], []⟩).1 =
      .ok [.mk "next" none none (some [bareReport]) none, bareReport] := by
  with_unfolding_all rfl

end Ring

theorem Setup.validate_reworded_ring :
    (∀ ruleType strategy, Ring.setup.strategies.get? ruleType = some strategy →
      strategy.IgnoresMessages Ring.world) ∧
    (∀ c, List.Forall₂ Declaration.Reworded (Ring.setup.rules.rulesOf c)
      (Ring.reworded.rulesOf c)) ∧
    Report.outlineAll Ring.reports = Report.outlineAll
      [.mk "next" none none (some [Ring.bareReport]) none, Ring.bareReport] := by
  have hignore : ∀ ruleType strategy, Ring.setup.strategies.get? ruleType = some strategy →
      strategy.IgnoresMessages Ring.world := fun ruleType strategy hget =>
    Strategy.standing_ignoresMessages (Catalog.mem_of_get? hget) Ring.world
  have h := (validate_reworded Ring.setup Ring.reworded false [] [] (.object 0) hignore
    Ring.forall₂_reworded).2
  rw [Ring.validate_fst, Ring.validate_reworded_fst] at h
  cases h with
  | ok h => exact ⟨hignore, Ring.forall₂_reworded, h.1⟩

end Rulebook
