import Mathlib.Data.Finset.Card
import Mathlib.Data.Finset.Range
import Rulebook.Proofs.Gather

/-!
# Surveys

`World.survey` is the course of a validation, given where plans come from and which objects are
being validated. It runs over questions: an action put to the value of a property, or to one element
of it. What an executor asks is a list (`Executor.questions`), so that stopping early is the same
loop for elements, actions and properties (`Course.gather`). What a strategy answers comes to a
message that is told by a table (`Declaration.messageFor?`).

An object that is entered leaves one less that is not being validated (`Heap.card_free_cons`), so
the survey needs no bound on its depth, and facts about it are proved by induction over the objects
that are entered (`World.enter_induction`). It depends on no more plans than it asks for
(`World.survey_congr`).
-/

set_option autoImplicit false

namespace Rulebook

/-! ## Questions -/

/-- The rule holds for every element of a sequence. -/
def Action.each : Action → Bool
  | .predicate _ d _ => d.each
  | .nested each => each

/-- An action put to a value. -/
structure Question where
  action : Action
  /-- The place of the value, when it is an element of a sequence. -/
  place : Option Nat
  subject : Value

/-- The questions that an action puts to the value of a property. -/
def Action.questions (h : Heap) (v : Value) (a : Action) : List Question :=
  match a.each, h.sequence? v with
  | true, some (n, get) => (List.range n).map fun i => ⟨a, some i, get i⟩
  | _, _ => [⟨a, none, v⟩]

/-- The elements are asked about one by one if the action asks for that and there are elements. -/
theorem Action.questions_cases (h : Heap) (v : Value) (a : Action) :
    (∃ n get, a.each = true ∧ h.sequence? v = some (n, get) ∧
      a.questions h v = (List.range' 0 n).map fun i => ⟨a, some i, get i⟩) ∨
    ((a.each = false ∨ h.sequence? v = none) ∧ a.questions h v = [⟨a, none, v⟩]) := by
  unfold questions
  split
  · rename_i n get he hs
    exact .inl ⟨n, get, he, hs, by rw [List.range_eq_range']⟩
  · rename_i hn
    refine .inr ⟨?_, rfl⟩
    cases he : a.each with
    | false => exact .inl rfl
    | true =>
      cases hs : h.sequence? v with
      | none => exact .inr rfl
      | some p => exact absurd hs (hn p.1 p.2 he)

/-- What an action does with a value, next to its questions: it takes the elements one by one, or
the value as a whole. -/
theorem Action.take_cases (s : Setup) (name : String) (inspect : Value → Validation (List Report))
    (v : Value) (a : Action) (f : Findings) :
    (∃ n get, a.questions s.world.heap v = (List.range' 0 n).map (fun i => ⟨a, some i, get i⟩) ∧
      a.take s name inspect v f = match a with
        | .predicate ruleType d strategy => checkEach s name ruleType d strategy get n 0 f
        | .nested _ => visitEach s name inspect get n 0 f) ∨
    (a.questions s.world.heap v = [⟨a, none, v⟩] ∧ a.take s name inspect v f = match a with
      | .predicate ruleType d strategy => check s name ruleType d strategy v f
      | .nested _ => visit s inspect v f) := by
  obtain ⟨n, get, he, hs, hq⟩ | ⟨hw, hq⟩ := a.questions_cases s.world.heap v
  · refine .inl ⟨n, get, hq, ?_⟩
    cases a with
    | predicate ruleType d strategy =>
      replace he : d.each = true := he
      simp only [take, he, hs]
    | nested each =>
      obtain rfl : each = true := he
      simp only [take, hs]
  · refine .inr ⟨hq, ?_⟩
    cases a with
    | predicate ruleType d strategy =>
      rcases hw with hw | hw
      · replace hw : d.each = false := hw
        simp only [take, hw]
      · simp only [take, hw]
        cases d.each <;> rfl
    | nested each =>
      rcases hw with hw | hw
      · obtain rfl : each = false := hw
        rfl
      · simp only [take, hw]

/-- The questions that an executor puts to an object, in order: none when the property may be absent
and is. -/
def Executor.questions (w : World) (o : Value) (e : Executor) : List Question :=
  let v := (w.resolve o e.key).1
  if e.isOptional && Heap.isAbsent v then [] else e.actions.flatMap (·.questions w.heap v)

/-- The message that is recorded for a value, or for an element of a sequence. -/
def Verdict.messageAt? (w : World) (override : Option Value) : Option Nat → Verdict → Option Value
  | none, verdict => verdict.message? override
  | some i, verdict => verdict.elementMessage? w override i

/-- The message that a strategy's answer about a value comes to: none when the value passes. The
text that a declaration has instead of a complaint does not replace what stands for a failure of the
strategy itself. At a place in a sequence, the place is told as well. -/
def Declaration.messageFor? (w : World) (strategy : Strategy) (name : String) (d : Declaration)
    (place : Option Nat) (v : Value) : Option Value :=
  match strategy w v d name, d.override?, place with
  | .ok none, _, _ => none
  | .ok (some _), some m, none => some m
  | .ok (some _), some m, some i =>
    some (.text (w.plainText m ++ " (index: " ++ toString i ++ ")"))
  | .ok (some complaint), none, none => some (.text complaint)
  | .ok (some complaint), none, some i =>
    some (.text (complaint ++ " (at index " ++ toString i ++ ")"))
  | .error fault, _, none => some (.text ("Internal validation error: " ++ fault.message))
  | .error fault, _, some i =>
    some (.text
      ("Internal validation error: " ++ fault.message ++ " (at index " ++ toString i ++ ")"))

theorem Verdict.messageAt?_ask (w : World) (strategy : Strategy) (name : String) (d : Declaration)
    (place : Option Nat) (v : Value) :
    (ask w strategy d name v).messageAt? w d.override? place =
      d.messageFor? w strategy name place v := by
  unfold ask Declaration.messageFor?
  cases strategy w v d name with
  | error fault => cases place <;> rfl
  | ok answer =>
    cases answer with
    | none => cases place <;> rfl
    | some complaint => cases place <;> cases d.override? <;> rfl

/-- A strategy that complains or fails is recorded, wherever the value stands. -/
theorem Declaration.messageFor?_eq_none_iff {w : World} {strategy : Strategy} {name : String}
    {d : Declaration} {place : Option Nat} {v : Value} :
    d.messageFor? w strategy name place v = none ↔ strategy w v d name = .ok none := by
  unfold messageFor?
  cases strategy w v d name with
  | error fault => cases place <;> simp
  | ok answer => cases answer <;> cases place <;> cases d.override? <;> simp

/-- An answer that counts. -/
inductive Finding where
  | message (ruleType : String) (text : Value)
  | nested (reports : List Report) (nonempty : reports ≠ [])

namespace Finding

/-- The reports on the value itself. -/
def reports : Finding → List Report
  | .message .. => []
  | .nested reports _ => reports

/-- The reports on a value, or on an element of a sequence. -/
def ofReports? (name : String) (place : Option Nat) (reports : List Report) : Option Finding :=
  if h : reports = [] then none
  else match place with
    | none => some (.nested reports h)
    | some i => some (.nested [.mk (elementName name i) none none (some reports) (some i)] (by simp))

end Finding

namespace Question

/-- The message with its rule type, if the question is put to a strategy and the answer counts. -/
def complaint? (w : World) (name : String) (q : Question) : Option (String × Value) :=
  match q.action with
  | .predicate ruleType d strategy =>
    (d.messageFor? w strategy name q.place q.subject).map (ruleType, ·)
  | .nested _ => none

/-- The value to validate, if the question is a nested one and the value can have rules. -/
def target? (h : Heap) (q : Question) : Option Value :=
  match q.action with
  | .predicate .. => none
  | .nested _ => if h.isComposite q.subject then some q.subject else none

/-- Answers a question, the values that nested rules lead to being validated by `nested`. -/
def answer (w : World) (name : String) (nested : Value → Course (List Report)) (q : Question) :
    Course (Option Finding) :=
  match q.action with
  | .predicate ruleType d strategy => do
    Course.note ((Verdict.ask w strategy d name q.subject).records ruleType name)
    pure ((q.complaint? w name).map fun (ruleType, text) => .message ruleType text)
  | .nested _ =>
    match q.target? w.heap with
    | some v => do
      let reports ← nested v
      pure (Finding.ofReports? name q.place reports)
    | none => pure none

variable {w : World} {name : String} {nested : Value → Course (List Report)} {q : Question}

/-- An answer counts unless the strategy says that the value passes. -/
theorem complaint?_eq_none_iff {ruleType : String} {d : Declaration} {strategy : Strategy}
    (hq : q.action = .predicate ruleType d strategy) :
    q.complaint? w name = none ↔ strategy w q.subject d name = .ok none := by
  simp only [complaint?, hq, Option.map_eq_none_iff, Declaration.messageFor?_eq_none_iff]

/-- Only strategies complain. -/
theorem predicate_of_complaint {c : String × Value} (h : q.complaint? w name = some c) :
    ∃ ruleType d strategy, q.action = .predicate ruleType d strategy := by
  cases hq : q.action with
  | predicate ruleType d strategy => exact ⟨ruleType, d, strategy, rfl⟩
  | nested each =>
    simp only [complaint?, hq] at h
    cases h

theorem isComposite_target {h : Heap} {v : Value} (hv : q.target? h = some v) :
    h.isComposite v = true := by
  unfold target? at hv
  split at hv
  · cases hv
  · split at hv
    · cases hv; assumption
    · cases hv

/-- A question is put to a strategy or leads to a value, never both. -/
theorem complaint_of_target {v : Value} (h : q.target? w.heap = some v) :
    q.complaint? w name = none := by
  unfold target? at h
  unfold complaint?
  split at h
  · cases h
  · rfl

/-- What comes of a question: a message, or the reports on the value that it leads to. -/
theorem outcome_answer : (q.answer w name nested).outcome =
    match q.target? w.heap with
    | some v => (nested v).outcome.map (Finding.ofReports? name q.place)
    | none => .ok ((q.complaint? w name).map fun (ruleType, text) => .message ruleType text) := by
  cases hq : q.action with
  | predicate ruleType d strategy =>
    have ht : q.target? w.heap = none := by simp only [target?, hq]
    simp only [answer, hq, ht]
    rfl
  | nested each =>
    have hcomp : q.complaint? w name = none := by simp only [complaint?, hq]
    simp only [answer, hq, hcomp]
    cases q.target? w.heap with
    | none => rfl
    | some v =>
      dsimp only
      rw [Course.outcome_bind]
      cases (nested v).outcome <;> rfl

theorem answer_eq_ok {o : Option Finding} : (q.answer w name nested).outcome = .ok o ↔
    (∃ v reports, q.target? w.heap = some v ∧ (nested v).outcome = .ok reports ∧
      o = Finding.ofReports? name q.place reports) ∨
    (q.target? w.heap = none ∧
      o = (q.complaint? w name).map fun (ruleType, text) => .message ruleType text) := by
  rw [outcome_answer]
  cases q.target? w.heap with
  | none => simp [eq_comm]
  | some v => cases hr : (nested v).outcome <;> simp [Except.map, hr, eq_comm]

end Question

namespace Findings

/-- Adds an answer that counts. -/
def add (f : Findings) : Finding → Findings
  | .message ruleType text => f.record ruleType text
  | .nested reports _ => f.addChildren reports

/-- Adds answers one after the other. -/
def addAll (f : Findings) (found : List Finding) : Findings := found.foldl add f

@[simp] theorem addAll_nil (f : Findings) : f.addAll [] = f := rfl

@[simp] theorem addAll_cons (f : Findings) (x : Finding) (found : List Finding) :
    f.addAll (x :: found) = (f.add x).addAll found := rfl

theorem addAll_append (f : Findings) (as bs : List Finding) :
    f.addAll (as ++ bs) = (f.addAll as).addAll bs := List.foldl_append

theorem children_addAll (f : Findings) (found : List Finding) :
    (f.addAll found).children = f.children ++ found.flatMap (·.reports) := by
  induction found generalizing f with
  | nil => simp
  | cons x rest ih =>
    rw [addAll_cons, ih]
    cases x <;> simp [add, record, addChildren, Finding.reports]

theorem isClear_add (f : Findings) (x : Finding) : (f.add x).isClear = false := by
  cases x with
  | message ruleType text =>
    cases hf : f.failed with
    | nil => simp [add, record, isClear, hf, Catalog.alter]
    | cons e rest =>
      simp only [add, record, isClear, hf, Catalog.alter]
      split <;> simp
  | nested reports h => simp [add, addChildren, isClear, h]

theorem isClear_addAll {f : Findings} (found : List Finding) (h : f.isClear = true) :
    (f.addAll found).isClear = found.isEmpty := by
  induction found using List.reverseRecOn with
  | nil => exact h
  | append_singleton as x ih => rw [addAll_append]; simp [isClear_add]

/-- A report is made when something was found, and holds what there is. -/
theorem report?_eq_some {f : Findings} {name : String} {location : Option String} {r : Report} :
    f.report? name location = some r ↔ f.isClear = false ∧
      r = .mk name location (nonempty? f.failed) (nonempty? f.children) .none := by
  unfold report?
  cases f.isClear <;> simp [eq_comm]

/-- Answers questions and adds what counts. -/
def collect (first : Bool) (look : Question → Course (Option Finding)) (f : Findings)
    (qs : List Question) : Course Findings := do
  let found ← Course.gather first look qs
  pure (f.addAll found)

section
variable {first : Bool} {look : Question → Course (Option Finding)} (f : Findings)

@[simp] theorem collect_nil : collect first look f [] = pure f := rfl

theorem collect_cons (q : Question) (rest : List Question) :
    collect first look f (q :: rest) = (do
      match ← look q with
      | .none => collect first look f rest
      | .some x => if first then pure (f.add x) else collect first look (f.add x) rest) := by
  simp only [collect, Course.gather, Course.bind_assoc]
  congr 1
  funext o
  cases o with
  | none => rfl
  | some x => cases first <;> simp [Course.bind_assoc]

theorem collect_append {f : Findings} (h : first = true → f.isClear = true)
    (as bs : List Question) :
    collect first look f (as ++ bs) = (do
      let f ← collect first look f as
      if first && !f.isClear then pure f else collect first look f bs) := by
  simp only [collect, Course.gather_append, Course.bind_assoc, Course.pure_bind]
  congr 1
  funext found
  cases first with
  | false => simp [addAll_append, Course.bind_assoc]
  | true =>
    rw [isClear_addAll found (h rfl)]
    cases found <;> simp

end

end Findings

/-! ## Surveys -/

/-- Validates one property of an object. -/
def Executor.survey (w : World) (first : Bool) (nested : Value → Course (List Report)) (o : Value)
    (e : Executor) : Course (Option Report) := do
  Course.note (w.resolve o e.key).2
  let f ← Findings.none.collect first (Question.answer w e.name nested) (e.questions w o)
  pure (f.report? e.name e.location)

section
variable {w : World} {first : Bool} {nested : Value → Course (List Report)} {o : Value}
  {e : Executor}

/-- The report on a property comes from what its questions have found. -/
theorem Executor.outcome_survey : (e.survey w first nested o).outcome =
    (Course.gather first (Question.answer w e.name nested) (e.questions w o)).outcome.map
      fun found => (Findings.none.addAll found).report? e.name e.location := by
  simp only [survey, Findings.collect, Course.outcome_bind, Course.outcome_note]
  cases (Course.gather first (Question.answer w e.name nested) (e.questions w o)).outcome <;> rfl

theorem Executor.survey_eq_ok {r : Option Report} :
    (e.survey w first nested o).outcome = .ok r ↔ ∃ found,
      (Course.gather first (Question.answer w e.name nested) (e.questions w o)).outcome = .ok found ∧
        (Findings.none.addAll found).report? e.name e.location = r := by
  rw [outcome_survey]
  cases (Course.gather first (Question.answer w e.name nested) (e.questions w o)).outcome <;>
    simp [Except.map]

end

namespace Heap

/-- The objects that are not being validated. -/
def free (h : Heap) (path : List Address) : Finset Address :=
  Finset.range h.size \ path.toFinset

/-- Only objects can have rules of their own. -/
theorem eq_object {h : Heap} {v : Value} (hc : h.isComposite v = true) : ∃ a, v = .object a := by
  cases v with
  | object a => exact ⟨a, rfl⟩
  | _ => simp [isComposite, content?, object?] at hc

theorem lt_size {h : Heap} {a : Address} (hc : h.isComposite (.object a) = true) :
    a < h.size := by
  by_contra hlt
  simp [isComposite, content?, object?, Array.getElem?_eq_none (Nat.le_of_not_lt hlt)] at hc

theorem mem_free {h : Heap} {path : List Address} {a : Address}
    (hc : h.isComposite (.object a) = true) (ha : a ∉ path) : a ∈ h.free path := by
  simp [free, lt_size hc, ha]

theorem free_cons (h : Heap) (path : List Address) (a : Address) :
    h.free (a :: path) = (h.free path).erase a := by
  ext b
  simp only [free, List.toFinset_cons, Finset.mem_sdiff, Finset.mem_insert, Finset.mem_erase]
  tauto

/-- An object that is put on the path leaves one less off it. -/
theorem card_free_cons {h : Heap} {path : List Address} {a : Address}
    (hc : h.isComposite (.object a) = true) (ha : a ∉ path) :
    (h.free (a :: path)).card + 1 = (h.free path).card := by
  rw [free_cons, Finset.card_erase_add_one (mem_free hc ha)]

theorem card_free_le (h : Heap) (path : List Address) : (h.free path).card ≤ h.size :=
  (Finset.card_le_card Finset.sdiff_subset).trans_eq (Finset.card_range _)

end Heap

namespace World

/-- Validating a value (second) while some objects are being validated leads to validating another
(first) while the one it is found in is being validated as well. -/
inductive Calls (w : World) (supply : Supply) :
    Value × List Address → Value × List Address → Prop
  | intro {path : List Address} {a : Address} {plan : Plan} {e : Executor} {q : Question}
      {v : Value} : w.heap.isComposite (.object a) = true → a ∉ path →
      supply (w.classOf (.object a)) = .ok plan → e ∈ plan.executors →
      q ∈ e.questions w (.object a) → q.target? w.heap = some v →
      Calls w supply (v, a :: path) (.object a, path)

theorem Calls.card_free_lt {w : World} {supply : Supply} {c c' : Value × List Address}
    (h : w.Calls supply c' c) : (w.heap.free c'.2).card < (w.heap.free c.2).card := by
  obtain ⟨hc, ha, -⟩ := h
  exact Nat.lt_of_succ_le (Heap.card_free_cons hc ha).le

/-- The value is passed over: it cannot have rules, or it is an object that is being validated. -/
def Skips (w : World) (path : List Address) (v : Value) : Prop :=
  w.heap.isComposite v = false ∨ ∃ a ∈ path, v = .object a

theorem Skips.not_enters {w : World} {path : List Address} {a : Address}
    (h : w.Skips path (.object a)) : ¬(w.heap.isComposite (.object a) = true ∧ a ∉ path) := by
  rintro ⟨hc, ha⟩
  rcases h with h | ⟨b, hb, heq⟩
  · rw [hc] at h; cases h
  · cases heq; exact ha hb

theorem enters_of_not_skips {w : World} {path : List Address} {v : Value} (h : ¬w.Skips path v) :
    ∃ a, v = .object a ∧ w.heap.isComposite (.object a) = true ∧ a ∉ path := by
  have hc : w.heap.isComposite v = true := by
    by_contra hc
    exact h (.inl (by simpa using hc))
  obtain ⟨a, rfl⟩ := Heap.eq_object hc
  exact ⟨a, rfl, hc, fun ha => h (.inr ⟨a, ha, rfl⟩)⟩

/-- Induction over the objects that are entered: a value is passed over, or it is an object and what
holds for all values holds while that object is being validated as well. -/
@[elab_as_elim]
theorem enter_induction {w : World} {motive : List Address → Value → Prop}
    (skip : ∀ path v, w.Skips path v → motive path v)
    (enter : ∀ path a, w.heap.isComposite (.object a) = true → a ∉ path →
      (∀ v, motive (a :: path) v) → motive path (.object a))
    (path : List Address) (v : Value) : motive path v := by
  -- on the number of objects off the path, which an entry makes smaller
  induction hn : (w.heap.free path).card using Nat.strongRecOn generalizing path v with
  | _ n ih =>
    by_cases hskip : w.Skips path v
    · exact skip path v hskip
    obtain ⟨a, rfl, hc, ha⟩ := enters_of_not_skips hskip
    have hfree := Heap.card_free_cons hc ha
    exact enter path a hc ha fun v => ih _ (by omega) (a :: path) v rfl

variable (w : World) (first : Bool) (supply : Supply)

/-- Validates a value while the objects of `path` are being validated. -/
def survey (path : List Address) (v : Value) : Course (List Report) :=
  match v with
  | .object a =>
    if _h : w.heap.isComposite (.object a) = true ∧ a ∉ path then do
      let plan ← Course.plan supply (w.classOf (.object a))
      Course.gather first (Executor.survey w first (fun v => survey (a :: path) v) (.object a))
        plan.executors
    else pure []
  | _ => pure []
termination_by (w.heap.free path).card
decreasing_by have := Heap.card_free_cons _h.1 _h.2; omega

variable {w first supply} {path : List Address} {a : Address}

theorem survey_enter (hc : w.heap.isComposite (.object a) = true) (ha : a ∉ path) :
    w.survey first supply path (.object a) = (do
      let plan ← Course.plan supply (w.classOf (.object a))
      Course.gather first
        (Executor.survey w first (w.survey first supply (a :: path)) (.object a))
        plan.executors) := by
  rw [survey, dif_pos ⟨hc, ha⟩]

theorem survey_of_skips {v : Value} (h : w.Skips path v) :
    w.survey first supply path v = pure [] := by
  cases v with
  | object a => rw [survey, dif_neg h.not_enters]
  | _ => rw [survey]; intro _ h; cases h

end World

/-! ## Surveys that get the same plans -/

section
variable {P : ClassId → Prop} {w : World} {nested nested' : Value → Course (List Report)}

theorem Question.answer_congr {name : String} {q : Question}
    (hn : ∀ v, q.target? w.heap = some v → (nested v).AsksOnly P → nested' v = nested v)
    (h : (q.answer w name nested).AsksOnly P) : q.answer w name nested' = q.answer w name nested := by
  unfold answer at h ⊢
  split
  · rfl
  · split
    · rename_i hq _ v hv
      simp only [hq, hv] at h
      rw [hn v hv h.left]
    · rfl

theorem Executor.survey_congr {first : Bool} {o : Value} {e : Executor}
    (hn : ∀ q ∈ e.questions w o, ∀ v, q.target? w.heap = some v →
      (nested v).AsksOnly P → nested' v = nested v)
    (h : (e.survey w first nested o).AsksOnly P) :
    e.survey w first nested' o = e.survey w first nested o := by
  have h := (h.right rfl).left.left
  unfold survey Findings.collect
  rw [Course.gather_congr (fun q hq => Question.answer_congr (hn q hq)) h]

/-- A survey depends only on the plans of the classes it asks for. -/
theorem World.survey_congr {first : Bool} {supply supply' : Supply} (path : List Address)
    (v : Value) (h : (w.survey first supply path v).AsksOnly fun c => supply' c = supply c) :
    w.survey first supply' path v = w.survey first supply path v := by
  induction path, v using enter_induction with
  | skip path v hs => rw [survey_of_skips hs, survey_of_skips hs]
  | enter path a hc ha ih =>
    rw [survey_enter hc ha] at h
    rw [survey_enter hc ha, survey_enter hc ha]
    have hplan : Course.plan supply' (w.classOf (.object a)) =
        Course.plan supply (w.classOf (.object a)) := by
      rw [Course.plan, h.left _ (.head _)]
      rfl
    rw [hplan]
    refine Course.bind_congr _ fun plan hp => ?_
    exact Course.gather_congr (fun e _ => Executor.survey_congr fun _ _ v _ => ih v) (h.right hp)

end

end Rulebook
