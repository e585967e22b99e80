import Rulebook.Proofs.Survey

/-!
# Inspections follow surveys

One lemma for every part of the engine: each follows the corresponding part of the survey, provided
the nested validation it is given follows `t` on the values that are really handed to it
(`Question.target?`). `inspect_follows` closes the recursion: with as much room as there are objects
off the path, an inspection follows the survey, and so do the repeated entries of any recursion that
is deep enough (`enter_iterate_follows`).
-/

set_option autoImplicit false

namespace Rulebook

variable {s : Setup} {supply : Supply} {path : List Address} {name : String}
  {inspect : Value → Validation (List Report)} {t : Value → Course (List Report)}

/-- `inspect` follows `t` on the values that questions lead to. -/
def FollowsOn (s : Setup) (supply : Supply) (path : List Address)
    (inspect : Value → Validation (List Report)) (t : Value → Course (List Report))
    (qs : List Question) : Prop :=
  ∀ q ∈ qs, ∀ v, q.target? s.world.heap = some v → Follows s supply path (inspect v) (t v)

theorem FollowsOn.mono {as bs : List Question} (h : FollowsOn s supply path inspect t bs)
    (hs : ∀ q ∈ as, q ∈ bs) : FollowsOn s supply path inspect t as :=
  fun q hq => h q (hs q hq)

/-! ## Actions -/

namespace Action

theorem check_follows (ruleType : String) (d : Declaration) (strategy : Strategy) (v : Value)
    (f : Findings) :
    Follows s supply path (check s name ruleType d strategy v f)
      (f.collect s.settings.abortEarly (Question.answer s.world name t)
        [⟨.predicate ruleType d strategy, none, v⟩]) := by
  simp only [Findings.collect_cons, Findings.collect_nil, Question.answer, Question.complaint?,
    Course.bind_assoc, Course.pure_bind, ite_self, ← Verdict.messageAt?_ask]
  refine .bind (.note _) fun _ => ?_
  simp only [Verdict.messageAt?]
  cases (Verdict.ask s.world strategy d name v).message? d.override? <;> exact .pure _

theorem checkEach_follows (ruleType : String) (d : Declaration) (strategy : Strategy)
    (get : Nat → Value) (n i : Nat) (f : Findings) :
    Follows s supply path (checkEach s name ruleType d strategy get n i f)
      (f.collect s.settings.abortEarly (Question.answer s.world name t)
        ((List.range' i n).map fun i => ⟨.predicate ruleType d strategy, some i, get i⟩)) := by
  induction n generalizing i f with
  | zero => exact .pure _
  | succ n ih =>
    simp only [List.range'_succ, List.map_cons, Findings.collect_cons, Question.answer,
      Question.complaint?, Course.bind_assoc, Course.pure_bind, ← Verdict.messageAt?_ask]
    refine .bind (.note _) fun _ => ?_
    simp only [Verdict.messageAt?]
    cases (Verdict.ask s.world strategy d name (get i)).elementMessage? s.world d.override? i with
    | none => exact ih _ _
    | some text =>
      dsimp only [Option.map_some, Findings.add]
      split
      · exact .pure _
      · exact ih _ _

theorem visit_follows (each : Bool) (v : Value) (f : Findings)
    (h : FollowsOn s supply path inspect t [⟨.nested each, none, v⟩]) :
    Follows s supply path (visit s inspect v f)
      (f.collect s.settings.abortEarly (Question.answer s.world name t)
        [⟨.nested each, none, v⟩]) := by
  simp only [Findings.collect_cons, Findings.collect_nil, Question.answer, visit, ite_self]
  by_cases hc : s.world.heap.isComposite v
  · have ht : (Question.mk (.nested each) none v).target? s.world.heap = some v := by
      simp [Question.target?, hc]
    simp only [hc, ht, if_true, Course.bind_assoc, Course.pure_bind]
    refine .bind (h _ (.head _) v ht) fun reports => ?_
    cases reports <;> exact .pure _
  · have ht : (Question.mk (.nested each) none v).target? s.world.heap = none := by
      simp [Question.target?, hc]
    simp only [hc, ht, Course.pure_bind]
    exact .pure _

theorem visitEach_follows (each : Bool) (get : Nat → Value) (n i : Nat) (f : Findings)
    (h : FollowsOn s supply path inspect t
      ((List.range' i n).map fun i => ⟨.nested each, some i, get i⟩)) :
    Follows s supply path (visitEach s name inspect get n i f)
      (f.collect s.settings.abortEarly (Question.answer s.world name t)
        ((List.range' i n).map fun i => ⟨.nested each, some i, get i⟩)) := by
  induction n generalizing i f with
  | zero => exact .pure _
  | succ n ih =>
    simp only [List.range'_succ, List.map_cons] at h ⊢
    have ih := fun f => ih (i + 1) f (h.mono fun q => List.mem_cons_of_mem _)
    simp only [Findings.collect_cons, Question.answer, visitEach]
    by_cases hc : s.world.heap.isComposite (get i)
    · have ht : (Question.mk (.nested each) (some i) (get i)).target? s.world.heap =
          some (get i) := by simp [Question.target?, hc]
      simp only [hc, ht, if_true, Course.bind_assoc, Course.pure_bind]
      refine .bind (h _ (.head _) _ ht) fun reports => ?_
      cases reports with
      | nil => exact ih _
      | cons r rest =>
        simp only [List.isEmpty_cons, Bool.false_eq_true, if_false, Finding.ofReports?,
          reduceCtorEq, dite_false]
        split
        · exact .pure _
        · exact ih _
    · have ht : (Question.mk (.nested each) (some i) (get i)).target? s.world.heap = none := by
        simp [Question.target?, hc]
      simp only [hc, ht, Course.pure_bind]
      exact ih _

theorem take_follows (a : Action) (v : Value) (f : Findings)
    (h : FollowsOn s supply path inspect t (a.questions s.world.heap v)) :
    Follows s supply path (a.take s name inspect v f)
      (f.collect s.settings.abortEarly (Question.answer s.world name t)
        (a.questions s.world.heap v)) := by
  obtain ⟨n, get, hq, ht⟩ | ⟨hq, ht⟩ := a.take_cases s name inspect v f <;> rw [hq] at h ⊢ <;>
    rw [ht]
  · cases a with
    | predicate ruleType d strategy => exact checkEach_follows _ _ _ _ _ _ _
    | nested each => exact visitEach_follows _ _ _ _ _ h
  · cases a with
    | predicate ruleType d strategy => exact check_follows _ _ _ _ _
    | nested each => exact visit_follows _ _ _ h

theorem takeAll_follows (v : Value) (as : List Action) {f : Findings}
    (hf : s.settings.abortEarly = true → f.isClear = true)
    (h : FollowsOn s supply path inspect t (as.flatMap (·.questions s.world.heap v))) :
    Follows s supply path (takeAll s name inspect v as f)
      (f.collect s.settings.abortEarly (Question.answer s.world name t)
        (as.flatMap (·.questions s.world.heap v))) := by
  induction as generalizing f with
  | nil => exact .pure _
  | cons a rest ih =>
    simp only [List.flatMap_cons] at h ⊢
    rw [Findings.collect_append hf]
    refine .bind (take_follows a v f (h.mono fun q => List.mem_append_left _)) fun f => ?_
    split
    · exact .pure _
    · rename_i hstop
      exact ih (by simpa using hstop) (h.mono fun q => List.mem_append_right _)

end Action

/-! ## Executors -/

namespace Executor

theorem execute_follows (o : Value) (e : Executor)
    (h : FollowsOn s supply path inspect t (e.questions s.world o)) :
    Follows s supply path (e.execute s inspect o)
      (e.survey s.world s.settings.abortEarly t o) := by
  simp only [execute, survey, questions] at h ⊢
  refine .bind (.note _) fun _ => ?_
  split
  · exact .pure _
  · rename_i hp
    simp only [hp] at h
    exact .bind (Action.takeAll_follows _ _ (fun _ => rfl) h) fun f => .pure _

theorem executeAll_follows (o : Value) (es : List Executor)
    (h : ∀ e ∈ es, FollowsOn s supply path inspect t (e.questions s.world o)) :
    Follows s supply path (executeAll s inspect o es)
      (Course.gather s.settings.abortEarly (survey s.world s.settings.abortEarly t o) es) := by
  induction es with
  | nil => exact .pure _
  | cons e rest ih =>
    have ih := ih fun e he => h e (.tail _ he)
    refine .bind (execute_follows o e (h e (.head _))) fun report => ?_
    cases report with
    | none => exact ih
    | some report =>
      dsimp only
      split
      · exact .pure _
      · exact ih.bind fun _ => .pure _

end Executor

/-! ## Objects -/

namespace Setup

/-- Enters a value, `body` being done with the executors of an object. -/
def enterWith (s : Setup) (body : Address → List Executor → Validation (List Report)) :
    Value → Validation (List Report)
  | .object a => do
    if !s.world.heap.isComposite (.object a) || (← get).path.contains a then return []
    let plan ← s.planOf (s.world.classOf (.object a))
    if plan.executors.isEmpty then return []
    Validation.within a (body a plan.executors)
  | _ => return []

theorem enter_eq_enterWith :
    s.enter inspect = s.enterWith fun a => Executor.executeAll s inspect (.object a) := by
  funext v
  cases v <;> rfl

section
variable {body : Address → List Executor → Validation (List Report)}

/-- What entering an object does: nothing if it cannot have rules or is being validated already. -/
theorem enterWith_object (a : Address) (run : Run) :
    s.enterWith body (.object a) run =
      if s.world.heap.isComposite (.object a) = true ∧ a ∉ run.path then (do
        let plan ← s.planOf (s.world.classOf (.object a))
        if plan.executors.isEmpty then return []
        Validation.within a (body a plan.executors) : Validation (List Report)) run
      else (.ok [], run) := by
  change (if (!s.world.heap.isComposite (.object a) || run.path.contains a) = true
    then (pure [] : Validation (List Report)) else _) run = _
  by_cases hc : s.world.heap.isComposite (.object a) = true
  · by_cases ha : a ∈ run.path
    · rw [if_pos (by simp [ha]), if_neg fun h => h.2 ha]; rfl
    · rw [if_neg (by simp [hc, ha]), if_pos ⟨hc, ha⟩]
  · rw [if_pos (by simp [hc]), if_neg fun h => hc h.1]; rfl

/-- What is passed over is left alone, whatever would be done with its executors. -/
theorem enterWith_of_skips {v : Value} {run : Run} (h : s.world.Skips run.path v) :
    s.enterWith body v run = (.ok [], run) := by
  cases v with
  | object a => rw [enterWith_object, if_neg h.not_enters]
  | _ => rfl

end

/-- A validation follows the survey if those that it calls do. -/
theorem enter_follows {v : Value}
    (h : ∀ c, s.world.Calls supply c (v, path) → Follows s supply c.2 (inspect c.1)
      (s.world.survey s.settings.abortEarly supply c.2 c.1)) :
    Follows s supply path (s.enter inspect v)
      (s.world.survey s.settings.abortEarly supply path v) := by
  rintro run hs rfl
  by_cases hskip : s.world.Skips run.path v
  · rw [enter_eq_enterWith, enterWith_of_skips hskip, World.survey_of_skips hskip]
    rfl
  obtain ⟨a, rfl, hc, ha⟩ := World.enters_of_not_skips hskip
  rw [enter_eq_enterWith, enterWith_object, if_pos ⟨hc, ha⟩, World.survey_enter hc ha]
  refine Follows.bind_ok (.planOf _) (fun plan hplan => ?_) run hs rfl
  have hes := Executor.executeAll_follows (.object a) plan.executors
    fun e he q hq x hx => h (x, a :: run.path) (.intro hc ha hplan he hq hx)
  cases hp : plan.executors with
  | nil => exact .pure _
  | cons e rest => rw [hp] at hes; exact hes.within

/-- Validating with as much room as there are objects off the path follows the survey. -/
theorem inspect_follows {room : Nat} (v : Value) (h : (s.world.heap.free path).card ≤ room) :
    Follows s supply path (s.inspect room v)
      (s.world.survey s.settings.abortEarly supply path v) := by
  induction room generalizing path v with
  | zero =>
    have hskip : s.world.Skips path v := by_contra fun hskip => by
      obtain ⟨a, rfl, hc, ha⟩ := World.enters_of_not_skips hskip
      have := Heap.card_free_cons hc ha
      omega
    rw [World.survey_of_skips hskip]
    exact .pure _
  | succ room ih =>
    exact enter_follows fun c hcall => ih _ (Nat.le_of_lt_succ (hcall.card_free_lt.trans_le h))

/-- Validating a value follows the survey, whatever objects are being validated. -/
theorem validate_follows (v : Value) :
    Follows s supply path (s.validate v)
      (s.world.survey s.settings.abortEarly supply path v) :=
  inspect_follows v (Heap.card_free_le _ _)

/-- What a validation comes to, and what it does to the state. -/
theorem validate_eq (s : Setup) (v : Value) (run : Run) :
    let t := s.world.survey s.settings.abortEarly (s.supply run.plans) run.path v
    s.validate v run = (t.outcome, s.replay run t.events) :=
  validate_follows v run rfl rfl

/-- What a validation comes to. -/
theorem validate_fst (s : Setup) (v : Value) (run : Run) : (s.validate v run).1 =
    (s.world.survey s.settings.abortEarly (s.supply run.plans) run.path v).outcome :=
  congrArg Prod.fst (s.validate_eq v run)

/-- The same setup, stopping at the first failure or not. -/
def aborting (s : Setup) (first : Bool) : Setup :=
  { s with settings := { s.settings with abortEarly := first } }

/-- The same setup with more declarations, made after those it has. -/
def extending (s : Setup) (ds : List Declaration) : Setup :=
  { s with rules := s.rules.addAll ds }

end Setup

/-! ## A ring

Two nodes that hold each other, with a rule on the next node and one on the label.
-/

namespace Ring

/-- A node with its label and the next node. -/
def node (label : Value) (next : Address) : Object :=
  ⟨.declared 0, .bare, [(.ofText "label", (.text "label", label)),
    (.ofText "next", (.text "next", .object next))], []⟩

def world : World where
  classes :=
    #[⟨"Node", "nodes", [.declared 0, .builtin .object], none, [], [], none, .ok []⟩]
  calls _ _ := none
  modules := []
  heap := #[node (.int 1) 1, node (.int 2) 0]

/-- A rule of the nodes. -/
def rule (key ruleType : String) : Declaration :=
  ⟨.declared 0, .text key, .text ruleType, [], none, none, none⟩

def setup : Setup where
  world := world
  rules := (Registry.empty "rules").addAll [rule "next" "ValidateNested", rule "label" "IsString"]
  strategies := .initial "strategies" true
  settings := ⟨false, false⟩

/-- Only nodes have rules, so every class has a plan if they have one. -/
theorem supply_ok_of_others {s : Setup} (hr : ∀ c, ClassId.declared 0 ≠ c → s.rules.rulesOf c = [])
    (hnode : (s.supply [] (.declared 0)).toOption.isSome = true) (c : ClassId) :
    ∃ plan, s.supply [] c = .ok plan := by
  by_cases hc : ClassId.declared 0 = c
  · obtain ⟨plan, hplan⟩ := Option.isSome_iff_exists.1 hnode
    exact ⟨plan, hc ▸ Except.toOption_eq_some.1 hplan⟩
  · exact ⟨⟨c, []⟩, by simp only [Setup.supply, Catalog.get?_nil, hr c hc]; rfl⟩

theorem rulesOf_other {c : ClassId} (hc : ClassId.declared 0 ≠ c) : setup.rules.rulesOf c = [] := by
  simp only [setup, Registry.addAll, List.foldl, Registry.rulesOf_add, rule, hc, if_false]
  rfl

theorem supply_ok_of_node {s : Setup} (hr : s.rules = setup.rules)
    (hnode : (s.supply [] (.declared 0)).toOption.isSome = true) (c : ClassId) :
    ∃ plan, s.supply [] c = .ok plan :=
  supply_ok_of_others (fun _ hc => hr ▸ rulesOf_other hc) hnode c

theorem supply_ok (c : ClassId) : ∃ plan, setup.supply [] c = .ok plan :=
  supply_ok_of_node rfl (by decide +kernel) c

/-- What is wrong with the label of a node. -/
def labelReport : Report :=
  .mk "label" none (some [("IsString", [.text "label must be a string"])]) none none

/-- What is wrong with the ring: the label of the next node, and that of the first one. -/
def reports : List Report := [.mk "next" none none (some [labelReport]) none, labelReport]

theorem validate_fst :
    ((setup.aborting false).validate (.object 0) ⟨[], [], []⟩).1 = .ok reports := by
  with_unfolding_all rfl

end Ring

/-! ## A row

Two nodes that hold a list of both, with a rule on each node of the list.
-/

namespace Row

def setup : Setup :=
  { Ring.setup with
    world := { Ring.world with
      heap := #[Ring.node (.text "first") 2, Ring.node (.int 2) 2,
        ⟨.builtin .list, .list #[.object 0, .object 1], [], []⟩] }
    rules := (Registry.empty "rules").addAll
      [{ Ring.rule "next" "ValidateNested" with options := some ⟨none, true, none⟩ },
        Ring.rule "label" "IsString"] }

theorem rulesOf_other {c : ClassId} (hc : ClassId.declared 0 ≠ c) : setup.rules.rulesOf c = [] := by
  simp only [setup, Registry.addAll, List.foldl, Registry.rulesOf_add, Ring.rule, hc, if_false]
  rfl

theorem supply_ok (c : ClassId) : ∃ plan, setup.supply [] c = .ok plan :=
  Ring.supply_ok_of_others (fun _ => rulesOf_other) (by decide +kernel) c

/-- What is wrong with the row: the label of the second node, which is not the first one again. -/
def reports : List Report :=
  [.mk "next" none none
    (some [.mk "next[1]" none none (some [Ring.labelReport]) (some 1)]) none]

theorem validate_fst :
    ((setup.aborting false).validate (.object 0) ⟨[], [], []⟩).1 = .ok reports := by
  with_unfolding_all rfl

end Row

end Rulebook
