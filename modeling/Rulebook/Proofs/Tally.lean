import Rulebook.Proofs.Inspection

/-!
# What the report on a property consists of

When nothing is cut short, an executor puts every question that its actions have to the value of its
property, and the messages of an action come one after the other (`Action.messages`). Recording them
one at a time, under rule types that may come up again later, amounts to grouping the whole trail of
them (`Findings.tally_none`).

Nested values are validated in between, in any way at all: what that does to the state is what
`Question.visitAll` does, and all it adds to the report is what it returns. So the report is told by
the messages and the nested reports alone (`Executor.execute_exact`).
-/

set_option autoImplicit false

namespace Rulebook

/-! ## Messages -/

theorem Question.complaint?_predicate (w : World) (name ruleType : String) (d : Declaration)
    (strategy : Strategy) (place : Option Nat) (v : Value) :
    complaint? w name ⟨.predicate ruleType d strategy, place, v⟩ =
      (d.messageFor? w strategy name place v).map (ruleType, ·) := rfl

namespace Action

/-- The rule type of an action; none when the value is validated by the rules of its own class. -/
def ruleType? : Action → Option String
  | .predicate ruleType .. => some ruleType
  | .nested _ => none

/-- The messages of an action on a value: those on the elements of a sequence, in order, if the
action asks for them, and otherwise the one on the value, if there is one. -/
def messages (w : World) (name : String) (v : Value) : Action → List Value
  | .predicate _ d strategy =>
    match d.each, w.heap.sequence? v with
    | true, some (n, get) =>
      (List.range n).filterMap fun i => d.messageFor? w strategy name (some i) (get i)
    | _, _ => (d.messageFor? w strategy name none v).toList
  | .nested _ => []

/-- The messages of an action with its rule type. -/
def complaints (w : World) (name : String) (v : Value) (a : Action) : List (String × Value) :=
  (a.messages w name v).filterMap fun message => a.ruleType?.map (·, message)

variable {w : World} {name : String} {v : Value} {a : Action}

theorem complaints_of_nested (h : a.ruleType? = none) : a.complaints w name v = [] := by
  simp [complaints, h]

theorem complaints_of_ruleType {ruleType : String} (h : a.ruleType? = some ruleType) :
    a.complaints w name v = (a.messages w name v).map (ruleType, ·) := by
  simp [complaints, h, List.filterMap_eq_map']

/-- They are what comes of the questions that the action puts to the value. -/
theorem complaints_eq : a.complaints w name v =
    (a.questions w.heap v).filterMap (·.complaint? w name) := by
  cases a with
  | nested each =>
    rw [complaints_of_nested rfl]
    refine (List.filterMap_eq_nil_iff.2 fun q hq => ?_).symm
    unfold questions at hq
    split at hq
    · obtain ⟨i, -, rfl⟩ := List.mem_map.1 hq
      rfl
    · rw [List.mem_singleton.1 hq]
      rfl
  | predicate ruleType d strategy =>
    rw [complaints_of_ruleType rfl, messages, questions, each]
    cases hd : d.each with
    | false =>
      rw [List.filterMap_cons, Question.complaint?_predicate]
      cases d.messageFor? w strategy name none v <;> rfl
    | true =>
      cases w.heap.sequence? v with
      | none =>
        rw [List.filterMap_cons, Question.complaint?_predicate]
        cases d.messageFor? w strategy name none v <;> rfl
      | some elements =>
        simp only [List.filterMap_map, List.map_filterMap, Function.comp_def,
          Question.complaint?_predicate]

/-- The complaints of a rule type are the messages of its actions. -/
theorem filter_complaints (as : List Action) (ruleType : String) :
    ((as.flatMap (·.complaints w name v)).filter (·.1 = ruleType)).map (·.2) =
      (as.filter (·.ruleType? = some ruleType)).flatMap (·.messages w name v) := by
  induction as with
  | nil => rfl
  | cons a rest ih =>
    rw [List.flatMap_cons, List.filter_append, List.map_append, ih]
    cases ha : a.ruleType? with
    | none => simp [complaints_of_nested ha, ha]
    | some ruleType' =>
      rw [complaints_of_ruleType ha]
      by_cases hr : ruleType' = ruleType
      · simp [ha, hr, List.filter_map, Function.comp_def]
      · simp [ha, hr, List.filter_map, Function.comp_def]

end Action

/-! ## Grouping messages -/

/-- Records messages one after the other under their rule types. -/
def Findings.tally (f : Findings) (complaints : List (String × Value)) : Findings :=
  complaints.foldl (fun f x => f.record x.1 x.2) f

namespace Findings

variable {f : Findings} {complaints : List (String × Value)}

theorem tally_append (as bs : List (String × Value)) :
    f.tally (as ++ bs) = (f.tally as).tally bs := List.foldl_append

theorem children_tally : (f.tally complaints).children = f.children := by
  induction complaints generalizing f with
  | nil => rfl
  | cons x rest ih => exact ih

/-- The rule types stand in the order in which they first failed. -/
theorem keys_tally {ruleTypes : List String} (h : f.failed.keys = ruleTypes.eraseDups) :
    (f.tally complaints).failed.keys = (ruleTypes ++ complaints.map (·.1)).eraseDups := by
  induction complaints generalizing f ruleTypes with
  | nil => simpa [tally] using h
  | cons x rest ih =>
    have hx : (f.record x.1 x.2).failed.keys = (ruleTypes ++ [x.1]).eraseDups :=
      Catalog.keys_alter_eraseDups h x.1
    rw [List.map_cons, List.append_cons]
    exact ih hx

theorem nodup_tally (h : f.failed.keys.Nodup) : (f.tally complaints).failed.keys.Nodup := by
  induction complaints generalizing f with
  | nil => exact h
  | cons x rest ih => exact ih (Catalog.nodup_keys_alter h)

theorem get?_tally (ruleType : String) : ((f.tally complaints).failed.get? ruleType).getD [] =
    (f.failed.get? ruleType).getD [] ++ (complaints.filter (·.1 = ruleType)).map (·.2) := by
  induction complaints generalizing f with
  | nil => simp [tally]
  | cons x rest ih =>
    refine ih.trans ?_
    simp only [record, Catalog.get?_alter]
    by_cases hx : x.1 = ruleType <;> simp [hx]

/-- Recording messages one at a time groups them. -/
theorem tally_none : (none.tally complaints).failed =
    (complaints.map (·.1)).eraseDups.map fun ruleType =>
      (ruleType, (complaints.filter (·.1 = ruleType)).map (·.2)) := by
  have hkeys : (none.tally complaints).failed.keys = (complaints.map (·.1)).eraseDups :=
    @keys_tally none complaints [] rfl
  have hnodup : (none.tally complaints).failed.keys.Nodup := nodup_tally List.nodup_nil
  rw [Catalog.eq_map_keys hnodup [], hkeys]
  refine List.map_congr_left fun ruleType _ => ?_
  rw [get?_tally]
  rfl

/-- Adds messages and reports on the value itself. -/
def gain (f : Findings) (complaints : List (String × Value)) (reports : List Report) : Findings :=
  (f.tally complaints).addChildren reports

end Findings

/-! ## Nested values -/

namespace Question

/-- The reports on a value, or on an element of a sequence: these are put together under its place,
if there are any. -/
def placed (name : String) : Option Nat → List Report → List Report
  | none, reports => reports
  | some i, reports =>
    if reports.isEmpty then [] else [.mk (elementName name i) none none (some reports) (some i)]

/-- Puts a question, apart from what the strategy says: its failures are noted down, and a nested
value is validated if it can have rules. -/
def visit (s : Setup) (name : String) (inspect : Value → Validation (List Report)) (q : Question) :
    Validation (List Report) :=
  match q.action with
  | .predicate ruleType d strategy => do
    Validation.note ((Verdict.ask s.world strategy d name q.subject).records ruleType name)
    return []
  | .nested _ => do
    if s.world.heap.isComposite q.subject then
      let reports ← inspect q.subject
      return placed name q.place reports
    else return []

/-- Puts questions one after the other, and returns the nested reports in this order. -/
def visitAll (s : Setup) (name : String) (inspect : Value → Validation (List Report)) :
    List Question → Validation (List Report)
  | [] => return []
  | q :: rest => do
    let reports ← q.visit s name inspect
    let others ← visitAll s name inspect rest
    return reports ++ others

end Question

section

variable {s : Setup} {name : String} {inspect : Value → Validation (List Report)}

theorem Question.visitAll_append (as bs : List Question) :
    visitAll s name inspect (as ++ bs) = do
      let reports ← visitAll s name inspect as
      let others ← visitAll s name inspect bs
      return reports ++ others := by
  induction as with
  | nil => simp [visitAll]
  | cons q rest ih =>
    simp only [List.cons_append, visitAll, ih, bind_assoc, pure_bind, List.append_assoc]

namespace Findings

variable {f : Findings}

theorem gain_gain (f : Findings) (as bs : List (String × Value)) (reports others : List Report) :
    (f.gain as reports).gain bs others = f.gain (as ++ bs) (reports ++ others) := by
  have htally (f : Findings) (reports : List Report) :
      (f.addChildren reports).tally bs = (f.tally bs).addChildren reports := by
    induction bs generalizing f with
    | nil => rfl
    | cons x rest ih => exact ih (f.record x.1 x.2)
  rw [gain, gain, gain, htally, tally_append]
  simp only [addChildren, List.append_assoc]

end Findings

namespace Action

/-- What the actions on a value find when they put all these questions. -/
def gains (s : Setup) (name : String) (inspect : Value → Validation (List Report))
    (qs : List Question) (f : Findings) : Validation Findings := do
  let reports ← Question.visitAll s name inspect qs
  return f.gain (qs.filterMap (·.complaint? s.world name)) reports

theorem gains_nil (f : Findings) : gains s name inspect [] f = pure f := by
  simp [gains, Question.visitAll, Findings.gain, Findings.tally, Findings.addChildren]

theorem gains_append (as bs : List Question) (f : Findings) :
    gains s name inspect (as ++ bs) f = gains s name inspect as f >>= gains s name inspect bs := by
  simp only [gains, Question.visitAll_append, bind_assoc, pure_bind, Findings.gain_gain,
    List.filterMap_append]

theorem gains_predicate (ruleType : String) (d : Declaration) (strategy : Strategy)
    (place : Option Nat) (v : Value) (f : Findings) :
    gains s name inspect [⟨.predicate ruleType d strategy, place, v⟩] f = (do
      let verdict := Verdict.ask s.world strategy d name v
      Validation.note (verdict.records ruleType name)
      return match verdict.messageAt? s.world d.override? place with
        | some message => f.record ruleType message
        | none => f) := by
  simp only [gains, Question.visitAll, Question.visit, Question.complaint?, bind_assoc, pure_bind,
    ← Verdict.messageAt?_ask]
  cases hm : (Verdict.ask s.world strategy d name v).messageAt? s.world d.override? place <;>
    simp [hm, Findings.gain, Findings.tally, Findings.addChildren]

theorem check_eq (ruleType : String) (d : Declaration) (strategy : Strategy) (v : Value)
    (f : Findings) : check s name ruleType d strategy v f =
      gains s name inspect [⟨.predicate ruleType d strategy, none, v⟩] f := by
  rw [gains_predicate, check]
  rfl

theorem checkEach_eq (hall : s.settings.abortEarly = false) (ruleType : String) (d : Declaration)
    (strategy : Strategy) (get : Nat → Value) (n i : Nat) (f : Findings) :
    checkEach s name ruleType d strategy get n i f = gains s name inspect
      ((List.range' i n).map fun i => ⟨.predicate ruleType d strategy, some i, get i⟩) f := by
  induction n generalizing i f with
  | zero => exact (gains_nil f).symm
  | succ n ih =>
    rw [List.range'_succ, List.map_cons, ← List.singleton_append, gains_append, gains_predicate]
    simp only [checkEach, hall, Bool.false_eq_true, if_false, bind_assoc, pure_bind, ih]
    congr 1
    funext _
    simp only [Verdict.messageAt?]
    generalize (Verdict.ask s.world strategy d name (get i)).elementMessage? _ _ _ = message
    cases message <;> rfl

theorem gains_nested (each : Bool) (place : Option Nat) (v : Value) (f : Findings) :
    gains s name inspect [⟨.nested each, place, v⟩] f =
      if s.world.heap.isComposite v then do
        let reports ← inspect v
        return f.addChildren (Question.placed name place reports)
      else return f := by
  simp only [gains, Question.visitAll, Question.visit, Question.complaint?, bind_assoc, pure_bind]
  split <;> simp [Findings.gain, Findings.tally, Findings.addChildren]

theorem visit_eq (each : Bool) (v : Value) (f : Findings) :
    visit s inspect v f = gains s name inspect [⟨.nested each, none, v⟩] f := by
  rw [gains_nested, visit]
  split
  · congr 1
    funext reports
    cases reports <;> simp [Question.placed, Findings.addChildren]
  · rfl

theorem visitEach_eq (hall : s.settings.abortEarly = false) (each : Bool) (get : Nat → Value)
    (n i : Nat) (f : Findings) : visitEach s name inspect get n i f =
      gains s name inspect ((List.range' i n).map fun i => ⟨.nested each, some i, get i⟩) f := by
  induction n generalizing i f with
  | zero => exact (gains_nil f).symm
  | succ n ih =>
    rw [List.range'_succ, List.map_cons, ← List.singleton_append, gains_append, gains_nested]
    simp only [visitEach, hall, Bool.false_eq_true, if_false, ih]
    split
    · rw [bind_assoc]
      congr 1
      funext reports
      cases reports <;> simp [Question.placed, Findings.addChildren]
    · rw [pure_bind]

theorem take_eq (hall : s.settings.abortEarly = false) (a : Action) (v : Value) (f : Findings) :
    a.take s name inspect v f = gains s name inspect (a.questions s.world.heap v) f := by
  obtain ⟨n, get, hq, ht⟩ | ⟨hq, ht⟩ := a.take_cases s name inspect v f <;> rw [hq, ht]
  · cases a with
    | predicate ruleType d strategy => exact checkEach_eq hall ..
    | nested each => exact visitEach_eq hall ..
  · cases a with
    | predicate ruleType d strategy => exact check_eq ..
    | nested each => exact visit_eq ..

theorem takeAll_eq (hall : s.settings.abortEarly = false) (v : Value) (as : List Action)
    (f : Findings) : takeAll s name inspect v as f =
      gains s name inspect (as.flatMap (·.questions s.world.heap v)) f := by
  induction as generalizing f with
  | nil => exact (gains_nil f).symm
  | cons a rest ih =>
    rw [List.flatMap_cons, gains_append, takeAll, take_eq hall]
    simp only [hall, Bool.false_and, Bool.false_eq_true, if_false, ih]

end Action

end

/-! ## Executors -/

namespace Executor

/-- The messages about a value by rule type: the rule types in the order in which they first fail,
each with the messages of all its actions. -/
def failures (w : World) (v : Value) (e : Executor) : Failures :=
  ((e.actions.flatMap (·.complaints w e.name v)).map (·.1)).eraseDups.map fun ruleType =>
    (ruleType, (e.actions.filter (·.ruleType? = some ruleType)).flatMap (·.messages w e.name v))

theorem gain_eq (w : World) (v : Value) (e : Executor) (children : List Report) :
    Findings.none.gain ((e.actions.flatMap (·.questions w.heap v)).filterMap
      (·.complaint? w e.name)) children = ⟨e.failures w v, children⟩ := by
  have hfailed := @Findings.tally_none (e.actions.flatMap (·.complaints w e.name v))
  simp only [Action.filter_complaints] at hfailed
  simp only [List.filterMap_flatMap, ← Action.complaints_eq, Findings.gain, Findings.addChildren,
    Findings.children_tally, hfailed]
  rfl

/-- The report on a property consists of the messages of its actions and of the reports on nested
values, and there is none when there are no such. -/
theorem execute_exact {s : Setup} {o : Value} {e : Executor}
    (inspect : Value → Validation (List Report)) (hall : s.settings.abortEarly = false)
    (hv : (e.isOptional && Heap.isAbsent (s.world.resolve o e.key).1) = false) :
    let v := (s.world.resolve o e.key).1
    e.execute s inspect o = do
      Validation.note (s.world.resolve o e.key).2
      let children ← Question.visitAll s e.name inspect
        (e.actions.flatMap (·.questions s.world.heap v))
      return if e.failures s.world v = [] ∧ children = [] then none
        else some (.mk e.name e.location (nonempty? (e.failures s.world v)) (nonempty? children)
          none) := by
  intro v
  have hreport (children : List Report) :
      (Findings.mk (e.failures s.world v) children).report? e.name e.location =
        if e.failures s.world v = [] ∧ children = [] then none
        else some (.mk e.name e.location (nonempty? (e.failures s.world v)) (nonempty? children)
          none) := by
    simp only [Findings.report?, Findings.isClear, Bool.and_eq_true, List.isEmpty_iff]
  simp only [execute, hv, Bool.false_eq_true, if_false, Action.takeAll_eq hall, Action.gains,
    bind_assoc, pure_bind, ← hreport, ← gain_eq]
  rfl

end Executor

namespace Crate

/-! A node whose next one is a list: a text, a number, and the node itself. -/

def world : World :=
  { Ring.world with heap := #[Ring.node (.int 1) 1,
      ⟨.builtin .list, .list #[.text "a", .int 5, .object 0], [], []⟩] }

def setup : Setup := { Ring.setup with world }

/-- Passes texts, complains about numbers, and fails on everything else. -/
def fits : Strategy := fun _ v _ name =>
  match v with
  | .text _ => .ok none
  | .int _ => .ok (some (name ++ " must fit"))
  | _ => .error (.refused "no size")

def declared (message : Option Value) (each : Bool) : Declaration :=
  ⟨.declared 0, .text "next", .nothing, [], message, some ⟨none, each, none⟩, none⟩

/-- Two actions of one rule type with others between them. -/
def executor : Executor where
  key := .text "next"
  name := "next"
  isOptional := true
  location := some "crate"
  actions := [.predicate "Fits" (declared (some (.text "too big")) true) fits,
    .predicate "Whole" (declared none false) fits, .nested true,
    .predicate "Fits" (declared none true) fits]

end Crate

theorem Executor.execute_exact_crate :
    (Crate.executor.execute Crate.setup Crate.setup.validate (.object 0) ⟨[], [], []⟩).1 =
      .ok (some (.mk "next" (some "crate")
        (some [("Fits", [.text "too big (index: 1)",
            .text "Internal validation error: no size (at index 2)",
            .text "next must fit (at index 1)",
            .text "Internal validation error: no size (at index 2)"]),
          ("Whole", [.text "Internal validation error: no size"])])
        (some [.mk "next[2]" none none (some [Ring.labelReport]) (some 2)]) none)) := by
  rw [Executor.execute_exact _ rfl (by decide +kernel)]
  with_unfolding_all rfl

end Rulebook
