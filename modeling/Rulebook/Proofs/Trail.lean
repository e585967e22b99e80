import Mathlib.Data.List.Lex
import Mathlib.Data.Prod.Lex
import Rulebook.Proofs.Survey

/-!
# Trails

A trail says where a message comes from: the questions that lead from object to object, and the
question at the end whose answer counts. `World.Uncovers` is the declarative side: a trail follows
nested rules over distinct objects (`World.Route`), and a strategy complains at its end.
`World.trails` lists all trails from an object.

Main statements: the list holds exactly the trails there are (`mem_trails`), in strictly ascending
lexicographic order of their places (`trails_sorted`). So each is listed once, and the first one
comes before all others (`uncovers_first`): it belongs to the first executor that has any, to its
first action that has and to the first element.
-/

set_option autoImplicit false

namespace Rulebook

/-! ## Remarks -/

/-- What a step into a report shows: the name of the property, or of the element with its place. -/
abbrev Label := String × Option Int

/-- A message of a report, with the labels on the way to it and its rule type. -/
structure Remark where
  labels : List Label
  ruleType : String
  text : Value
deriving DecidableEq

/-- The remark, seen from further out. -/
def Remark.under (m : Remark) (labels : List Label) : Remark :=
  { m with labels := labels ++ m.labels }

/-- The messages of failed rules, each with its rule type. -/
def Failures.remarks (failed : Failures) (labels : List Label) : List Remark :=
  failed.flatMap fun (ruleType, texts) => texts.map fun text => ⟨labels, ruleType, text⟩

theorem Failures.map_text_remarks (failed : Failures) (labels : List Label) :
    (failed.remarks labels).map (·.text) = failed.flatMap (·.2) := by
  simp [remarks, List.map_flatMap, Function.comp_def]

namespace Report

mutual

/-- All messages of a report, with their labels and rule types. -/
def remarks : Report → List Remark
  | mk property _ failed none index =>
    Failures.remarks (failed.getD []) [(property, index)]
  | mk property _ failed (some children) index =>
    Failures.remarks (failed.getD []) [(property, index)] ++
      (remarksAll children).map (·.under [(property, index)])

/-- All messages of reports, one report after the other. -/
def remarksAll : List Report → List Remark
  | [] => []
  | r :: rest => remarks r ++ remarksAll rest

end

theorem remarksAll_eq (reports : List Report) : remarksAll reports = reports.flatMap remarks := by
  induction reports with
  | nil => rfl
  | cons r rest ih => rw [remarksAll, ih, List.flatMap_cons]

mutual

theorem map_text_remarks : (r : Report) → r.remarks.map (·.text) = r.messages
  | mk _ _ failed none _ => by simp [remarks, messages, Failures.map_text_remarks]
  | mk _ _ failed (some children) _ => by
    have ih := map_text_remarksAll children
    simpa [remarks, messages, Failures.map_text_remarks, Function.comp_def, Remark.under] using ih

theorem map_text_remarksAll :
    (reports : List Report) → (remarksAll reports).map (·.text) = messagesAll reports
  | [] => rfl
  | r :: rest => by
    simp [remarksAll, messagesAll, map_text_remarks r, map_text_remarksAll rest]

end

end Report

/-! ## Places -/

/-- The place of a question: the number of its executor in the plan, and its own number among the
questions of that executor. A plan lists the actions of an executor by priority, and an action asks
about elements in their order, so places are in the order in which questions are put. -/
abbrev Place := Nat ×ₗ Nat

namespace Place

/-- The place of a question of an executor. -/
def of (executor question : Nat) : Place := toLex (executor, question)

/-- The number of the executor. -/
def executor (p : Place) : Nat := (ofLex p).1

/-- The number of the question. -/
def question (p : Place) : Nat := (ofLex p).2

@[simp] theorem executor_of (i k : Nat) : (of i k).executor = i := rfl

theorem of_lt_of {i j k l : Nat} : of i k < of j l ↔ i < j ∨ i = j ∧ k < l := Prod.Lex.toLex_lt_toLex

end Place

/-- The places of the questions that lead to an object, and that of a question put to it. -/
structure Trail where
  turns : List Place
  check : Place
deriving DecidableEq

namespace Trail

/-- All places, in order. -/
def places (t : Trail) : List Place := t.turns ++ [t.check]

/-- The first place. -/
def first (t : Trail) : Place := t.turns.head?.getD t.check

/-- The trail with a turn in front. -/
def after (t : Trail) (p : Place) : Trail := ⟨p :: t.turns, t.check⟩

theorem places_eq (t : Trail) : ∃ rest, t.places = t.first :: rest := by
  obtain ⟨turns, check⟩ := t
  cases turns with
  | nil => exact ⟨[], rfl⟩
  | cons p rest => exact ⟨rest ++ [check], rfl⟩

theorem lt_of_first_lt {t u : Trail} (h : t.first < u.first) : t.places < u.places := by
  obtain ⟨ps, ht⟩ := t.places_eq
  obtain ⟨qs, hu⟩ := u.places_eq
  rw [ht, hu]
  exact List.cons_lt_cons_iff.2 (.inl h)

end Trail

/-! ## Routes -/

/-- The labels of the reports on the value that a nested question leads to. -/
def Question.labels (name : String) (q : Question) : List Label :=
  match q.place with
  | none => [(name, none)]
  | some i => [(name, none), (name ++ "[" ++ toString i ++ "]", some i)]

namespace World

/-- The plan puts the question to the object at a place. -/
structure Asks (w : World) (plan : Plan) (o : Value) (p : Place) (e : Executor) (q : Question) :
    Prop where
  executor : plan.executors[p.executor]? = some e
  question : (e.questions w o)[p.question]? = some q

/-- Nested questions lead from object to object: `Route w supply v turns labels objects o` goes from
`v` to `o` by the questions at `turns`, through `objects`, both ends included. -/
inductive Route (w : World) (supply : Supply) :
    Value → List Place → List Label → List Address → Value → Prop
  | stay (a : Address) : Route w supply (.object a) [] [] [a] (.object a)
  | turn {a : Address} {plan : Plan} {p : Place} {e : Executor} {q : Question} {v o : Value}
      {turns : List Place} {labels : List Label} {objects : List Address} :
      supply (w.classOf (.object a)) = .ok plan → w.Asks plan (.object a) p e q →
      q.target? w.heap = some v → Route w supply v turns labels objects o →
      Route w supply (.object a) (p :: turns) (q.labels e.name ++ labels) (a :: objects) o

/-- A route from a value that can have rules runs over distinct objects, none of them in `path`. -/
def Leads (w : World) (supply : Supply) (path : List Address) (root : Value) (turns : List Place)
    (labels : List Label) (o : Value) : Prop :=
  w.heap.isComposite root = true ∧ ∃ objects,
    w.Route supply root turns labels objects o ∧ objects.Nodup ∧ ∀ a ∈ objects, a ∉ path

/-- A validation that does not stop early comes to the object. -/
def Reaches (w : World) (supply : Supply) (path : List Address) (root o : Value) : Prop :=
  ∃ turns labels, w.Leads supply path root turns labels o

/-- The trail leads to a question whose answer is a complaint. -/
inductive Uncovers (w : World) (supply : Supply) (path : List Address) (root : Value) (t : Trail) :
    Remark → Prop
  | intro {labels : List Label} {o : Value} {plan : Plan} {e : Executor} {q : Question}
      {ruleType : String} {text : Value} :
      w.Leads supply path root t.turns labels o → supply (w.classOf o) = .ok plan →
      w.Asks plan o t.check e q → q.complaint? w e.name = some (ruleType, text) →
      Uncovers w supply path root t ⟨labels ++ [(e.name, none)], ruleType, text⟩

/-- The trail leads to a check that fails: its strategy complains about the value or breaks down. -/
inductive FailsAt (w : World) (supply : Supply) (path : List Address) (root : Value) (t : Trail) :
    Prop
  | intro {labels : List Label} {o : Value} {plan : Plan} {e : Executor} {q : Question}
      {ruleType : String} {d : Declaration} {strategy : Strategy} :
      w.Leads supply path root t.turns labels o → supply (w.classOf o) = .ok plan →
      w.Asks plan o t.check e q → q.action = .predicate ruleType d strategy →
      strategy w q.subject d e.name ≠ .ok none → FailsAt w supply path root t

/-- Whatever fails is uncovered, and nothing else. -/
theorem exists_uncovers_iff {w : World} {supply : Supply} {path : List Address} {root : Value}
    {t : Trail} :
    (∃ m, w.Uncovers supply path root t m) ↔ w.FailsAt supply path root t := by
  constructor
  · rintro ⟨_, hleads, hplan, hasks, hcomplaint⟩
    obtain ⟨ruleType, d, strategy, hq⟩ := Question.predicate_of_complaint hcomplaint
    refine ⟨hleads, hplan, hasks, hq, fun hpasses => ?_⟩
    rw [(Question.complaint?_eq_none_iff hq).2 hpasses] at hcomplaint
    cases hcomplaint
  · rintro ⟨hleads, hplan, hasks, hq, hfails⟩
    obtain ⟨⟨_, _⟩, hcomplaint⟩ := Option.ne_none_iff_exists'.1
      (fun hnone => hfails ((Question.complaint?_eq_none_iff hq).1 hnone))
    exact ⟨_, hleads, hplan, hasks, hcomplaint⟩

section
variable {w : World} {supply : Supply} {path : List Address} {a : Address}

theorem Leads.stay (hc : w.heap.isComposite (.object a) = true) (ha : a ∉ path) :
    w.Leads supply path (.object a) [] [] (.object a) :=
  ⟨hc, [a], .stay a, List.nodup_singleton a, by simpa using ha⟩

/-- A turn in front keeps the objects distinct if the rest avoids the object that is left. -/
theorem Leads.turn {plan : Plan} {p : Place} {e : Executor} {q : Question} {v o : Value}
    {turns : List Place} {labels : List Label} (hc : w.heap.isComposite (.object a) = true)
    (ha : a ∉ path) (hp : supply (w.classOf (.object a)) = .ok plan)
    (hasks : w.Asks plan (.object a) p e q) (hv : q.target? w.heap = some v)
    (h : w.Leads supply (a :: path) v turns labels o) :
    w.Leads supply path (.object a) (p :: turns) (q.labels e.name ++ labels) o := by
  obtain ⟨-, objects, hroute, hnodup, hoff⟩ := h
  have hnew : a ∉ objects := fun hm => hoff a hm (.head _)
  refine ⟨hc, a :: objects, .turn hp hasks hv hroute, List.nodup_cons.2 ⟨hnew, hnodup⟩, ?_⟩
  exact List.forall_mem_cons.2 ⟨ha, fun b hb hm => hoff b hb (.tail _ hm)⟩

end

end World

/-! ## The list of trails -/

/-- The trails that begin with a question, given those from the values it may lead to. -/
def Question.trails (w : World) (name : String) (below : Value → List (Trail × Remark)) (p : Place)
    (q : Question) : List (Trail × Remark) :=
  match q.complaint? w name with
  | some (ruleType, text) => [(⟨[], p⟩, ⟨[(name, none)], ruleType, text⟩)]
  | none =>
    match q.target? w.heap with
    | some v => (below v).map fun (t, m) => (t.after p, m.under (q.labels name))
    | none => []

theorem Question.trails_of_target {w : World} {name : String}
    {below : Value → List (Trail × Remark)} {p : Place} {q : Question} {v : Value}
    (h : q.target? w.heap = some v) : q.trails w name below p =
      (below v).map fun (t, m) => (t.after p, m.under (q.labels name)) := by
  simp only [trails, complaint_of_target h, h]

theorem Question.trails_of_no_target {w : World} {name : String}
    {below : Value → List (Trail × Remark)} {p : Place} {q : Question}
    (h : q.target? w.heap = none) : q.trails w name below p =
      (q.complaint? w name).toList.map fun (ruleType, text) =>
        (⟨[], p⟩, ⟨[(name, none)], ruleType, text⟩) := by
  simp only [trails, h]
  cases q.complaint? w name <;> rfl

/-- The trails that begin with the questions of an executor, which has the number `i`. -/
def Executor.trails (w : World) (below : Value → List (Trail × Remark)) (o : Value) (i : Nat)
    (e : Executor) : List (Trail × Remark) :=
  (e.questions w o).zipIdx.flatMap fun (q, k) => q.trails w e.name below (.of i k)

namespace World

/-- The trails from a value that avoid the objects of `path`, with the remarks at their ends. -/
def trails (w : World) (supply : Supply) (path : List Address) (v : Value) :
    List (Trail × Remark) :=
  match v with
  | .object a =>
    if _h : w.heap.isComposite (.object a) = true ∧ a ∉ path then
      match supply (w.classOf (.object a)) with
      | .ok plan =>
        plan.executors.zipIdx.flatMap fun (e, i) =>
          e.trails w (fun v => w.trails supply (a :: path) v) (.object a) i
      | .error _ => []
    else []
  | _ => []
termination_by (w.heap.free path).card
decreasing_by have := Heap.card_free_cons _h.1 _h.2; omega

variable {w : World} {supply : Supply} {path : List Address} {a : Address}

theorem trails_enter {plan : Plan} (hc : w.heap.isComposite (.object a) = true) (ha : a ∉ path)
    (hp : supply (w.classOf (.object a)) = .ok plan) :
    w.trails supply path (.object a) = plan.executors.zipIdx.flatMap fun (e, i) =>
      e.trails w (w.trails supply (a :: path)) (.object a) i := by
  rw [trails, dif_pos ⟨hc, ha⟩]
  simp only [hp]

theorem trails_of_error {fault : Fault} (hp : supply (w.classOf (.object a)) = .error fault) :
    w.trails supply path (.object a) = [] := by
  rw [trails]
  simp only [hp, dite_eq_ite, ite_self]

theorem trails_of_skips {v : Value} (h : w.Skips path v) : w.trails supply path v = [] := by
  cases v with
  | object a => rw [trails, dif_neg h.not_enters]
  | _ => rw [trails]; intro _ h; cases h

end World

/-! ## The list is in order -/

theorem pairwise_zipIdx {α : Type} (as : List α) : as.zipIdx.Pairwise fun x y => x.2 < y.2 := by
  have h := List.pairwise_lt_range' (s := 0) (n := as.length) 1
  rw [← List.zipIdx_map_snd] at h
  exact List.pairwise_map.1 h

/-- Both trails are in the order of their places. -/
def Trail.Ordered (x y : Trail × Remark) : Prop := x.1.places < y.1.places

section
variable {w : World} {name : String} {below : Value → List (Trail × Remark)} {o : Value}

theorem Question.first_of_mem_trails {p : Place} {q : Question} {x : Trail × Remark}
    (h : x ∈ q.trails w name below p) : x.1.first = p := by
  cases ht : q.target? w.heap with
  | none =>
    rw [trails_of_no_target ht] at h
    obtain ⟨c, -, rfl⟩ := List.mem_map.1 h
    rfl
  | some v =>
    rw [trails_of_target ht] at h
    obtain ⟨y, -, rfl⟩ := List.mem_map.1 h
    rfl

theorem Question.trails_sorted (p : Place) (q : Question)
    (hb : ∀ v, (below v).Pairwise Trail.Ordered) :
    (q.trails w name below p).Pairwise Trail.Ordered := by
  cases ht : q.target? w.heap with
  | none =>
    rw [trails_of_no_target ht]
    cases q.complaint? w name with
    | none => exact .nil
    | some c => exact List.pairwise_singleton _ _
  | some v =>
    rw [trails_of_target ht]
    exact List.pairwise_map.2 ((hb v).imp fun h => List.cons_lt_cons_iff.2 (.inr ⟨rfl, h⟩))

theorem Executor.mem_trails {i : Nat} {e : Executor} {x : Trail × Remark} :
    x ∈ e.trails w below o i ↔ ∃ k, ∃ q : Question, (e.questions w o)[k]? = some q ∧
      x ∈ q.trails w e.name below (.of i k) := by
  simp only [trails, List.mem_flatMap, Prod.exists, List.mem_zipIdx_iff_getElem?]
  exact ⟨fun ⟨q, k, h⟩ => ⟨k, q, h⟩, fun ⟨k, q, h⟩ => ⟨q, k, h⟩⟩

theorem Executor.first_of_mem_trails {i : Nat} {e : Executor} {x : Trail × Remark}
    (h : x ∈ e.trails w below o i) : x.1.first.executor = i := by
  obtain ⟨k, q, -, hx⟩ := mem_trails.1 h
  rw [Question.first_of_mem_trails hx, Place.executor_of]

theorem Executor.trails_sorted (i : Nat) (e : Executor)
    (hb : ∀ v, (below v).Pairwise Trail.Ordered) :
    (e.trails w below o i).Pairwise Trail.Ordered := by
  refine List.pairwise_flatMap.2 ⟨fun x _ => x.1.trails_sorted _ hb, ?_⟩
  refine (pairwise_zipIdx _).imp fun hlt t ht u hu => Trail.lt_of_first_lt ?_
  rw [Question.first_of_mem_trails ht, Question.first_of_mem_trails hu]
  exact Place.of_lt_of.2 (.inr ⟨rfl, hlt⟩)

end

namespace World

variable {w : World} {supply : Supply}

/-- Trails are listed in the order of their places. -/
theorem trails_sorted (path : List Address) (v : Value) :
    (w.trails supply path v).Pairwise Trail.Ordered := by
  induction path, v using enter_induction with
  | skip path v hs => rw [trails_of_skips hs]; exact .nil
  | enter path a hc ha ih =>
    cases hp : supply (w.classOf (.object a)) with
    | error fault => rw [trails_of_error hp]; exact .nil
    | ok plan =>
      rw [trails_enter hc ha hp]
      refine List.pairwise_flatMap.2 ⟨fun x _ => x.1.trails_sorted _ ih, ?_⟩
      refine (pairwise_zipIdx _).imp fun {x y} hlt t ht u hu => Trail.lt_of_first_lt ?_
      have hx := Executor.first_of_mem_trails ht
      have hy := Executor.first_of_mem_trails hu
      refine Prod.Lex.lt_iff.2 (.inl ?_)
      change t.1.first.executor < u.1.first.executor
      omega

/-- No trail is listed twice. -/
theorem nodup_trails (path : List Address) (v : Value) :
    ((w.trails supply path v).map Prod.fst).Nodup := by
  refine List.pairwise_map.2 ((trails_sorted path v).imp fun {x y} h => ?_)
  exact fun heq => absurd h (by rw [Trail.Ordered, heq]; exact lt_irrefl _)

/-! ## The list is complete -/

/-- A trail begins with a question to the object it starts from. -/
theorem mem_trails_object {path : List Address} {a : Address} {x : Trail × Remark} :
    x ∈ w.trails supply path (.object a) ↔ ∃ plan p e q,
      w.heap.isComposite (.object a) = true ∧ a ∉ path ∧
      supply (w.classOf (.object a)) = .ok plan ∧ w.Asks plan (.object a) p e q ∧
      x ∈ q.trails w e.name (w.trails supply (a :: path)) p := by
  constructor
  · intro hx
    by_cases hskip : w.Skips path (.object a)
    · rw [trails_of_skips hskip] at hx; cases hx
    obtain ⟨b, heq, hc, ha⟩ := enters_of_not_skips hskip
    cases heq
    cases hp : supply (w.classOf (.object a)) with
    | error fault => rw [trails_of_error hp] at hx; cases hx
    | ok plan =>
      rw [trails_enter hc ha hp] at hx
      obtain ⟨⟨e, i⟩, he, hx⟩ := List.mem_flatMap.1 hx
      obtain ⟨k, q, hq, hx⟩ := Executor.mem_trails.1 hx
      have he := List.mem_zipIdx_iff_getElem?.1 he
      exact ⟨plan, .of i k, e, q, hc, ha, rfl, ⟨he, hq⟩, hx⟩
  · rintro ⟨plan, p, e, q, hc, ha, hp, ⟨he, hq⟩, hx⟩
    rw [trails_enter hc ha hp]
    have he : (e, p.executor) ∈ plan.executors.zipIdx := List.mem_zipIdx_iff_getElem?.2 he
    exact List.mem_flatMap.2 ⟨_, he, Executor.mem_trails.2 ⟨p.question, q, hq, hx⟩⟩

theorem uncovers_of_mem_trails (path : List Address) (v : Value) {t : Trail} {m : Remark}
    (h : (t, m) ∈ w.trails supply path v) : w.Uncovers supply path v t m := by
  induction path, v using enter_induction generalizing t m with
  | skip path v hs => rw [trails_of_skips hs] at h; cases h
  | enter path a hc ha ih =>
    obtain ⟨plan, p, e, q, -, -, hp, hasks, h⟩ := mem_trails_object.1 h
    cases ht : q.target? w.heap with
    | none =>
      rw [Question.trails_of_no_target ht] at h
      obtain ⟨⟨ruleType, text⟩, hcomp, heq⟩ := List.mem_map.1 h
      cases heq
      exact Uncovers.intro (t := ⟨[], p⟩) (.stay hc ha) hp hasks (Option.mem_toList.1 hcomp)
    | some v =>
      rw [Question.trails_of_target ht] at h
      obtain ⟨⟨t', m'⟩, hx, heq⟩ := List.mem_map.1 h
      cases heq
      obtain ⟨hleads, hp', hasks', hcomp⟩ := ih v hx
      have hm : w.Uncovers supply path (.object a) (t'.after p) _ :=
        .intro (hleads.turn hc ha hp hasks ht) hp' hasks' hcomp
      rw [List.append_assoc] at hm
      exact hm

/-- The list holds exactly the trails there are. -/
theorem mem_trails {path : List Address} {v : Value} {t : Trail} {m : Remark} :
    (t, m) ∈ w.trails supply path v ↔ w.Uncovers supply path v t m := by
  refine ⟨uncovers_of_mem_trails path v, fun h => ?_⟩
  obtain ⟨⟨hc, objects, hroute, hnodup, hoff⟩, hp, hasks, hcomp⟩ := h
  obtain ⟨turns, check⟩ := t
  simp only at hroute hasks
  -- the route is followed from its start, the path growing by every object that is left
  induction hroute generalizing path with
  | stay a =>
    refine mem_trails_object.2 ⟨_, _, _, _, hc, hoff a (.head _), hp, hasks, ?_⟩
    simp only [Question.trails, hcomp]
    exact .head _
  | @turn a plan p e q v o turns labels objects hplan hasks' hv hroute ih =>
    have hnodup := List.nodup_cons.1 hnodup
    have hoff := List.forall_mem_cons.1 hoff
    have hoff' : ∀ b ∈ objects, b ∉ a :: path := fun b hb hm =>
      (List.mem_cons.1 hm).elim (fun h => hnodup.1 (h ▸ hb)) (hoff.2 b hb)
    have hrest := ih hp (Question.isComposite_target hv) hnodup.2 hoff' hasks
    refine mem_trails_object.2 ⟨_, _, _, _, hc, hoff.1, hplan, hasks', ?_⟩
    rw [Question.trails_of_target hv]
    refine List.mem_map.2 ⟨_, hrest, ?_⟩
    simp only [Remark.under, Trail.after, List.append_assoc]

/-- The first trail of the list comes before all others there are. -/
theorem uncovers_first {path : List Address} {v : Value} {x : Trail × Remark}
    {others : List (Trail × Remark)} (h : w.trails supply path v = x :: others) :
    w.Uncovers supply path v x.1 x.2 ∧ ∀ t m, w.Uncovers supply path v t m →
      t = x.1 ∨ x.1.places < t.places := by
  have hsorted := @trails_sorted w supply path v
  rw [h] at hsorted
  refine ⟨mem_trails.1 (h ▸ List.mem_cons_self), fun t m hm => ?_⟩
  have hm : (t, m) ∈ x :: others := h ▸ mem_trails.2 hm
  rcases List.mem_cons.1 hm with hm | hm
  · exact .inl (congrArg Prod.fst hm)
  · exact .inr ((List.pairwise_cons.1 hsorted).1 _ hm)

end World

end Rulebook
