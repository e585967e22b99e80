import Rulebook.Proofs.Inspection
import Rulebook.Proofs.Reach

/-!
# Rules bind one class only

A declaration is about the class that it names and about no other, neither one that inherits from it
nor one that it inherits from. The plan of a class comes from its own declarations
(`Setup.planOf_extending`), and a validation asks for the plans of classes of objects that can be
got from its root by reading properties and elements (`World.Within`). So declarations of any other
classes change nothing at all, not even if these could not be compiled.
-/

set_option autoImplicit false

namespace Rulebook

open Relation (ReflTransGen)

/-! ## What can be read -/

namespace World

/-- A value holds its properties, under keys of any kind, and its elements. -/
inductive Holds (w : World) : Value → Value → Prop
  | property (o key : Value) : Holds w o (w.resolve o key).1
  | element {o : Value} {n i : Nat} {get : Nat → Value} :
      w.heap.sequence? o = some (n, get) → i < n → Holds w o (get i)

/-- `o` can be got from `root` by reading properties and elements, `root` itself by reading none. -/
def Within (w : World) (root o : Value) : Prop := ReflTransGen w.Holds root o

end World

theorem Question.subject_of_target {h : Heap} {q : Question} {v : Value}
    (hv : q.target? h = some v) : q.subject = v := by
  unfold target? at hv
  split at hv
  · cases hv
  · split at hv
    · exact Option.some.inj hv
    · cases hv

/-- A question is about the value itself or about one of its elements. -/
theorem Action.subject_of_mem_questions {h : Heap} {v : Value} {a : Action} {q : Question}
    (hq : q ∈ a.questions h v) : q.subject = v ∨
      ∃ n i get, h.sequence? v = some (n, get) ∧ i < n ∧ q.subject = get i := by
  obtain ⟨n, get, -, hs, he⟩ | ⟨-, he⟩ := a.questions_cases h v <;> rw [he] at hq
  · obtain ⟨i, hi, rfl⟩ := List.mem_map.1 hq
    have hi : i < n := by simpa using hi
    exact .inr ⟨n, i, get, hs, hi, rfl⟩
  · rw [List.mem_singleton.1 hq]
    exact .inl rfl

theorem Executor.mem_questions {w : World} {o : Value} {e : Executor} {q : Question}
    (hq : q ∈ e.questions w o) :
    ∃ a ∈ e.actions, q ∈ a.questions w.heap (w.resolve o e.key).1 := by
  unfold questions at hq
  dsimp only at hq
  split at hq
  · cases hq
  · exact List.mem_flatMap.1 hq

namespace World

variable {w : World} {supply : Supply} {root o v : Value}

/-- What a nested rule leads to is a property, or an element of one. -/
theorem Nested.within (h : w.Nested supply o v) : w.Within o v := by
  obtain ⟨-, -, -, hq, hv⟩ := h
  rename_i a _ e q
  have hprop : w.Within (.object a) (w.resolve (.object a) e.key).1 := .single (.property _ _)
  obtain ⟨action, -, hq⟩ := Executor.mem_questions hq
  rcases Action.subject_of_mem_questions hq with hs | ⟨n, i, get, hseq, hi, hs⟩ <;>
    rw [Question.subject_of_target hv] at hs <;> rw [hs]
  · exact hprop
  · exact hprop.tail (.element hseq hi)

theorem Below.within (h : w.Below supply root o) : w.Within root o := by
  induction h with
  | refl => exact .refl
  | tail _ hn ih => exact ih.trans hn.within

end World

/-! ## Declarations of other classes -/

namespace Setup

variable {s : Setup} {ds : List Declaration}

/-- A class that none of the declarations names has the rules that it had. -/
theorem rulesOf_extending {c : ClassId} (h : ∀ d ∈ ds, d.owner ≠ c) :
    (s.extending ds).rules.rulesOf c = s.rules.rulesOf c := by
  have hnone : ds.filter (·.owner = c) = [] :=
    List.filter_eq_nil_iff.2 fun d hd => by simpa using h d hd
  rw [extending, Registry.rulesOf_addAll, hnone, List.append_nil]

section
variable {c : ClassId} (h : (s.extending ds).rules.rulesOf c = s.rules.rulesOf c)
include h

theorem planOf_extending : (s.extending ds).planOf c = s.planOf c := by
  unfold planOf
  rw [h]
  rfl

theorem supply_extending (plans : Catalog ClassId Plan) :
    (s.extending ds).supply plans c = s.supply plans c := by
  unfold supply
  rw [h]
  rfl

theorem apply_extending (run : Run) :
    (s.extending ds).apply run (.asked c) = s.apply run (.asked c) := by
  simp only [apply, h]
  rfl

end

/-- Events do the same to the state if the classes that are asked for keep their rules. -/
theorem replay_extending {events : List Event}
    (h : ∀ c ∈ Event.classes events, (s.extending ds).rules.rulesOf c = s.rules.rulesOf c)
    (run : Run) : (s.extending ds).replay run events = s.replay run events := by
  induction events generalizing run with
  | nil => rw [replay_nil, replay_nil]
  | cons e rest ih =>
    rw [replay_cons, replay_cons]
    cases e with
    | noted records => exact ih h _
    | asked c =>
      obtain ⟨hc, hrest⟩ := List.forall_mem_cons.1 h
      rw [apply_extending hc, ih hrest]

/-- If the classes of objects below the root keep their rules, nothing changes. -/
theorem validate_of_rulesOf {root : Value} {run : Run}
    (h : ∀ a, s.world.Below (s.supply run.plans) root (.object a) →
      s.world.heap.isComposite (.object a) = true →
      (s.extending ds).rules.rulesOf (s.world.classOf (.object a)) =
        s.rules.rulesOf (s.world.classOf (.object a))) :
    (s.extending ds).validate root run = s.validate root run := by
  have hasks : (s.world.survey s.settings.abortEarly (s.supply run.plans) run.path root).AsksOnly
      fun c => (s.extending ds).rules.rulesOf c = s.rules.rulesOf c :=
    World.asksOnly_survey _ _ h
  have hsurvey : s.world.survey s.settings.abortEarly ((s.extending ds).supply run.plans)
      run.path root = s.world.survey s.settings.abortEarly (s.supply run.plans) run.path root :=
    World.survey_congr _ _ fun c hc => supply_extending (hasks c hc) run.plans
  refine ((s.extending ds).validate_eq root run).trans (.trans ?_ (s.validate_eq root run).symm)
  have hreplay := replay_extending hasks run
  rw [← hsurvey] at hreplay
  exact Prod.ext (congrArg Course.outcome hsurvey)
    (hreplay.trans (congrArg (fun t => s.replay run t.events) hsurvey))

/-- Declarations of classes that no object within reach of the root has make no difference to a
validation, whether it stops early or not: it comes to the same, makes the same plans and adds the
same records. It does not matter what these declarations are, nor that their classes may inherit
from those within reach, or the other way round: a class gets the same plan whenever the
declarations name other classes. -/
theorem validate_extending (s : Setup) (ds : List Declaration) :
    (∀ root run, (∀ d ∈ ds, ∀ o, s.world.Within root o → s.world.heap.isComposite o = true →
        s.world.classOf o ≠ d.owner) →
      ∀ first, ((s.extending ds).aborting first).validate root run =
        (s.aborting first).validate root run) ∧
    ∀ c, (∀ d ∈ ds, d.owner ≠ c) → (s.extending ds).planOf c = s.planOf c := by
  refine ⟨fun root run h first => ?_, fun c hc => planOf_extending (rulesOf_extending hc)⟩
  change ((s.aborting first).extending ds).validate root run = _
  refine validate_of_rulesOf fun a ha hc => rulesOf_extending fun d hd heq => ?_
  exact h d hd (.object a) ha.within hc heq.symm

end Setup

namespace Ring

/-- A rule of the class that every other one inherits from, with a priority beyond all doubles. -/
def unfit : Declaration :=
  ⟨.builtin .object, .text "label", .text "IsString", [], none,
    some ⟨none, false, some (.int (.ofNat (Nat.pow 10 400)))⟩, none⟩

theorem classOf_composite {o : Value} (h : world.heap.isComposite o = true) :
    world.classOf o = .declared 0 := by
  obtain ⟨a, rfl⟩ := Heap.eq_object h
  match a, Heap.lt_size h with
  | 0, _ => rfl
  | 1, _ => rfl

end Ring

theorem Setup.validate_extending_ring :
    (∀ d ∈ [Ring.unfit], ∀ o, Ring.world.Within (.object 0) o →
      Ring.world.heap.isComposite o = true → Ring.world.classOf o ≠ d.owner) ∧
    ((Ring.setup.extending [Ring.unfit]).supply [] (.builtin .object)).toOption.isNone = true ∧
    (((Ring.setup.extending [Ring.unfit]).aborting false).validate (.object 0) ⟨[], [], []⟩).1 =
      .ok Ring.reports ∧
    (Ring.setup.extending [Ring.unfit]).planOf (.declared 0) = Ring.setup.planOf (.declared 0) := by
  have howner : ∀ d ∈ [Ring.unfit], ∀ o, Ring.world.Within (.object 0) o →
      Ring.world.heap.isComposite o = true → Ring.world.classOf o ≠ d.owner := by
    intro d hd o _ hc
    rw [List.mem_singleton.1 hd, Ring.classOf_composite hc]
    decide
  have h := validate_extending Ring.setup [Ring.unfit]
  refine ⟨howner, by decide +kernel, ?_, h.2 _ (by decide)⟩
  rw [h.1 (.object 0) ⟨[], [], []⟩ howner false]
  exact Ring.validate_fst

end Rulebook
