import Mathlib.Logic.Relation
import Rulebook.Proofs.Survey

/-!
# Where nested rules lead

`World.Nested w supply o v`: a nested rule of the object `o` leads to the value `v`.
`World.Below w supply root o`: nested rules lead from `root` to `o`, in any number of steps. Neither
knows of a path, so what lies below a value does not depend on how a validation has come to it.

A survey looks at nothing else. It asks for the plans of classes of objects below its root only
(`World.asksOnly_survey`), and the objects on the path matter only so far as they lie below
(`World.survey_congr_path`).
-/

set_option autoImplicit false

namespace Rulebook

open Relation (ReflTransGen)

namespace World

/-- A nested rule of an object leads to a value. -/
inductive Nested (w : World) (supply : Supply) : Value → Value → Prop
  | intro {a : Address} {plan : Plan} {e : Executor} {q : Question} {v : Value} :
      w.heap.isComposite (.object a) = true → supply (w.classOf (.object a)) = .ok plan →
      e ∈ plan.executors → q ∈ e.questions w (.object a) → q.target? w.heap = some v →
      Nested w supply (.object a) v

/-- Nested rules lead from `root` to `o`, in any number of steps. -/
def Below (w : World) (supply : Supply) (root o : Value) : Prop :=
  ReflTransGen (w.Nested supply) root o

/-- The values that nested rules of a value lead to. -/
def leads (w : World) (supply : Supply) (o : Value) : List Value :=
  if w.heap.isComposite o then
    match supply (w.classOf o) with
    | .ok plan => plan.executors.flatMap fun e => (e.questions w o).filterMap (·.target? w.heap)
    | .error _ => []
  else []

section
variable {w : World} {supply : Supply}

theorem nested_iff_mem_leads {o v : Value} : w.Nested supply o v ↔ v ∈ w.leads supply o := by
  constructor
  · rintro ⟨hc, hplan, he, hq, hv⟩
    rw [leads, if_pos hc, hplan]
    exact List.mem_flatMap.2 ⟨_, he, List.mem_filterMap.2 ⟨_, hq, hv⟩⟩
  · intro h
    unfold leads at h
    split at h
    · rename_i hc
      obtain ⟨a, rfl⟩ := Heap.eq_object hc
      split at h
      · rename_i hplan
        obtain ⟨e, he, h⟩ := List.mem_flatMap.1 h
        obtain ⟨q, hq, hv⟩ := List.mem_filterMap.1 h
        exact .intro hc hplan he hq hv
      · cases h
    · cases h

theorem Calls.nested {c c' : Value × List Address} (h : w.Calls supply c' c) :
    w.Nested supply c.1 c'.1 := by
  obtain ⟨hc, -, hplan, he, hq, hv⟩ := h
  exact .intro hc hplan he hq hv

theorem Nested.calls {a : Address} {v : Value} {path : List Address}
    (h : w.Nested supply (.object a) v) (ha : a ∉ path) :
    w.Calls supply (v, a :: path) (.object a, path) := by
  obtain ⟨hc, hplan, he, hq, hv⟩ := h
  exact .intro hc ha hplan he hq hv

end

end World

/-! ## Classes -/

section
variable {P : ClassId → Prop} {w : World} {nested : Value → Course (List Report)}

theorem Question.asksOnly_answer {name : String} {q : Question}
    (h : ∀ v, q.target? w.heap = some v → (nested v).AsksOnly P) :
    (q.answer w name nested).AsksOnly P := by
  unfold answer
  split
  · exact .bind (.note _) fun _ _ => .pure _
  · split
    · rename_i v hv
      exact (h v hv).bind fun _ _ => .pure _
    · exact .pure _

theorem Executor.asksOnly_survey {first : Bool} {o : Value} {e : Executor}
    (h : ∀ q ∈ e.questions w o, ∀ v, q.target? w.heap = some v → (nested v).AsksOnly P) :
    (e.survey w first nested o).AsksOnly P := by
  have hgather : (Course.gather first (Question.answer w e.name nested)
      (e.questions w o)).AsksOnly P :=
    Course.gather_asksOnly fun q hq => Question.asksOnly_answer (h q hq)
  exact .bind (.note _) fun _ _ => .bind (hgather.bind fun _ _ => .pure _) fun _ _ => .pure _

end

namespace World

variable {w : World} {supply : Supply} {first : Bool}

/-- A survey asks for the plans of classes of objects below its root. -/
theorem asksOnly_survey {P : ClassId → Prop} (path : List Address) (v : Value)
    (h : ∀ a, w.Below supply v (.object a) → w.heap.isComposite (.object a) = true →
      P (w.classOf (.object a))) : (w.survey first supply path v).AsksOnly P := by
  induction path, v using enter_induction with
  | skip path v hs => rw [survey_of_skips hs]; exact .pure []
  | enter path a hc ha ih =>
    rw [survey_enter hc ha]
    refine Course.AsksOnly.bind (fun c hm => ?_) fun plan hp => ?_
    · rw [List.mem_singleton.1 hm]
      exact h a .refl hc
    · refine Course.gather_asksOnly fun e he => Executor.asksOnly_survey fun q hq v hv => ?_
      exact ih v fun b hb => h b (.head (.intro hc hp he hq hv) hb)

/-! ## Paths -/

/-- On two paths that hold the same of the objects below a value, its survey is the same. -/
theorem survey_congr_path {path path' : List Address} {v : Value}
    (h : ∀ a, w.Below supply v (.object a) → (a ∈ path' ↔ a ∈ path)) :
    w.survey first supply path' v = w.survey first supply path v := by
  induction path, v using enter_induction generalizing path' with
  | skip path v hs =>
    have hs' : w.Skips path' v := by
      rcases hs with hc | ⟨a, ha, rfl⟩
      · exact .inl hc
      · exact .inr ⟨a, (h a .refl).2 ha, rfl⟩
    rw [survey_of_skips hs, survey_of_skips hs']
  | enter path a hc ha ih =>
    have ha' : a ∉ path' := fun hm => ha ((h a .refl).1 hm)
    rw [survey_enter hc ha, survey_enter hc ha']
    refine Course.bind_congr _ fun plan hp => ?_
    have hlook : ∀ e ∈ plan.executors,
        e.survey w first (w.survey first supply (a :: path')) (.object a) =
          e.survey w first (w.survey first supply (a :: path)) (.object a) := by
      intro e he
      refine Executor.survey_congr (P := fun _ => True) (fun q hq v hv _ => ?_) fun _ _ => trivial
      refine ih v fun b hb => ?_
      have hb := h b (.head (.intro hc hp he hq hv) hb)
      simp only [List.mem_cons, hb]
    exact Course.gather_congr (P := fun _ => True) (fun e he _ => hlook e he) fun _ _ => trivial

end World

end Rulebook
