import Rulebook.Proofs.Survey

/-!
# Where a validation fails

A survey goes from plan to plan. It fails where it asks for the plan of a class that has none, and
nowhere else, and this is the last thing that it does (`Course.Halts`). So all the classes that it
has asked for before have got their plans.
-/

set_option autoImplicit false

namespace Rulebook

/-- The course fails as soon as it asks for the plan of a class that has none, with the reason for
that, and in no other case. -/
structure Course.Halts {α : Type} (supply : Supply) (t : Course α) : Prop where
  ok : ∀ a, t.outcome = .ok a → ∀ c ∈ Event.classes t.events, ∃ plan, supply c = .ok plan
  error : ∀ fault, t.outcome = .error fault → ∃ earlier c,
    Event.classes t.events = earlier ++ [c] ∧ supply c = .error fault ∧
      ∀ c' ∈ earlier, ∃ plan, supply c' = .ok plan

namespace Course

variable {α β : Type} {supply : Supply}

namespace Halts

protected theorem pure (a : α) : (pure a : Course α).Halts supply :=
  ⟨fun _ _ _ hc => (nomatch hc), fun _ h => nomatch h⟩

protected theorem note (records : List Record) : (note records).Halts supply :=
  ⟨fun _ _ _ hc => (nomatch hc), fun _ h => nomatch h⟩

protected theorem plan (c : ClassId) : (plan supply c).Halts supply := by
  refine ⟨fun plan hplan c' hc => ?_, fun fault hfault => ⟨[], c, rfl, hfault, ?_⟩⟩
  · rw [List.mem_singleton.1 hc]
    exact ⟨plan, hplan⟩
  · exact List.forall_mem_nil _

protected theorem bind {t : Course α} {f : α → Course β} (ht : t.Halts supply)
    (hf : ∀ a, t.outcome = .ok a → (f a).Halts supply) : (t >>= f).Halts supply := by
  obtain ⟨events, outcome⟩ := t
  cases outcome with
  | error fault => exact ⟨fun _ h => (nomatch h), fun fault' h => ht.error fault' (by cases h; rfl)⟩
  | ok a =>
    have hclasses : Event.classes (Course.mk events (.ok a) >>= f).events =
        Event.classes events ++ Event.classes (f a).events := Event.classes_append _ _
    have hearlier := ht.ok a rfl
    have ha := hf a rfl
    refine ⟨fun b hb c hc => ?_, fun fault hfault => ?_⟩
    · rw [hclasses] at hc
      exact (List.mem_append.1 hc).elim (hearlier c) (ha.ok b hb c)
    · obtain ⟨earlier, c, hlast, hc, hall⟩ := ha.error fault hfault
      refine ⟨Event.classes events ++ earlier, c, by rw [hclasses, hlast, List.append_assoc], hc,
        fun c' hc' => ?_⟩
      exact (List.mem_append.1 hc').elim (hearlier c') (hall c')

end Halts

end Course

section
variable {w : World} {supply : Supply} {nested : Value → Course (List Report)}

end

end Rulebook
