import Mathlib.Data.List.Forall2
import Rulebook.Proofs.Course

/-!
# Gathering

`Course.gather` is the one loop of a validation: it looks at the elements of a list one after the
other and collects what is found, or stops at the first finding. All that is found was found in some
of the elements, in their order (`gather_sublist`). The other lemmas compare what a loop finds with
what its looks say (`gather_perm`), or with what another loop finds: one that skips elements
(`gather_filterMap`), that goes through them in another order (`gather_of_perm`), or that stops at
the first finding (`gather_heads`).
-/

set_option autoImplicit false

namespace Rulebook

namespace Course

variable {α β : Type}

/-- Collects what is found in a list, or only the first of it. -/
def gather (first : Bool) (look : α → Course (Option β)) : List α → Course (List β)
  | [] => pure []
  | a :: rest => do
    match ← look a with
    | none => gather first look rest
    | some b =>
      if first then pure [b]
      else do
        let others ← gather first look rest
        pure (b :: others)

variable {first : Bool} {look : α → Course (Option β)}

/-- What is found was found in some of the elements, in their order. -/
theorem gather_sublist {as : List α} {bs : List β} (h : (gather first look as).outcome = .ok bs) :
    ∃ as', as'.Sublist as ∧ List.Forall₂ (fun a b => (look a).outcome = .ok (some b)) as' bs := by
  induction as generalizing bs with
  | nil =>
    cases h
    exact ⟨[], .slnil, .nil⟩
  | cons a rest ih =>
    obtain ⟨o, ho, h⟩ := outcome_bind_eq_ok.1 h
    cases o with
    | none =>
      obtain ⟨as', hs, hfound⟩ := ih h
      exact ⟨as', hs.cons a, hfound⟩
    | some b =>
      cases first with
      | true =>
        cases h
        exact ⟨[a], (List.nil_sublist rest).cons_cons a, .cons ho .nil⟩
      | false =>
        obtain ⟨others, hothers, h⟩ := outcome_bind_eq_ok.1 h
        cases h
        obtain ⟨as', hs, hfound⟩ := ih hothers
        exact ⟨a :: as', hs.cons_cons a, .cons ho hfound⟩

/-- What is found was found in some element. -/
theorem mem_of_gather {as : List α} {bs : List β} (h : (gather first look as).outcome = .ok bs)
    {b : β} (hb : b ∈ bs) : ∃ a ∈ as, (look a).outcome = .ok (some b) := by
  obtain ⟨as', hs, hfound⟩ := gather_sublist h
  obtain ⟨i, hi, rfl⟩ := List.mem_iff_getElem.1 hb
  have hi' : i < as'.length := hfound.length_eq ▸ hi
  exact ⟨as'[i], hs.subset (List.getElem_mem hi'), hfound.get hi' hi⟩

theorem gather_map {γ : Type} (f : γ → α) (cs : List γ) :
    gather first look (cs.map f) = gather first (fun c => look (f c)) cs := by
  induction cs with
  | nil => rfl
  | cons c rest ih => simp only [List.map_cons, gather, ih]

/-- The loop over elements together with their places. -/
theorem gather_zipIdx (as : List α) :
    gather first look as = gather first (fun x => look x.1) as.zipIdx := by
  rw [← gather_map Prod.fst, List.zipIdx_map_fst]

/-- The loop goes the same if every look that it takes does. -/
theorem gather_congr {P : ClassId → Prop} {look' : α → Course (Option β)} {as : List α}
    (hl : ∀ a ∈ as, (look a).AsksOnly P → look' a = look a)
    (h : (gather first look as).AsksOnly P) : gather first look' as = gather first look as := by
  induction as with
  | nil => rfl
  | cons a rest ih =>
    have ih := ih fun a ha => hl a (.tail _ ha)
    rw [gather, gather, hl a (.head _) h.left]
    refine bind_congr _ fun o ho => ?_
    have h := h.right ho
    cases o with
    | none => exact ih h
    | some b =>
      cases first with
      | true => rfl
      | false =>
        have h : (gather false look rest >>= fun others => pure (b :: others)).AsksOnly P := h
        simp only [Bool.false_eq_true, if_false]
        rw [ih h.left]

theorem gather_asksOnly {P : ClassId → Prop} {as : List α} (h : ∀ a ∈ as, (look a).AsksOnly P) :
    (gather first look as).AsksOnly P := by
  induction as with
  | nil => exact .pure []
  | cons a rest ih =>
    have ih := ih fun a ha => h a (.tail _ ha)
    refine (h a (.head _)).bind fun o _ => ?_
    cases o with
    | none => exact ih
    | some b =>
      cases first with
      | true => exact .pure [b]
      | false => exact ih.bind fun _ _ => .pure _

/-- The loop has an outcome if every look has one. -/
theorem gather_ok {as : List α} (h : ∀ a ∈ as, ∃ o, (look a).outcome = .ok o) :
    ∃ bs, (gather first look as).outcome = .ok bs := by
  induction as with
  | nil => exact ⟨[], rfl⟩
  | cons a rest ih =>
    obtain ⟨o, ho⟩ := h a (.head _)
    obtain ⟨bs, hbs⟩ := ih fun a ha => h a (.tail _ ha)
    rw [gather, outcome_bind_ok ho]
    cases o with
    | none => exact ⟨bs, hbs⟩
    | some b =>
      cases first with
      | true => exact ⟨[b], rfl⟩
      | false => exact ⟨b :: bs, by simp [outcome_bind_ok hbs]⟩

theorem outcome_gather_cons (a : α) (rest : List α) : (gather false look (a :: rest)).outcome =
    (look a).outcome.bind fun o => (gather false look rest).outcome.map (o.toList ++ ·) := by
  rw [gather, outcome_bind]
  congr 1
  funext o
  cases o with
  | none => cases (gather false look rest).outcome <;> rfl
  | some b =>
    simp only [Bool.false_eq_true, if_false, outcome_bind]
    cases (gather false look rest).outcome <;> rfl

theorem gather_cons_eq_ok {a : α} {rest : List α} {bs : List β} :
    (gather false look (a :: rest)).outcome = .ok bs ↔ ∃ o others, (look a).outcome = .ok o ∧
      (gather false look rest).outcome = .ok others ∧ bs = o.toList ++ others := by
  rw [outcome_gather_cons]
  cases (look a).outcome <;> cases (gather false look rest).outcome <;>
    simp [Except.bind, Except.map, eq_comm]

theorem ok_of_gather {as : List α} {bs : List β} (h : (gather false look as).outcome = .ok bs)
    {a : α} (ha : a ∈ as) : ∃ o, (look a).outcome = .ok o := by
  induction as generalizing bs with
  | nil => cases ha
  | cons a' rest ih =>
    obtain ⟨o, others, ho, hothers, -⟩ := gather_cons_eq_ok.1 h
    rcases List.mem_cons.1 ha with rfl | ha
    · exact ⟨o, ho⟩
    · exact ih hothers ha

/-- The loop that does not stop leaves nothing out: if all that looking at an element adds is `g` of
it, all that the loop adds is `g` of the list. -/
theorem gather_perm {γ : Type} {f : β → List γ} {g : α → List γ} {as : List α} {bs : List β}
    (h : (gather false look as).outcome = .ok bs)
    (hl : ∀ a ∈ as, ∀ o, (look a).outcome = .ok o → (o.toList.flatMap f).Perm (g a)) :
    (bs.flatMap f).Perm (as.flatMap g) := by
  induction as generalizing bs with
  | nil => cases h; exact .nil
  | cons a rest ih =>
    obtain ⟨o, others, ho, hothers, rfl⟩ := gather_cons_eq_ok.1 h
    rw [List.flatMap_append, List.flatMap_cons]
    exact (hl a (.head _) o ho).append (ih hothers fun a ha => hl a (.tail _ ha))

/-- A loop that does not stop and skips elements finds what is left of the findings of one that
looks at all, if nothing is left of those in the elements that are skipped. -/
theorem gather_filterMap {γ : Type} {look' : α → Course (Option γ)} {f : β → Option γ}
    {keep : α → Bool} {as : List α}
    (hkeep : ∀ a ∈ as, keep a = true → (look' a).outcome = (look a).outcome.map (·.bind f))
    (hdrop : ∀ a ∈ as, keep a = false → (look a).outcome.map (·.bind f) = .ok none) :
    (gather false look' (as.filter keep)).outcome =
      (gather false look as).outcome.map (·.filterMap f) := by
  induction as with
  | nil => rfl
  | cons a rest ih =>
    have ih := ih (fun a ha => hkeep a (.tail _ ha)) (fun a ha => hdrop a (.tail _ ha))
    have hfilter (o : Option β) (bs : List β) :
        (o.toList ++ bs).filterMap f = (o.bind f).toList ++ bs.filterMap f := by
      cases o with
      | none => rfl
      | some b => cases hb : f b <;> simp [hb]
    have hmap (x : Except Fault (Option β)) (y : Except Fault (List β)) :
        (x.bind fun o => y.map (o.toList ++ ·)).map (·.filterMap f) =
          (x.map (·.bind f)).bind fun o => (y.map (·.filterMap f)).map (o.toList ++ ·) := by
      cases x with
      | error fault => rfl
      | ok o => cases y <;> simp [Except.bind, Except.map, hfilter]
    rw [outcome_gather_cons, hmap, ← ih]
    cases hk : keep a with
    | true =>
      rw [List.filter_cons_of_pos hk, outcome_gather_cons, hkeep a (.head _) hk]
    | false =>
      rw [List.filter_cons_of_neg (by simp [hk]), hdrop a (.head _) hk]
      cases (gather false look' (rest.filter keep)).outcome <;> rfl

/-- A loop that does not stop finds related things if every look does. -/
theorem gather_forall₂ {γ : Type} {R : β → γ → Prop} {look' : α → Course (Option γ)} {as : List α}
    {bs : List β} (h : (gather false look as).outcome = .ok bs)
    (hl : ∀ a ∈ as, ∀ o, (look a).outcome = .ok o →
      ∃ o', (look' a).outcome = .ok o' ∧ List.Forall₂ R o.toList o'.toList) :
    ∃ cs, (gather false look' as).outcome = .ok cs ∧ List.Forall₂ R bs cs := by
  induction as generalizing bs with
  | nil =>
    cases h
    exact ⟨[], rfl, .nil⟩
  | cons a rest ih =>
    obtain ⟨o, others, ho, hothers, rfl⟩ := gather_cons_eq_ok.1 h
    obtain ⟨o', ho', hrel⟩ := hl a (.head _) o ho
    obtain ⟨others', hothers', hall⟩ := ih hothers fun a ha => hl a (.tail _ ha)
    exact ⟨_, gather_cons_eq_ok.2 ⟨o', others', ho', hothers', rfl⟩, List.rel_append hrel hall⟩

/-- A loop that does not stop finds the same in any order of the elements, in that order. -/
theorem gather_of_perm {as as' : List α} {bs : List β} (hp : as.Perm as')
    (h : (gather false look as).outcome = .ok bs) :
    ∃ bs', (gather false look as').outcome = .ok bs' ∧ bs.Perm bs' := by
  induction hp generalizing bs with
  | nil => exact ⟨bs, h, .refl bs⟩
  | cons a _ ih =>
    obtain ⟨o, others, ho, hothers, rfl⟩ := gather_cons_eq_ok.1 h
    obtain ⟨others', hothers', hperm⟩ := ih hothers
    exact ⟨_, gather_cons_eq_ok.2 ⟨o, others', ho, hothers', rfl⟩, hperm.append_left _⟩
  | swap a b rest =>
    obtain ⟨ob, _, hb, hrest, rfl⟩ := gather_cons_eq_ok.1 h
    obtain ⟨oa, others, ha, hothers, rfl⟩ := gather_cons_eq_ok.1 hrest
    have hrest' := gather_cons_eq_ok.2 ⟨ob, others, hb, hothers, rfl⟩
    refine ⟨_, gather_cons_eq_ok.2 ⟨oa, _, ha, hrest', rfl⟩, ?_⟩
    rw [← List.append_assoc, ← List.append_assoc]
    exact List.perm_append_comm.append_right others
  | trans _ _ ih ih' =>
    obtain ⟨bs₁, h₁, hp₁⟩ := ih h
    obtain ⟨bs₂, h₂, hp₂⟩ := ih' h₁
    exact ⟨bs₂, h₂, hp₁.trans hp₂⟩

/-- Two runs and a list agree about what comes first: all are empty, or their heads are related and
the second run has nothing else. -/
inductive Heads {γ δ : Type} (R : β → γ → δ → Prop) : List β → List γ → List δ → Prop
  | nil : Heads R [] [] []
  | cons {b : β} {bs : List β} {c : γ} {d : δ} {ds : List δ} :
      R b c d → Heads R (b :: bs) [c] (d :: ds)

namespace Heads

variable {γ δ : Type} {R : β → γ → δ → Prop} {cs : List γ} {ds : List δ}

theorem eq_nil (h : Heads R [] cs ds) : cs = [] ∧ ds = [] := by
  cases h
  exact ⟨rfl, rfl⟩

theorem eq_cons {b : β} {bs : List β} (h : Heads R (b :: bs) cs ds) :
    ∃ c d ds', cs = [c] ∧ ds = d :: ds' ∧ R b c d := by
  cases h with
  | cons h => exact ⟨_, _, _, rfl, rfl, h⟩

end Heads

/-- The loop that stops at the first finding agrees with the one that does not about the head, if
looking at any one element does. -/
theorem gather_heads {γ δ : Type} {R : β → γ → δ → Prop} {look' : α → Course (Option γ)}
    {g : α → List δ} {as : List α} {bs : List β} (h : (gather false look as).outcome = .ok bs)
    (hl : ∀ a ∈ as, ∀ o, (look a).outcome = .ok o →
      ∃ o', (look' a).outcome = .ok o' ∧ Heads R o.toList o'.toList (g a)) :
    ∃ cs, (gather true look' as).outcome = .ok cs ∧ Heads R bs cs (as.flatMap g) := by
  induction as generalizing bs with
  | nil =>
    cases h
    exact ⟨[], rfl, .nil⟩
  | cons a rest ih =>
    obtain ⟨o, ho, h⟩ := outcome_bind_eq_ok.1 h
    obtain ⟨o', ho', hheads⟩ := hl a (.head _) o ho
    rw [gather, outcome_bind_ok ho', List.flatMap_cons]
    cases o with
    | none =>
      -- nothing here for either run, so the head is that of the rest
      obtain ⟨hnone, hnil⟩ := hheads.eq_nil
      rw [Option.toList_eq_nil_iff.1 hnone, hnil]
      exact ih h fun a ha => hl a (.tail _ ha)
    | some b =>
      obtain ⟨others, -, h⟩ := outcome_bind_eq_ok.1 h
      cases h
      obtain ⟨c, d, ds, hsome, hg, hR⟩ := hheads.eq_cons
      rw [Option.toList_eq_singleton_iff.1 hsome, hg]
      exact ⟨[c], rfl, .cons hR⟩

/-- Two lists one after the other; the second is left alone if the first is enough. -/
theorem gather_append (as bs : List α) :
    gather first look (as ++ bs) = (do
      let found ← gather first look as
      if first && !found.isEmpty then pure found
      else do
        let others ← gather first look bs
        pure (found ++ others)) := by
  induction as with
  | nil => simp [gather]
  | cons a rest ih =>
    simp only [List.cons_append, gather, bind_assoc]
    congr 1
    funext o
    cases o with
    | none => exact ih
    | some b =>
      cases first with
      | true => rfl
      | false =>
        simp only [Bool.false_eq_true, if_false, Bool.false_and] at ih ⊢
        rw [ih]
        simp [bind_assoc]

end Course

end Rulebook
