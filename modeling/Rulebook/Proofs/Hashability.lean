import Rulebook.Proofs.Compilability
import Rulebook.Proofs.References

/-!
# Values that cannot be keys

A value cannot be a key if it is a container that changes, a signalling decimal, or an instance of a
class that says so or whose code fails; or if it is a tuple with such a value in it, at any depth
(`World.HashFails`). The key of a value is looked for as many tuples deep as there are objects. That
is deep enough: a way down to what has no key need not come through any tuple twice, so there is one
that comes through each at most once (`World.HashFailsWithin`).
-/

set_option autoImplicit false

namespace Rulebook

namespace World

/-- Why the value has no key by itself, whatever it holds; none if that does not keep it from being
one. -/
def lacksKey? (w : World) (v : Value) : Option Fault :=
  match w.heap.plain v with
  | .byteArray _ => some (.unhashable (w.nameOfClassOf v))
  | .decimal (.nan _ true ..) => some .unhashableDecimal
  | .object a =>
    match w.hashing? (w.classOf v) with
    | some .none => some (.unhashable (w.nameOfClassOf v))
    | some (.own code) =>
      match code a with
      | .error fault => some fault
      | .ok _ => none
    | none =>
      match w.heap.content? v with
      | some (.list _) | some (.set _) | some (.mapping _) =>
        some (.unhashable (w.nameOfClassOf v))
      | _ => none
  | _ => none

/-- Making a key of the value fails: it has none by itself, or it is a tuple of which an element has
none, at any depth. -/
inductive HashFails (w : World) : Value → Fault → Prop
  | lacks {v : Value} {fault : Fault} : w.lacksKey? v = some fault → HashFails w v fault
  | tuple {v u : Value} {items : Array Value} {fault : Fault} :
      w.keyParts? v = some items → u ∈ items → HashFails w u fault → HashFails w v fault

variable {w w' : World} {v : Value} {fault : Fault}

/-! ## One value -/

theorem keysOf_of_error {key : Value → Except Fault Key} {vs : List Value} {u : Value}
    (hu : u ∈ vs) (h : ∃ fault, key u = .error fault) : ∃ fault, keysOf key vs = .error fault := by
  induction vs with
  | nil => cases hu
  | cons v rest ih =>
    rw [keysOf]
    cases hv : key v with
    | error fault => exact ⟨fault, rfl⟩
    | ok first =>
      rcases List.mem_cons.1 hu with rfl | hrest
      · obtain ⟨fault, hfault⟩ := h
        rw [hv] at hfault
        cases hfault
      · obtain ⟨fault, hfault⟩ := ih hrest
        exact ⟨fault, by rw [hfault]; rfl⟩

/-- Without room for any tuple, a value has a key unless it lacks one by itself. -/
theorem keyWithin_zero_cases (w : World) (v : Value) :
    ((∃ k, w.keyWithin 0 v = .ok k) ∧ w.lacksKey? v = none) ∨
      ∃ fault, w.keyWithin 0 v = .error fault ∧ w.lacksKey? v = some fault := by
  unfold keyWithin lacksKey?
  cases w.heap.plain v with
  | byteArray bs => exact .inr ⟨_, rfl, rfl⟩
  | decimal d =>
    cases d with
    | nan negative signalling payload tag =>
      cases signalling with
      | true => exact .inr ⟨_, rfl, rfl⟩
      | false => exact .inl ⟨⟨_, rfl⟩, rfl⟩
    | _ => exact .inl ⟨⟨_, rfl⟩, rfl⟩
  | object a =>
    dsimp only
    cases w.hashing? (w.classOf v) with
    | some hashing =>
      cases hashing with
      | none => exact .inr ⟨_, rfl, rfl⟩
      | own code =>
        dsimp only
        cases code a with
        | ok b => exact .inl ⟨⟨_, rfl⟩, rfl⟩
        | error fault => exact .inr ⟨_, rfl, rfl⟩
    | none =>
      dsimp only
      cases w.heap.content? v with
      | none => exact .inl ⟨⟨_, rfl⟩, rfl⟩
      | some content =>
        cases content with
        | list _ | set _ | mapping _ => exact .inr ⟨_, rfl, rfl⟩
        | _ => exact .inl ⟨⟨_, rfl⟩, rfl⟩
  | _ => exact .inl ⟨⟨_, rfl⟩, rfl⟩

theorem keyWithin_zero_eq_error : w.keyWithin 0 v = .error fault ↔ w.lacksKey? v = some fault := by
  obtain ⟨⟨k, hk⟩, hv⟩ | ⟨fault', hk, hv⟩ := w.keyWithin_zero_cases v <;> rw [hk, hv] <;> simp

theorem lacksKey?_of_parts {items : Array Value} (hc : w.keyParts? v = some items) :
    w.lacksKey? v = none := by
  obtain ⟨hh, hc⟩ := keyParts?_eq_some.1 hc
  cases v with
  | object a =>
    have hp : w.heap.plain (.object a) = .object a := by rw [Heap.plain, hc]
    simp only [lacksKey?, hp, hh, hc]
  | _ => cases hc

/-- A tuple has no key if one of its elements has none. -/
theorem keyWithin_succ_tuple {room : Nat} {items : Array Value} {u : Value}
    (hc : w.keyParts? v = some items) (hu : u ∈ items)
    (h : ∃ fault, w.keyWithin room u = .error fault) :
    ∃ fault, w.keyWithin (room + 1) v = .error fault := by
  cases v with
  | object a =>
    simp only [keyWithin_tuple hc, Except.map_eq_error]
    exact keysOf_of_error (Array.mem_toList_iff.2 hu) h
  | _ => cases (keyParts?_eq_some.1 hc).2

/-- Making a key of the value fails, which is seen by a way down through different tuples among the
`free` ones. -/
inductive HashFailsWithin (w : World) : Finset Address → Value → Prop
  | lacks {free : Finset Address} {v : Value} {fault : Fault} : w.lacksKey? v = some fault →
      HashFailsWithin w free v
  | tuple {free : Finset Address} {a : Address} {u : Value} {items : Array Value} : a ∈ free →
      w.keyParts? (.object a) = some items → u ∈ items →
      HashFailsWithin w (free.erase a) u → HashFailsWithin w free (.object a)

theorem HashFailsWithin.mono {free free' : Finset Address} (h : w.HashFailsWithin free v)
    (hsub : free ⊆ free') : w.HashFailsWithin free' v := by
  induction h generalizing free' with
  | lacks hv => exact .lacks hv
  | tuple ha hc hu _ ih => exact .tuple (hsub ha) hc hu (ih (Finset.erase_subset_erase _ hsub))

/-- A way down keeps clear of a tuple, or part of it is a way down from there. -/
theorem HashFailsWithin.avoid {free : Finset Address} (h : w.HashFailsWithin free v)
    (a : Address) : w.HashFailsWithin (free.erase a) v ∨ w.HashFailsWithin free (.object a) := by
  induction h with
  | lacks hv => exact .inl (.lacks hv)
  | @tuple free b u items hb hc hu hway ih =>
    by_cases hab : b = a
    · exact .inr (hab ▸ .tuple hb hc hu hway)
    · rcases ih with hclear | hfrom
      · rw [Finset.erase_right_comm] at hclear
        exact .inl (.tuple (Finset.mem_erase.2 ⟨hab, hb⟩) hc hu hclear)
      · exact .inr (hfrom.mono (Finset.erase_subset _ _))

/-- There always is a way down through different tuples. -/
theorem HashFails.within (h : w.HashFails v fault) :
    w.HashFailsWithin (Finset.range w.heap.size) v := by
  induction h with
  | lacks hv => exact .lacks hv
  | @tuple v u items fault hc hu _ ih =>
    have hcontent := (keyParts?_eq_some.1 hc).2
    cases v with
    | object a =>
      have ha : a < w.heap.size := Heap.lt_size (by simp only [Heap.isComposite, hcontent])
      rcases ih.avoid a with hclear | hfrom
      · exact .tuple (Finset.mem_range.2 ha) hc hu hclear
      · exact hfrom
    | _ => cases hcontent

theorem HashFailsWithin.keyWithin {free : Finset Address} (h : w.HashFailsWithin free v)
    {room : Nat} (hroom : free.card ≤ room) : ∃ fault, w.keyWithin room v = .error fault := by
  induction h generalizing room with
  | @lacks free v fault hv =>
    have hc : w.keyParts? v = none := by
      cases hc : w.keyParts? v with
      | none => rfl
      | some items => rw [lacksKey?_of_parts hc] at hv; cases hv
    exact ⟨fault, (keyWithin_of_not_tuple hc room).trans (keyWithin_zero_eq_error.2 hv)⟩
  | @tuple free a u items ha hc hu _ ih =>
    rw [← Finset.card_erase_add_one ha] at hroom
    obtain ⟨room, rfl⟩ : ∃ r, room = r + 1 := ⟨room - 1, by omega⟩
    exact keyWithin_succ_tuple hc hu (ih (Nat.le_of_succ_le_succ hroom))

/-- All objects of the one world are in the other, as they were, and classes make keys of their
instances as before. -/
structure Grows (w w' : World) : Prop where
  objects : ∀ v o, w.heap.object? v = some o → w'.heap.object? v = some o
  hashing : ∀ c, w'.hashing? c = w.hashing? c

theorem Grows.content? (h : w.Grows w') {content : Content}
    (hc : w.heap.content? v = some content) : w'.heap.content? v = some content := by
  obtain ⟨o, ho, rfl⟩ := Option.map_eq_some_iff.1 hc
  exact Option.map_eq_some_iff.2 ⟨o, h.objects v o ho, rfl⟩

theorem Grows.classOf (h : w.Grows w') {content : Content}
    (hc : w.heap.content? v = some content) : w'.classOf v = w.classOf v := by
  obtain ⟨o, ho, -⟩ := Option.map_eq_some_iff.1 hc
  cases v with
  | object a =>
    have hold : w.heap[a]? = some o := ho
    have hnew : w'.heap[a]? = some o := h.objects _ o ho
    simp only [World.classOf, Heap.classOf, hold, hnew]
  | _ => rfl

theorem hashing?_of_no_content {a : Address} (hc : w.heap.content? (.object a) = none) :
    w.hashing? (w.classOf (.object a)) = none := by
  have ho : w.heap[a]? = none := Option.map_eq_none_iff.1 hc
  simp only [World.classOf, Heap.classOf, ho]
  rfl

theorem Grows.plain (h : w.Grows w') (hv : ∀ a, w.heap.plain v ≠ .object a) :
    w'.heap.plain v = w.heap.plain v := by
  cases v with
  | object a =>
    cases hc : w.heap.content? (.object a) with
    | none => exact absurd (by simp only [Heap.plain, hc]) (hv a)
    | some content => simp only [Heap.plain, hc, h.content? hc]
  | _ => rfl

theorem Grows.text? (h : w.Grows w') {s : String} (hv : w.heap.text? v = some s) :
    w'.heap.text? v = some s := by
  have hp : w'.heap.plain v = w.heap.plain v := h.plain fun a ha => by simp [Heap.text?, ha] at hv
  rwa [Heap.text?, hp]

theorem Grows.real? (h : w.Grows w') {r : Real} (hv : w.heap.real? v = some r) :
    w'.heap.real? v = some r := by
  have hp : w'.heap.plain v = w.heap.plain v := h.plain fun a ha => by simp [Heap.real?, ha] at hv
  rwa [Heap.real?, hp]

theorem Grows.under (h : w.Grows w') (hv : v.Under w.heap.size) : v.Under w'.heap.size := by
  cases v with
  | object a =>
    have ho := h.objects (.object a) _ (Array.getElem?_eq_getElem hv)
    exact (Array.getElem?_eq_some_iff.1 ho).1
  | _ => trivial

theorem Grows.isHashable (h : w.Grows w') (hv : v.Under w.heap.size) :
    w'.isHashable v = w.isHashable v := by
  cases v with
  | object a =>
    have hc : w.heap.content? (.object a) = some _ :=
      congrArg (Option.map _) (Array.getElem?_eq_getElem hv)
    simp only [World.isHashable, Heap.plain, hc, h.content? hc, h.classOf hc, h.hashing]
  | _ => rfl

theorem Grows.keyParts? (h : w.Grows w') {items : Array Value} (hc : w.keyParts? v = some items) :
    w'.keyParts? v = some items := by
  obtain ⟨hh, hc⟩ := keyParts?_eq_some.1 hc
  exact keyParts?_eq_some.2 ⟨by rw [h.hashing, h.classOf hc, hh], h.content? hc⟩

theorem Grows.lacksKey? (h : w.Grows w') (hv : w.lacksKey? v = some fault) :
    ∃ fault', w'.lacksKey? v = some fault' := by
  cases v with
  | object a =>
    cases hc : w.heap.content? (.object a) with
    | none => simp [World.lacksKey?, Heap.plain, hc, hashing?_of_no_content hc] at hv
    | some content =>
      have hp : w'.heap.plain (.object a) = w.heap.plain (.object a) := by
        simp only [Heap.plain, hc, h.content? hc]
      rw [World.lacksKey?] at hv ⊢
      rw [hp, h.classOf hc, h.hashing, h.content? hc, ← hc]
      split at hv
      · exact ⟨_, rfl⟩
      · exact ⟨_, rfl⟩
      · split at hv
        · exact ⟨_, rfl⟩
        · exact ⟨_, hv⟩
        · split at hv
          · exact ⟨_, rfl⟩
          · exact ⟨_, rfl⟩
          · exact ⟨_, rfl⟩
          · cases hv
      · cases hv
  | _ => exact ⟨_, hv⟩

end World

end Rulebook
