import Rulebook.Proofs.ExactType

/-!
# What values refer to

Every reference is to an object that is there, and a tuple refers to older objects only
(`World.Sound`). So what can be got from an object by reading properties and elements is as old as
what it holds (`World.Within.under`), and a world that grows by an object (`World.plus`) leaves
everything known about the older ones as it was, the keys of values included (`World.key?_plus`).
-/

set_option autoImplicit false

namespace Rulebook

/-! ## Old values -/

/-- The value refers to no object at `n` or beyond. -/
def Value.Under (n : Nat) : Value → Prop
  | .object a => a < n
  | _ => True

def Content.Under (n : Nat) : Content → Prop
  | .scalar v | .member _ v => v.Under n
  | .list items | .tuple items => ∀ v ∈ items, v.Under n
  | .mapping entries => ∀ k v, entries.read? k = some v → v.Under n
  | _ => True

/-- All that can be read from the object refers to no object at `n` or beyond. -/
structure Object.Under (n : Nat) (o : Object) : Prop where
  content : o.content.Under n
  fields : ∀ k v, o.fields.read? k = some v → v.Under n
  slots : ∀ name v, o.slots.get? name = some v → v.Under n

def Member.Under (n : Nat) : Member → Prop
  | .plain v | .property (.constant v) => v.Under n
  | _ => True

theorem Value.Under.mono {n m : Nat} {v : Value} (h : v.Under n) (hnm : n ≤ m) : v.Under m := by
  cases v with
  | object a => exact Nat.lt_of_lt_of_le h hnm
  | _ => trivial

theorem Content.Under.mono {n m : Nat} {content : Content} (h : content.Under n) (hnm : n ≤ m) :
    content.Under m := by
  cases content with
  | scalar v | member name v => exact Value.Under.mono h hnm
  | list items | tuple items => exact fun v hv => (h v hv).mono hnm
  | mapping entries => exact fun k v hv => (h k v hv).mono hnm
  | _ => trivial

theorem Object.Under.mono {n m : Nat} {o : Object} (h : o.Under n) (hnm : n ≤ m) : o.Under m :=
  ⟨h.content.mono hnm, fun k v hv => (h.fields k v hv).mono hnm,
    fun name v hv => (h.slots name v hv).mono hnm⟩

theorem Member.Under.mono {n m : Nat} {member : Member} (h : member.Under n) (hnm : n ≤ m) :
    member.Under m := by
  cases member with
  | plain v => exact Value.Under.mono h hnm
  | property p =>
    cases p with
    | constant v => exact Value.Under.mono h hnm
    | _ => trivial
  | _ => trivial

namespace World

/-- The objects before `n` and the classes refer to no object at `n` or beyond. -/
structure Closed (w : World) (n : Nat) : Prop where
  /-- The members of the enumeration come first. -/
  standing : 2 ≤ n
  classes : ∀ d ∈ w.classes, ∀ name m, d.member? name = some m → m.Under n
  objects : ∀ a o, w.heap[a]? = some o → a < n → o.Under n

/-- Every reference is to an object that is there, and tuples hold older objects only. -/
structure Sound (w : World) : Prop where
  closed : w.Closed w.heap.size
  tuples : ∀ a items, w.heap.content? (.object a) = some (.tuple items) → ∀ v ∈ items, v.Under a

section
variable {w : World} {n : Nat}

theorem Closed.member?_under (h : w.Closed n) {c : ClassId} {name : String} {m : Member}
    (hm : w.member? c name = some m) : m.Under n := by
  obtain ⟨c', -, hc'⟩ := List.exists_of_findSome?_eq_some hm
  cases c' with
  | builtin b =>
    simp only [ownMember?] at hc'
    split at hc'
    · cases hc'; trivial
    · split at hc'
      · cases hc'; trivial
      · cases hc'
  | declared i =>
    simp only [ownMember?, classDef?, Option.bind_eq_some_iff] at hc'
    obtain ⟨d, hd, hm⟩ := hc'
    exact h.classes d (Array.mem_of_getElem? hd) name m hm

end

end World

/-! ## Reading -/

section
variable {w : World} {n : Nat} {v u : Value}

theorem Heap.mapping?_eq_some {h : Heap} {entries : Entries} :
    h.mapping? v = some entries ↔ h.content? v = some (.mapping entries) := by
  unfold mapping?
  split
  · simp [*]
  · rename_i hno
    refine ⟨fun h => ?_, fun hc => absurd hc (hno entries)⟩
    cases h

theorem Heap.part?_under {h : Heap} {name : String}
    (hv : ∀ content, h.content? v = some content → content.Under n)
    (hu : h.part? v name = some u) : u.Under n := by
  unfold part? at hu
  split at hu <;> first
    | cases hu; trivial
    | cases hu; exact hv _ ‹_›
    | cases hu

theorem Heap.sequence?_under {h : Heap} {size i : Nat} {get : Nat → Value}
    (hv : ∀ content, h.content? v = some content → content.Under n)
    (hs : h.sequence? v = some (size, get)) : (get i).Under n := by
  have hitem (items : Array Value) (hitems : ∀ x ∈ items, x.Under n) :
      (items.getD i .missing).Under n := by
    rw [Array.getD_eq_getD_getElem?]
    cases hx : items[i]? with
    | none => trivial
    | some x => exact hitems x (Array.mem_of_getElem? hx)
  unfold sequence? at hs
  split at hs
  · rename_i items hc
    cases hs
    exact hitem items (hv _ hc)
  · rename_i items hc
    cases hs
    exact hitem items (hv _ hc)
  · cases hs
    trivial
  · cases hs

namespace World

theorem Closed.classAttribute?_under (h : w.Closed n) {c : ClassId} {name : String}
    (hu : w.classAttribute? c name = some u) : u.Under n := by
  unfold classAttribute? at hu
  split at hu
  · rename_i a ha
    cases hu
    have hlt : a < 2 := by
      unfold Heap.member? at ha
      split at ha <;> cases ha <;> decide
    exact Nat.lt_of_lt_of_le hlt h.standing
  · obtain ⟨m, hm, rfl⟩ := Option.map_eq_some_iff.1 hu
    have hunder := h.member?_under hm
    cases m with
    | plain v => exact hunder
    | _ => trivial

section
variable (hv : ∀ o, w.heap.object? v = some o → o.Under n)
include hv

theorem content_under_of_object {content : Content} (hc : w.heap.content? v = some content) :
    content.Under n := by
  obtain ⟨o, ho, rfl⟩ := Option.map_eq_some_iff.1 hc
  exact (hv o ho).content

theorem namespaceOf_under {k : Key} (hu : (w.namespaceOf v).read? k = some u) : u.Under n := by
  unfold namespaceOf at hu
  cases ho : w.heap.object? v with
  | none => rw [ho] at hu; cases hu
  | some o =>
    rw [ho] at hu
    exact (hv o ho).fields k u hu

variable (h : w.Closed n)
include h

theorem attributeWithin_under {room : Nat} {name : String}
    (hu : w.attributeWithin v room name = .ok (some u)) : u.Under n := by
  induction room generalizing name with
  | zero => cases hu
  | succ room ih =>
    rw [attributeWithin] at hu
    split at hu
    · rename_i value hm
      cases hu
      exact h.member?_under hm
    · exact ih hu
    · cases hu
    · cases hu
    · cases ho : w.heap.object? v with
      | none => rw [ho] at hu; cases hu
      | some o =>
        rw [ho] at hu
        exact (hv o ho).slots name u (Except.ok.inj hu)
    · exact Heap.part?_under (fun _ => content_under_of_object hv) (Except.ok.inj hu)
    · rename_i value hm
      have hu := Except.ok.inj hu
      cases hf : (w.namespaceOf v).read? (.ofText name) with
      | none =>
        rw [hf] at hu
        cases hu
        exact h.member?_under hm
      | some x =>
        rw [hf] at hu
        cases hu
        exact namespaceOf_under hv hf
    · exact namespaceOf_under hv (Except.ok.inj hu)

/-- What is read from an object that holds old values only is an old value. -/
theorem property?_under {key : Value} (hu : w.property? v key = .ok (some u)) : u.Under n := by
  unfold property? at hu
  split at hu
  · rename_i entries hm
    cases hk : w.key? key with
    | error fault => rw [hk] at hu; cases hu
    | ok k =>
      rw [hk] at hu
      have hc := content_under_of_object hv (Heap.mapping?_eq_some.1 hm)
      exact hc k u (Except.ok.inj hu)
  · unfold attribute? at hu
    split at hu
    · exact h.classAttribute?_under (Except.ok.inj hu)
    · exact attributeWithin_under hv h hu
  · split at hu
    · cases hk : w.key? key with
      | error fault => rw [hk] at hu; cases hu
      | ok k =>
        rw [hk] at hu
        exact namespaceOf_under hv (Except.ok.inj hu)
    · cases hu

theorem resolve_under (key : Value) : (w.resolve v key).1.Under n := by
  unfold resolve
  cases hp : w.property? v key with
  | error fault => trivial
  | ok found =>
    cases found with
    | none => trivial
    | some x => exact property?_under hv h hp

end

theorem Holds.under (h : w.Closed n) (hv : v.Under n) (hu : w.Holds v u) : u.Under n := by
  have hobject : ∀ o, w.heap.object? v = some o → o.Under n := by
    intro o ho
    cases v with
    | object a => exact h.objects a o ho hv
    | _ => cases ho
  cases hu with
  | property key => exact resolve_under hobject h key
  | element hs hi => exact Heap.sequence?_under (fun _ => content_under_of_object hobject) hs

/-- What can be got from an old value is old. -/
theorem Within.under (h : w.Closed n) (hv : v.Under n) (hu : w.Within v u) : u.Under n := by
  induction hu with
  | refl => exact hv
  | tail _ hstep ih => exact Holds.under h ih hstep

end World

end

/-! ## Worlds that grow -/

namespace World

/-- The world with one more object. -/
def plus (w : World) (o : Object) : World := { w with heap := w.heap.push o }

variable {w : World} {o : Object} {v : Value} {n : Nat}

@[simp] theorem size_plus : (w.plus o).heap.size = w.heap.size + 1 := Array.size_push o

theorem size_le_plus : w.heap.size ≤ (w.plus o).heap.size := by
  rw [size_plus]
  exact Nat.le_succ _

theorem under_plus (h : v.Under w.heap.size) : v.Under (w.plus o).heap.size := h.mono size_le_plus

theorem object?_plus (hv : v.Under w.heap.size) :
    (w.plus o).heap.object? v = w.heap.object? v := by
  cases v with
  | object a =>
    have ha : a < w.heap.size := hv
    exact (Array.getElem?_push_lt ha).trans (Array.getElem?_eq_getElem ha).symm
  | _ => rfl

@[simp] theorem object?_plus_self :
    (w.plus o).heap.object? (.object w.heap.size) = some o := Array.getElem?_push_size

theorem content?_plus (hv : v.Under w.heap.size) :
    (w.plus o).heap.content? v = w.heap.content? v := by
  rw [Heap.content?, object?_plus hv]
  rfl

theorem plain_plus (hv : v.Under w.heap.size) : (w.plus o).heap.plain v = w.heap.plain v := by
  rw [Heap.plain, content?_plus hv]
  rfl

theorem hashing?_plus (c : ClassId) : (w.plus o).hashing? c = w.hashing? c := rfl

theorem classOf_plus (hv : v.Under w.heap.size) : (w.plus o).classOf v = w.classOf v := by
  cases v with
  | object a =>
    have ho : (w.plus o).heap[a]? = w.heap[a]? := object?_plus hv
    simp only [classOf, Heap.classOf, ho]
  | _ => rfl

/-- The elements of a tuple whose key is made of theirs. -/
def keyParts? (w : World) (v : Value) : Option (Array Value) :=
  match w.hashing? (w.classOf v), w.heap.content? v with
  | none, some (.tuple items) => some items
  | _, _ => none

theorem keyParts?_eq_some {items : Array Value} : w.keyParts? v = some items ↔
    w.hashing? (w.classOf v) = none ∧ w.heap.content? v = some (.tuple items) := by
  unfold keyParts?
  split
  · simp [*]
  · rename_i hno
    refine ⟨fun h => ?_, fun ⟨hh, hc⟩ => absurd hc (hno items hh)⟩
    cases h

theorem keyWithin_of_not_tuple (hv : w.keyParts? v = none) (room : Nat) :
    w.keyWithin room v = w.keyWithin 0 v := by
  rw [keyWithin, keyWithin]
  cases w.heap.plain v with
  | object a =>
    dsimp only
    cases hh : w.hashing? (w.classOf v) with
    | some hashing => cases hashing <;> rfl
    | none =>
      dsimp only
      cases hc : w.heap.content? v with
      | none => rfl
      | some content =>
        cases content with
        | tuple items => simp [keyParts?, hh, hc] at hv
        | _ => rfl
  | _ => rfl

theorem keyWithin_tuple {a : Address} {items : Array Value} {room : Nat}
    (hc : w.keyParts? (.object a) = some items) : w.keyWithin (room + 1) (.object a) =
      (keysOf (w.keyWithin room) items.toList).map (.tuple items.size :: ·) := by
  obtain ⟨hh, hc⟩ := keyParts?_eq_some.1 hc
  have hp : w.heap.plain (.object a) = .object a := by rw [Heap.plain, hc]
  rw [keyWithin, hp]
  simp only [hh, hc]
  cases keysOf (w.keyWithin room) items.toList <;> rfl

theorem keysOf_congr {key key' : Value → Except Fault Key} {vs : List Value}
    (h : ∀ v ∈ vs, key' v = key v) : keysOf key' vs = keysOf key vs := by
  induction vs with
  | nil => rfl
  | cons v rest ih =>
    obtain ⟨hv, hrest⟩ := List.forall_mem_cons.1 h
    rw [keysOf, keysOf, hv, ih hrest]

/-- A key is found with as much room as the value is old, and it is the same in a grown world. -/
theorem keyWithin_plus (hw : w.Sound) {room room' : Nat} (hv : v.Under n) (hn : n ≤ w.heap.size)
    (hroom : n ≤ room) (hroom' : n ≤ room') :
    (w.plus o).keyWithin room' v = w.keyWithin room v := by
  induction n using Nat.strongRecOn generalizing room room' v with
  | _ n ih =>
    have hsize : v.Under w.heap.size := hv.mono hn
    have hparts : (w.plus o).keyParts? v = w.keyParts? v := by
      rw [keyParts?, classOf_plus hsize, content?_plus hsize, hashing?_plus]
      rfl
    cases hc : w.keyParts? v with
    | some items =>
      cases v with
      | object a =>
        have ha := Nat.succ_le_of_lt hv
        obtain ⟨r, rfl⟩ : ∃ r, room = r + 1 := ⟨room - 1, by omega⟩
        obtain ⟨r', rfl⟩ : ∃ r', room' = r' + 1 := ⟨room' - 1, by omega⟩
        rw [keyWithin_tuple hc, keyWithin_tuple (hparts.trans hc)]
        congr 1
        refine keysOf_congr fun x hx => ih a hv ?_ (by omega) (by omega) (by omega)
        exact hw.tuples a items (keyParts?_eq_some.1 hc).2 x (Array.mem_toList_iff.1 hx)
      | _ => cases (keyParts?_eq_some.1 hc).2
    | none =>
      have hname : (w.plus o).nameOfClassOf v = w.nameOfClassOf v :=
        congrArg w.className (classOf_plus hsize)
      rw [keyWithin_of_not_tuple hc, keyWithin_of_not_tuple (hparts.trans hc), keyWithin, keyWithin,
        plain_plus hsize, content?_plus hsize, classOf_plus hsize, hashing?_plus, hname]
      cases w.hashing? (w.classOf v) with
      | some hashing => cases hashing <;> rfl
      | none =>
        dsimp only
        cases w.heap.content? v with
        | none => rfl
        | some content => cases content <;> rfl

/-- The key of an old value stays the same. -/
theorem key?_plus (hw : w.Sound) (hv : v.Under w.heap.size) :
    (w.plus o).key? v = w.key? v :=
  keyWithin_plus hw hv le_rfl le_rfl (by rw [size_plus]; omega)

theorem Closed.plus (h : w.Closed n) (hn : n ≤ w.heap.size) (o : Object) :
    (w.plus o).Closed n where
  standing := h.standing
  classes := h.classes
  objects a o' ho' ha := h.objects a o'
    ((object?_plus (v := .object a) (Nat.lt_of_lt_of_le ha hn)).symm.trans ho') ha

theorem Sound.plus (hw : w.Sound) (ho : o.Under w.heap.size) : (w.plus o).Sound := by
  have hcase {a : Address} {o' : Object} (h : (w.plus o).heap[a]? = some o') :
      w.heap[a]? = some o' ∨ a = w.heap.size ∧ o' = o := by
    change (w.heap.push o)[a]? = some o' at h
    rw [Array.getElem?_push] at h
    split at h
    · exact .inr ⟨‹_›, (Option.some.inj h).symm⟩
    · exact .inl h
  refine ⟨⟨?_, fun d hd name m hm => ?_, fun a o' ho' _ => ?_⟩, fun a items hc => ?_⟩
  · exact hw.closed.standing.trans size_le_plus
  · exact (hw.closed.classes d hd name m hm).mono size_le_plus
  · rcases hcase ho' with hold | ⟨-, rfl⟩
    · obtain ⟨ha, -⟩ := Array.getElem?_eq_some_iff.1 hold
      exact (hw.closed.objects a o' hold ha).mono size_le_plus
    · exact ho.mono size_le_plus
  · obtain ⟨o', ho', hitems⟩ := Option.map_eq_some_iff.1 hc
    rcases hcase ho' with hold | ⟨rfl, rfl⟩
    · refine hw.tuples a items ?_
      rw [Heap.content?, Heap.object?, hold]
      exact congrArg some hitems
    · have hcontent := ho.content
      rw [hitems] at hcontent
      exact hcontent

end World

end Rulebook
