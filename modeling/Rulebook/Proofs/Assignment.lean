import Rulebook.Proofs.References
import Rulebook.Shaping

/-!
# Assigning and reading

Writing a property and reading it are decided apart, by the kind of the class and of the key. They
meet in the place of the property (`World.spot?`): an assignment succeeds if the key has a place,
and puts the value there (`World.assign_plus`); a property that has a place is read from there
(`World.property?_of_spot`). Different keys have different places, so assignments under them do not
disturb each other (`World.storeAll_eq_some`).
-/

set_option autoImplicit false

namespace Rulebook

theorem Catalog.get?_eq_none_iff {κ α : Type} [DecidableEq κ] {c : Catalog κ α} {k : κ} :
    c.get? k = none ↔ k ∉ c.keys := by
  induction c with
  | nil => simp [Catalog.keys]
  | cons e rest ih =>
    obtain ⟨k', a⟩ := e
    by_cases hk : k' = k
    · simp [Catalog.get?, Catalog.keys, hk]
    · have hk' : k ≠ k' := fun h => hk h.symm
      simpa [Catalog.get?, Catalog.keys, hk, hk'] using ih

@[simp] theorem Except.throw_ne_ok {ε α : Type} (e : ε) (a : α) :
    (throw e : Except ε α) ≠ .ok a := by
  intro h
  cases h

@[simp] theorem Except.pure_eq_ok {ε α : Type} (a b : α) :
    (pure a : Except ε α) = .ok b ↔ a = b :=
  ⟨Except.ok.inj, congrArg Except.ok⟩

/-! ## Places -/

/-- Where an instance holds a property: in a slot of its class, or in its namespace. -/
inductive Spot where
  | slot (name : String)
  | field (k : Key)
deriving DecidableEq

/-- The key of the property. -/
def Spot.key : Spot → Key
  | slot name => .ofText name
  | field k => k

namespace Object

variable {o : Object}

/-- The value at a place. -/
def at? (o : Object) : Spot → Option Value
  | .slot name => o.slots.get? name
  | .field k => o.fields.read? k

/-- Puts a value at a place. -/
def store (o : Object) (s : Spot) (shown value : Value) : Object :=
  match s with
  | .slot name => { o with slots := o.slots.put name value }
  | .field k => { o with fields := o.fields.write k shown value }

@[simp] theorem classId_store (s : Spot) (shown value : Value) :
    (o.store s shown value).classId = o.classId := by cases s <;> rfl

@[simp] theorem content_store (s : Spot) (shown value : Value) :
    (o.store s shown value).content = o.content := by cases s <;> rfl

theorem at?_store (s s' : Spot) (shown value : Value) :
    (o.store s shown value).at? s' = if s = s' then some value else o.at? s' := by
  cases s with
  | slot name =>
    cases s' with
    | slot name' =>
      simp only [store, at?, Catalog.put, Catalog.get?_alter, Spot.slot.injEq]
    | field k' => rfl
  | field k =>
    cases s' with
    | slot name' => rfl
    | field k' =>
      simp only [store, at?, Entries.write, Entries.read?, Catalog.get?_alter, Spot.field.injEq]
      split <;> rfl

theorem under_of_at? {n : Nat} (hcontent : o.content.Under n)
    (h : ∀ s v, o.at? s = some v → v.Under n) : o.Under n :=
  ⟨hcontent, fun k v hv => h (.field k) v hv, fun name v hv => h (.slot name) v hv⟩

end Object

namespace KeyAtom

theorem ofDouble_ne_text (d : Double) (s : String) : ofDouble d ≠ .text s := by
  unfold ofDouble
  split <;> simp

theorem ofComplex_ne_text (re im : Double) (s : String) : ofComplex re im ≠ .text s := by
  unfold ofComplex
  split
  · exact ofDouble_ne_text re s
  · simp

theorem ofDecimal_ne_text (d : Decimal) (s : String) : ofDecimal d ≠ .ok (.text s) := by
  intro h
  unfold ofDecimal at h
  split at h
  · cases h
  · cases h
  · split at h <;> cases h

end KeyAtom

namespace World

variable {w : World} {o : Object}

/-- The object has a namespace. -/
def opens (w : World) (o : Object) : Bool :=
  match o.content with
  | .member .. | .settings _ => true
  | _ => (w.ancestry o.classId).any fun c => ((w.classDef? c).map (·.opensNamespace)).getD false

/-- The place where an instance like this can be given a property. -/
def spot? (w : World) (o : Object) (k : Key) : Option Spot :=
  match k with
  | [.text name] =>
    match w.member? o.classId name with
    | some (.property _) | some (.intrinsic _) => none
    | some .slot => some (.slot name)
    | _ => if w.opens o then some (.field (.ofText name)) else none
  | k => if w.opens o then some (.field k) else none

theorem spot?_ofText (name : String) : w.spot? o (.ofText name) =
    match w.member? o.classId name with
    | some (.property _) | some (.intrinsic _) => none
    | some .slot => some (.slot name)
    | _ => if w.opens o then some (.field (.ofText name)) else none := rfl

theorem spot?_of_ne {k : Key} (h : ∀ name, k ≠ .ofText name) :
    w.spot? o k = if w.opens o then some (.field k) else none := by
  unfold spot?
  split
  · rename_i name
    exact absurd rfl (h name)
  · rfl

/-- Different keys have different places. -/
theorem key_of_spot? {k : Key} {s : Spot} (h : w.spot? o k = some s) : s.key = k := by
  by_cases hk : ∃ name, k = .ofText name
  · obtain ⟨name, rfl⟩ := hk
    rw [spot?_ofText] at h
    split at h
    · cases h
    · cases h
    · cases h; rfl
    · split at h <;> cases h
      rfl
  · rw [spot?_of_ne fun name hname => hk ⟨name, hname⟩] at h
    split at h <;> cases h
    rfl

/-- Places depend on the class and the content only. -/
theorem spot?_congr {o' : Object} (hclass : o'.classId = o.classId)
    (hcontent : o'.content = o.content) (k : Key) : w.spot? o' k = w.spot? o k := by
  have hopens : w.opens o' = w.opens o := by rw [opens, opens, hcontent, hclass]
  unfold spot?
  rw [hopens, hclass]

@[simp] theorem spot?_store (s : Spot) (shown value : Value) (k : Key) :
    w.spot? (o.store s shown value) k = w.spot? o k :=
  spot?_congr (Object.classId_store ..) (Object.content_store ..) k

/-! ## Keys that are names -/

theorem key?_of_text {v : Value} {name : String} (h : w.heap.text? v = some name) :
    w.key? v = .ok (.ofText name) := by
  unfold Heap.text? at h
  split at h
  · rename_i s hp
    cases h
    rw [key?, keyWithin, hp]
    rfl
  · cases h

theorem text?_of_key? {v : Value} {name : String} (h : w.key? v = .ok (.ofText name)) :
    w.heap.text? v = some name := by
  rw [key?] at h
  cases hc : w.keyParts? v with
  | some items =>
    cases v with
    | object a =>
      obtain ⟨o, ho, -⟩ := Option.map_eq_some_iff.1 (keyParts?_eq_some.1 hc).2
      obtain ⟨ha, -⟩ := Array.getElem?_eq_some_iff.1 (show w.heap[a]? = some o from ho)
      obtain ⟨room, hroom⟩ := Nat.exists_eq_succ_of_ne_zero (Nat.ne_zero_of_lt ha)
      rw [hroom, keyWithin_tuple hc] at h
      cases hk : keysOf (w.keyWithin room) items.toList <;> rw [hk] at h <;> cases h
    | _ => cases (keyParts?_eq_some.1 hc).2
  | none =>
    rw [keyWithin_of_not_tuple hc, keyWithin] at h
    rw [Heap.text?]
    cases hp : w.heap.plain v with
    | text s =>
      rw [hp] at h
      cases h
      rfl
    | float d =>
      rw [hp] at h
      have hatom := List.head_eq_of_cons_eq (Except.ok.inj h)
      exact absurd hatom (KeyAtom.ofDouble_ne_text d name)
    | complex re im =>
      rw [hp] at h
      have hatom := List.head_eq_of_cons_eq (Except.ok.inj h)
      exact absurd hatom (KeyAtom.ofComplex_ne_text re im name)
    | decimal d =>
      rw [hp] at h
      change (KeyAtom.ofDecimal d >>= fun atom => pure [atom]) = _ at h
      cases hd : KeyAtom.ofDecimal d with
      | error fault => rw [hd] at h; cases h
      | ok atom =>
        rw [hd] at h
        have hatom := List.head_eq_of_cons_eq (Except.ok.inj h)
        exact absurd (hatom ▸ hd) (KeyAtom.ofDecimal_ne_text d name)
    | object a =>
      rw [hp] at h
      dsimp only at h
      cases hh : w.hashing? (w.classOf v) with
      | some hashing =>
        rw [hh] at h
        cases hashing with
        | none => cases h
        | own code => cases hcode : code a <;> simp [hcode, Key.ofText] at h
      | none =>
        rw [hh] at h
        cases hc : w.heap.content? v with
        | none => rw [hc] at h; cases h
        | some content =>
          rw [hc] at h
          cases content <;> cases h
    | _ => rw [hp] at h; cases h

/-! ## Objects that stand in the heap -/

section
variable {a : Address} (ho : w.heap[a]? = some o)
include ho

theorem object?_object : w.heap.object? (.object a) = some o := ho

theorem content?_object : w.heap.content? (.object a) = some o.content := by
  rw [Heap.content?, object?_object ho]
  rfl

theorem classOf_object : w.classOf (.object a) = o.classId := by
  simp only [classOf, Heap.classOf, ho]

theorem namespaceOf_object : w.namespaceOf (.object a) = o.fields := by
  rw [namespaceOf, object?_object ho]
  rfl

theorem hasNamespace_object : w.hasNamespace (.object a) = w.opens o := by
  unfold hasNamespace opens
  rw [content?_object ho, classOf_object ho]
  cases o.content <;> rfl

theorem mapping?_object (hcontent : ∀ entries, o.content ≠ .mapping entries) :
    w.heap.mapping? (.object a) = none := by
  cases hm : w.heap.mapping? (.object a) with
  | none => rfl
  | some entries =>
    rw [Heap.mapping?_eq_some, content?_object ho] at hm
    exact absurd (Option.some.inj hm) (hcontent entries)

theorem attribute?_of_spot {name : String} {value : Value} {s : Spot}
    (hs : w.spot? o (.ofText name) = some s) (hv : o.at? s = some value) :
    w.attribute? (.object a) name = .ok (some value) := by
  have hfield (hopen : (if w.opens o = true then some (Spot.field (.ofText name)) else none) =
      some s) : o.fields.read? (.ofText name) = some value := by
    split at hopen <;> cases hopen
    exact hv
  change w.attributeWithin (.object a) _ name = _
  rw [attributeWithin, classOf_object ho, namespaceOf_object ho, object?_object ho]
  rw [spot?_ofText] at hs
  cases hmember : w.member? o.classId name with
  | none =>
    rw [hmember] at hs
    exact congrArg Except.ok (hfield hs)
  | some m =>
    rw [hmember] at hs
    cases m with
    | property p => cases hs
    | intrinsic b => cases hs
    | slot =>
      cases hs
      exact congrArg Except.ok hv
    | plain v =>
      simp only [hfield hs]
      rfl

/-- A property that has a place is read from there. -/
theorem property?_of_spot {key value : Value} {k : Key} {s : Spot}
    (hcontent : ∀ entries, o.content ≠ .mapping entries) (hk : w.key? key = .ok k)
    (hs : w.spot? o k = some s) (hv : o.at? s = some value) :
    w.property? (.object a) key = .ok (some value) := by
  rw [property?, mapping?_object ho hcontent]
  cases ht : w.heap.text? key with
  | some name =>
    cases hk.symm.trans (key?_of_text ht)
    exact attribute?_of_spot ho hs hv
  | none =>
    have hne : ∀ name, k ≠ .ofText name := by
      rintro name rfl
      rw [text?_of_key? hk] at ht
      cases ht
    rw [spot?_of_ne hne] at hs
    split at hs
    · rename_i hopen
      cases hs
      simp only [hasNamespace_object ho, hopen, if_true, hk, namespaceOf_object ho]
      exact congrArg Except.ok hv
    · cases hs

end

/-- Instances made from nothing have the same parts. -/
theorem part?_congr {a a' : Address} {b : Builtin} (name : String)
    (hc : w.heap.content? (.object a) = some (Content.blank b))
    (hc' : w.heap.content? (.object a') = some (Content.blank b)) :
    w.heap.part? (.object a') name = w.heap.part? (.object a) name := by
  unfold Heap.part? Heap.plain
  rw [hc, hc']
  cases b <;> rfl

/-- Two instances that differ in properties with other keys only read alike. -/
theorem property?_congr {a a' : Address} {o o' : Object} {key : Value} {k : Key}
    (ho : w.heap[a]? = some o) (ho' : w.heap[a']? = some o')
    (hclass : o'.classId = o.classId) {b : Builtin} (hb : o.content = Content.blank b)
    (hb' : o'.content = Content.blank b)
    (hprop : ∀ name p, k = .ofText name → w.member? o.classId name ≠ some (.property p))
    (hk : w.key? key = .ok k) (hat : ∀ s : Spot, s.key = k → o'.at? s = o.at? s) :
    w.property? (.object a') key = w.property? (.object a) key := by
  have hc : w.heap.content? (.object a) = some (Content.blank b) := by
    rw [content?_object ho, hb]
  have hc' : w.heap.content? (.object a') = some (Content.blank b) := by
    rw [content?_object ho', hb']
  have hm : w.heap.mapping? (.object a') = w.heap.mapping? (.object a) := by
    unfold Heap.mapping?
    rw [hc, hc']
  have hfield : o'.fields.read? k = o.fields.read? k := hat (.field k) rfl
  rw [property?, property?, hm]
  cases w.heap.mapping? (.object a) with
  | some entries => rfl
  | none =>
    cases ht : w.heap.text? key with
    | some name =>
      cases hk.symm.trans (key?_of_text ht)
      change w.attributeWithin (.object a') _ name = w.attributeWithin (.object a) _ name
      rw [attributeWithin, attributeWithin, classOf_object ho, classOf_object ho', hclass,
        namespaceOf_object ho, namespaceOf_object ho', object?_object ho, object?_object ho',
        hfield, part?_congr name hc hc']
      cases hmember : w.member? o.classId name with
      | none => rfl
      | some m =>
        cases m with
        | property p => exact absurd hmember (hprop name p rfl)
        | slot => exact congrArg Except.ok (hat (.slot name) rfl)
        | _ => rfl
    | none =>
      have hopens : w.opens o' = w.opens o := by rw [opens, opens, hb, hb', hclass]
      simp only [hasNamespace_object ho, hasNamespace_object ho', hopens, namespaceOf_object ho,
        namespaceOf_object ho', hk]
      split
      · exact congrArg Except.ok hfield
      · rfl

theorem resolve_congr {a a' : Address} {o o' : Object} {key : Value} {k : Key}
    (ho : w.heap[a]? = some o) (ho' : w.heap[a']? = some o')
    (hclass : o'.classId = o.classId) {b : Builtin} (hb : o.content = Content.blank b)
    (hb' : o'.content = Content.blank b)
    (hprop : ∀ name p, k = .ofText name → w.member? o.classId name ≠ some (.property p))
    (hk : w.key? key = .ok k) (hat : ∀ s : Spot, s.key = k → o'.at? s = o.at? s) :
    w.resolve (.object a') key = w.resolve (.object a) key := by
  have hname : w.nameOfClassOf (.object a') = w.nameOfClassOf (.object a) := by
    rw [nameOfClassOf, nameOfClassOf, classOf_object ho, classOf_object ho', hclass]
  rw [resolve, resolve, property?_congr ho ho' hclass hb hb' hprop hk hat, hname]

/-! ## Assigning -/

theorem update_plus (f : Object → Object) :
    (w.plus o).update (.object w.heap.size) f = w.plus (f o) := by
  have hheap : (w.heap.push o).modify w.heap.size f = w.heap.push (f o) := by
    apply Array.ext_getElem?
    intro i
    rw [Array.getElem?_modify]
    by_cases hi : w.heap.size = i
    · subst hi
      simp
    · have hi' : i ≠ w.heap.size := fun h => hi h.symm
      simp [Array.getElem?_push, hi, hi']
  rw [update, plus, plus]
  simp only [hheap]

theorem member?_plus (c : ClassId) (name : String) :
    (w.plus o).member? c name = w.member? c name := rfl

theorem opens_plus (o' : Object) : (w.plus o).opens o' = w.opens o' := rfl

theorem setAttribute_plus {key value : Value} {name : String} {w' : World} :
    (w.plus o).setAttribute (.object w.heap.size) key name value = .ok w' ↔
      ∃ s, w.spot? o (.ofText name) = some s ∧ w' = w.plus (o.store s key value) := by
  have ho : (w.plus o).heap[w.heap.size]? = some o := object?_plus_self
  rw [spot?_ofText, setAttribute, classOf_object ho, hasNamespace_object ho, member?_plus,
    opens_plus]
  have hfield (fault : Fault) : (if w.opens o = true then pure ((w.plus o).update
      (.object w.heap.size) fun o => { o with fields := o.fields.write (.ofText name) key value })
      else throw fault : Except Fault World) = .ok w' ↔
      ∃ s, (if w.opens o = true then some (Spot.field (.ofText name)) else none) = some s ∧
        w' = w.plus (o.store s key value) := by
    by_cases h : w.opens o = true
    · simp [h, update_plus, Object.store, eq_comm (a := w')]
    · simp [h]
  cases w.member? o.classId name with
  | none => exact hfield _
  | some m =>
    cases m with
    | property p => simp
    | intrinsic b => cases b <;> simp
    | slot => simp [update_plus, Object.store, eq_comm (a := w')]
    | plain v => exact hfield _

/-- An assignment succeeds if the key has a place, and puts the value there. -/
theorem assign_plus {key value : Value} {w' : World} :
    (w.plus o).assign (.object w.heap.size) key value = .ok w' ↔
      ∃ k, (w.plus o).key? key = .ok k ∧
        ∃ s, w.spot? o k = some s ∧ w' = w.plus (o.store s key value) := by
  rw [assign]
  cases ht : (w.plus o).heap.text? key with
  | some name =>
    simp only [setAttribute_plus, key?_of_text ht, Except.ok.injEq, exists_eq_left']
  | none =>
    have hne : ∀ k, (w.plus o).key? key = .ok k → ∀ name, k ≠ .ofText name := by
      rintro k hk name rfl
      rw [text?_of_key? hk] at ht
      cases ht
    have hself : (w.plus o).heap[w.heap.size]? = some o := object?_plus_self
    simp only [hasNamespace_object hself]
    change (if w.opens o = true then _ else _) = _ ↔ _
    by_cases hopen : w.opens o = true
    · cases hk : (w.plus o).key? key with
      | error fault => simp [hopen, bind, Except.bind]
      | ok k =>
        simp only [hopen, if_true, Except.ok.injEq, exists_eq_left', spot?_of_ne (hne k hk),
          Option.some.injEq, update_plus]
        exact ⟨fun h => (Except.ok.inj h).symm, fun h => congrArg Except.ok h.symm⟩
    · rw [if_neg hopen]
      constructor
      · intro h
        cases h
      · rintro ⟨k, hk, s, hs, -⟩
        rw [spot?_of_ne (hne k hk), if_neg hopen] at hs
        cases hs

/-! ## Assigning entries -/

/-- Puts entries at their places one after the other, if all have one. -/
def storeAll (w : World) (o : Object) : Entries → Option Object
  | [] => some o
  | (k, shown, value) :: rest =>
    match w.spot? o k with
    | some s => w.storeAll (o.store s shown value) rest
    | none => none

theorem assignAll_plus {entries : Entries} {w' : World}
    (hkeys : ∀ o, ∀ e ∈ entries, (w.plus o).key? e.2.1 = .ok e.1) :
    (w.plus o).assignAll (.object w.heap.size) entries.pairs = .ok w' ↔
      ∃ o', w.storeAll o entries = some o' ∧ w' = w.plus o' := by
  induction entries generalizing o with
  | nil => simp [assignAll, storeAll, Entries.pairs, eq_comm (a := w')]
  | cons e rest ih =>
    obtain ⟨k, shown, value⟩ := e
    have hk : (w.plus o).key? shown = .ok k := hkeys o _ (.head _)
    have hrest : ∀ o, ∀ e ∈ rest, (w.plus o).key? e.2.1 = .ok e.1 :=
      fun o e he => hkeys o e (.tail _ he)
    change (w.plus o).assignAll _ ((shown, value) :: Entries.pairs rest) = _ ↔ _
    rw [assignAll, storeAll]
    cases hs : w.spot? o k with
    | some s =>
      rw [assign_plus.2 ⟨k, hk, s, hs, rfl⟩]
      exact ih hrest
    | none =>
      cases ha : (w.plus o).assign (.object w.heap.size) shown value with
      | error fault => simp
      | ok w₁ =>
        obtain ⟨k', hk', s, hs', -⟩ := assign_plus.1 ha
        cases hk.symm.trans hk'
        rw [hs] at hs'
        cases hs'

theorem storeAll_ok_iff {entries : Entries} :
    (∃ o', w.storeAll o entries = some o') ↔ ∀ k ∈ entries.keys, ∃ s, w.spot? o k = some s := by
  induction entries generalizing o with
  | nil => simp [storeAll, Catalog.keys]
  | cons e rest ih =>
    obtain ⟨k, shown, value⟩ := e
    rw [storeAll]
    change _ ↔ ∀ k' ∈ k :: Catalog.keys rest, _
    rw [List.forall_mem_cons]
    cases hs : w.spot? o k with
    | none => simp
    | some s => simp [ih]

/-- The object keeps its class and content, and holds the entries at their places. -/
theorem storeAll_eq_some {entries : Entries} {o' : Object} (hnodup : entries.keys.Nodup)
    (h : w.storeAll o entries = some o') : o'.classId = o.classId ∧ o'.content = o.content ∧
      ∀ s, o'.at? s =
        if w.spot? o s.key = some s then (entries.read? s.key).or (o.at? s) else o.at? s := by
  induction entries generalizing o with
  | nil =>
    cases h
    exact ⟨rfl, rfl, fun s => by split <;> rfl⟩
  | cons e rest ih =>
    obtain ⟨k, shown, value⟩ := e
    obtain ⟨hnew, hrest⟩ := List.nodup_cons.1 hnodup
    rw [storeAll] at h
    cases hk : w.spot? o k with
    | none => rw [hk] at h; cases h
    | some s₀ =>
      rw [hk] at h
      obtain ⟨hclass, hcontent, hat⟩ := ih hrest h
      refine ⟨hclass.trans (Object.classId_store ..), hcontent.trans (Object.content_store ..),
        fun s => ?_⟩
      rw [hat s, spot?_store, Object.at?_store]
      have hkey : s₀.key = k := key_of_spot? hk
      by_cases hs : s₀ = s
      · -- the key is not repeated, so nothing else goes to its place
        subst hs
        rw [if_pos rfl, hkey, if_pos hk, if_pos hk, Entries.read?, Entries.read?,
          Catalog.get?_eq_none_iff.2 hnew, Catalog.get?, if_pos rfl]
        rfl
      · rw [if_neg hs]
        by_cases hspot : w.spot? o s.key = some s
        · have hne : k ≠ s.key := by
            intro he
            rw [← he, hk] at hspot
            exact hs (Option.some.inj hspot)
          rw [if_pos hspot, if_pos hspot, Entries.read?, Entries.read?, Catalog.get?, if_neg hne]
        · rw [if_neg hspot, if_neg hspot]

end World

end Rulebook
