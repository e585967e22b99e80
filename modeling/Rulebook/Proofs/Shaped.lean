import Rulebook.Proofs.Assignment
import Rulebook.Proofs.PropertyKeys

/-!
# What is shaped is what is validated

Shaping makes a blank instance and puts entries of the data at their places, all of them or those
with declared keys (`World.makes_of_shape`). Either way the instance holds the same under declared
keys, and this is what a validation reads from it (`World.resolve_shape`). Data have ordinary names,
and none to which the interpreter gives a meaning of its own (`IsSpecial`).

The exception are classes built on mappings. Their instances are read like mappings, by entry, while
shaping gives them attributes, so that everything they are shaped from reads as missing.
-/

set_option autoImplicit false

namespace Rulebook

theorem Catalog.get?_filterMap {κ α β : Type} [DecidableEq κ] {c : Catalog κ α}
    (hnodup : c.keys.Nodup) (f : κ → α → Option β) (k : κ) :
    Catalog.get? (c.filterMap fun e => (f e.1 e.2).map (e.1, ·)) k = (c.get? k).bind (f k) := by
  induction c with
  | nil => rfl
  | cons e rest ih =>
    obtain ⟨k', a⟩ := e
    obtain ⟨hnew, hrest⟩ := List.nodup_cons.1 hnodup
    rw [List.filterMap_cons, Catalog.get?]
    by_cases hk : k' = k
    · subst hk
      have hnone : Catalog.get? rest k' = none := Catalog.get?_eq_none_iff.2 hnew
      have hlater := ih hrest
      rw [hnone] at hlater
      cases hf : f k' a with
      | none => simpa [hf] using hlater
      | some b => simp [hf, Catalog.get?]
    · rw [if_neg hk, ← ih hrest]
      cases f k' a with
      | none => rfl
      | some b => exact if_neg hk

theorem Catalog.keys_filterMap_sublist {κ α β : Type} (c : Catalog κ α) (f : κ → α → Option β) :
    (Catalog.keys (c.filterMap fun e => (f e.1 e.2).map (e.1, ·))).Sublist c.keys := by
  induction c with
  | nil => exact .slnil
  | cons e rest ih =>
    rw [List.filterMap_cons]
    cases f e.1 e.2 with
    | none => exact ih.cons e.1
    | some b => exact ih.cons_cons e.1

/-! ## Data -/

/-- The interpreter may give the name a meaning of its own: it begins and ends with two
underscores. -/
def IsSpecial (name : String) : Prop :=
  ['_', '_'] <+: name.toList ∧ ['_', '_'] <:+ name.toList
deriving Decidable

/-- Entries as a mapping has them: each under the word of its key, none twice, with references to
objects that are there, and with ordinary names. -/
structure Entries.Fit (w : World) (entries : Entries) : Prop where
  nodup : entries.keys.Nodup
  keyed : ∀ k shown value, (k, shown, value) ∈ entries → w.key? shown = .ok k
  old : ∀ k shown value, (k, shown, value) ∈ entries →
    shown.Under w.heap.size ∧ value.Under w.heap.size
  ordinary : ∀ name, .ofText name ∈ entries.keys → ¬IsSpecial name

namespace World

/-- Instances of the class have no descriptor under the key other than a slot: no property, no
method, and nothing of the interpreter's own. -/
structure IsOrdinary (w : World) (c : ClassId) (k : Key) : Prop where
  special : ∀ name, k = .ofText name → ¬IsSpecial name
  property : ∀ name p, k = .ofText name → w.member? c name ≠ some (.property p)
  method : ∀ name f, k = .ofText name → w.member? c name ≠ some (.plain (.function f))

/-- Names that a class does not define are ordinary, but for those of the interpreter. -/
theorem isOrdinary_of_member? {w : World} {c : ClassId} {name : String} (hs : ¬IsSpecial name)
    (hm : w.member? c name = none) : w.IsOrdinary c (.ofText name) where
  special name' h := by
    cases h
    exact hs
  property name' p h := by
    cases h
    simp [hm]
  method name' f h := by
    cases h
    simp [hm]

/-- The entries agree with the data on all declared keys, and hold nothing that the data do not. -/
structure Passes (w : World) (ds : List Declaration) (data entries : Entries) : Prop where
  fit : entries.Fit w
  subset : ∀ k ∈ entries.keys, k ∈ data.keys
  same : ∀ d ∈ ds, ∀ k, w.key? d.key = .ok k → entries.read? k = data.read? k

variable {w : World} {ds : List Declaration} {data entries : Entries}

/-- The entries of data under names, spelled like these. -/
def selected (names : Catalog Key Value) (data : Entries) : Entries :=
  names.filterMap fun e => ((data.read? e.1).map (e.2, ·)).map (e.1, ·)

theorem pairs_selected {names : Catalog Key Value}
    (hkeys : ∀ k key, (k, key) ∈ names → w.key? key = .ok k) :
    w.selectEntries data (names.map (·.2)) = .ok (selected names data).pairs := by
  have hlooked : ∀ key ∈ names.map (·.2), ∃ k, w.key? key = .ok k := by
    intro key hkey
    obtain ⟨⟨k, key⟩, hmem, rfl⟩ := List.mem_map.1 hkey
    exact ⟨k, hkeys k key hmem⟩
  rw [selectEntries_eq hlooked, List.filterMap_map, selected, Entries.pairs, List.map_filterMap]
  congr 1
  refine List.filterMap_congr fun e he => ?_
  simp only [Function.comp_apply, valueAt?, hkeys e.1 e.2 he, Except.toOption, Option.bind_some,
    Option.map_map]
  rfl

theorem read?_selected {names : Catalog Key Value} (hnodup : names.keys.Nodup) {k : Key}
    (hk : k ∈ names.keys) : (selected names data).read? k = data.read? k := by
  obtain ⟨⟨k, key⟩, hmem, rfl⟩ := List.mem_map.1 hk
  rw [Entries.read?, selected,
    Catalog.get?_filterMap hnodup (fun k key => (data.read? k).map (key, ·)),
    (Catalog.mem_iff_get? hnodup).1 hmem, Option.bind_some, Option.map_map]
  exact Option.map_id'

theorem passes_selected {names : Catalog Key Value} (hdata : data.Fit w) (hnames : w.Names ds names)
    (hds : ∀ d ∈ ds, d.key.Under w.heap.size) : w.Passes ds data (selected names data) := by
  have hmem {k : Key} {shown value : Value} (h : (k, shown, value) ∈ selected names data) :
      (k, shown) ∈ names ∧ data.read? k = some value := by
    obtain ⟨⟨k', key⟩, hname, h⟩ := List.mem_filterMap.1 h
    cases hv : data.read? k' with
    | none => rw [hv] at h; cases h
    | some v =>
      rw [hv] at h
      cases h
      exact ⟨hname, hv⟩
  have hentry {k : Key} {value : Value} (h : data.read? k = some value) :
      ∃ shown, (k, shown, value) ∈ data := by
    obtain ⟨⟨shown, v⟩, hget, rfl⟩ := Option.map_eq_some_iff.1 h
    exact ⟨shown, Catalog.mem_of_get? hget⟩
  have hsubset : ∀ k ∈ (selected names data).keys, k ∈ data.keys := by
    intro k hk
    obtain ⟨⟨k, shown, value⟩, h, rfl⟩ := List.mem_map.1 hk
    obtain ⟨spelled, hold⟩ := hentry (hmem h).2
    exact List.mem_map.2 ⟨_, hold, rfl⟩
  refine ⟨⟨?_, fun k shown value h => ?_, fun k shown value h => ?_,
    fun name h => hdata.ordinary name (hsubset _ h)⟩, hsubset, fun d hd k hk => ?_⟩
  · exact hnames.nodup.sublist (Catalog.keys_filterMap_sublist names
      fun k key => (data.read? k).map (key, ·))
  · obtain ⟨-, -, -, hk⟩ := hnames.declared k shown (hmem h).1
    exact hk
  · obtain ⟨hname, hv⟩ := hmem h
    obtain ⟨d, hd, rfl, -⟩ := hnames.declared k shown hname
    obtain ⟨spelled, hold⟩ := hentry hv
    exact ⟨hds d hd, (hdata.old k spelled value hold).2⟩
  · obtain ⟨k', hk', hkey⟩ := hnames.complete d hd
    cases hk.symm.trans hkey
    exact read?_selected hnames.nodup hk'

/-- The entries that an instance is to have agree with the data on all declared keys. -/
theorem passes_of_entriesFor (hdata : data.Fit w) (hds : ∀ d ∈ ds, d.key.Under w.heap.size)
    {strip : Bool} {pairs : List (Value × Value)} (h : w.entriesFor ds data strip = .ok pairs) :
    ∃ entries : Entries, pairs = entries.pairs ∧ w.Passes ds data entries := by
  cases strip with
  | false =>
    cases h
    exact ⟨data, rfl, hdata, fun _ => id, fun _ _ _ _ => rfl⟩
  | true =>
    rw [entriesFor, if_pos rfl] at h
    cases hk : w.propertyKeys ds [] with
    | error fault => rw [hk] at h; cases h
    | ok keys =>
      rw [hk] at h
      obtain ⟨names, rfl, hnames⟩ := names_of_propertyKeys hk
      have hpairs : w.selectEntries data (names.map (·.2)) = .ok pairs := h
      have hspelled : ∀ k key, (k, key) ∈ names → w.key? key = .ok k := by
        intro k key hmem
        obtain ⟨-, -, -, hk⟩ := hnames.declared k key hmem
        exact hk
      rw [pairs_selected hspelled] at hpairs
      cases hpairs
      exact ⟨_, rfl, passes_selected hdata hnames hds⟩

/-! ## Worlds that grow -/

section
variable (hw : w.Sound) (o : Object)
include hw

theorem propertyKeys_plus (hds : ∀ d ∈ ds, d.key.Under w.heap.size) (seen : Catalog Key Value) :
    (w.plus o).propertyKeys ds seen = w.propertyKeys ds seen := by
  induction ds generalizing seen with
  | nil => rfl
  | cons d rest ih =>
    obtain ⟨hd, hrest⟩ := List.forall_mem_cons.1 hds
    rw [propertyKeys, propertyKeys, key?_plus hw hd]
    cases w.key? d.key with
    | error fault => rfl
    | ok key => exact ih hrest _

theorem selectEntries_plus {keys : List Value} (hkeys : ∀ key ∈ keys, key.Under w.heap.size) :
    (w.plus o).selectEntries data keys = w.selectEntries data keys := by
  induction keys with
  | nil => rfl
  | cons key rest ih =>
    obtain ⟨hkey, hrest⟩ := List.forall_mem_cons.1 hkeys
    rw [selectEntries, selectEntries, key?_plus hw hkey, ih hrest]

theorem entriesFor_plus (hds : ∀ d ∈ ds, d.key.Under w.heap.size) (strip : Bool) :
    (w.plus o).entriesFor ds data strip = w.entriesFor ds data strip := by
  cases strip with
  | false => rfl
  | true =>
    rw [entriesFor, entriesFor, if_pos rfl, if_pos rfl, propertyKeys_plus hw o hds]
    cases hk : w.propertyKeys ds [] with
    | error fault => rfl
    | ok keys =>
      obtain ⟨names, rfl, hnames⟩ := names_of_propertyKeys hk
      refine selectEntries_plus hw o fun key hkey => ?_
      obtain ⟨⟨k, key⟩, hmem, rfl⟩ := List.mem_map.1 hkey
      obtain ⟨d, hd, rfl, -⟩ := hnames.declared k key hmem
      exact hds d hd

theorem fit_plus (h : data.Fit w) : data.Fit (w.plus o) where
  nodup := h.nodup
  keyed k shown value hmem :=
    (key?_plus hw (h.old k shown value hmem).1).trans (h.keyed k shown value hmem)
  old k shown value hmem :=
    ⟨under_plus (h.old k shown value hmem).1, under_plus (h.old k shown value hmem).2⟩
  ordinary := h.ordinary

end

/-! ## Blank instances -/

/-- An instance of a class with no attributes. -/
def template (w : World) (c : ClassId) : Object := ⟨c, Content.blank (w.foundation c), [], []⟩

theorem member?_builtin {b : Builtin} {name : String} {m : Member}
    (h : w.member? (.builtin b) name = some m) :
    (∃ b', m = .intrinsic b') ∨ ∃ v, m = .plain v := by
  obtain ⟨c, hc, hm⟩ := List.exists_of_findSome?_eq_some h
  obtain ⟨b', -, rfl⟩ := List.mem_map.1 hc
  simp only [ownMember?] at hm
  split at hm
  · cases hm
    exact .inl ⟨b', rfl⟩
  · split at hm
    · cases hm
      exact .inr ⟨_, rfl⟩
    · cases hm

/-- Numbers and texts take no attributes. -/
theorem assign_scalar {b : Builtin} {v : Value} (hclass : w.classOf v = .builtin b)
    (hspace : w.hasNamespace v = false) (key value : Value) (w' : World) :
    w.assign v key value ≠ .ok w' := by
  rw [assign]
  cases w.heap.text? key with
  | none => simp [hspace]
  | some name =>
    dsimp only
    rw [setAttribute, hclass]
    cases hm : w.member? (.builtin b) name with
    | none => simp [hspace]
    | some m =>
      rcases member?_builtin hm with ⟨b', rfl⟩ | ⟨x, rfl⟩
      · cases b' <;> simp
      · simp [hspace]

/-- An instance of a class is an object of its own, or a number or text that takes no attributes. -/
theorem blank_cases {c : ClassId} {w' : World} {v : Value} (h : w.blank c = .ok (w', v)) :
    (w' = w.plus (w.template c) ∧ v = .object w.heap.size) ∨
    (w' = w ∧ (∀ a, v ≠ .object a) ∧ ∀ key value w', w.assign v key value ≠ .ok w') := by
  cases c with
  | declared i =>
    cases h
    exact .inl ⟨rfl, rfl⟩
  | builtin b =>
    cases b with
    | keys => cases h
    | bool | int | float | fraction | text | bytes =>
      cases h
      exact .inr ⟨rfl, by simp, assign_scalar rfl rfl⟩
    | _ =>
      cases h
      exact .inl ⟨rfl, rfl⟩

/-! ## Shaping -/

/-- What entries are shaped into: an object that holds them at their places, or, for a class of
numbers or texts and no entries, a number or text. -/
inductive Makes (w : World) (c : ClassId) (entries : Entries) : World × Value → Prop
  | object {o : Object} : w.blank c = .ok (w.plus (w.template c), .object w.heap.size) →
      w.storeAll (w.template c) entries = some o → Makes w c entries (w.plus o, .object w.heap.size)
  | plain {v : Value} : w.blank c = .ok (w, v) → (∀ a, v ≠ .object a) → entries = [] →
      Makes w c entries (w, v)

theorem Passes.keyed_plus (h : w.Passes ds data entries) (hw : w.Sound) (o : Object) :
    ∀ e ∈ entries, (w.plus o).key? e.2.1 = .ok e.1 := by
  rintro ⟨k, shown, value⟩ he
  exact (key?_plus hw (h.fit.old k shown value he).1).trans (h.fit.keyed k shown value he)

theorem assignAll_scalar {v : Value} {w' : World}
    (h : ∀ key value w', w.assign v key value ≠ .ok w')
    (ha : w.assignAll v entries.pairs = .ok w') : entries = [] ∧ w' = w := by
  cases entries with
  | nil =>
    cases ha
    exact ⟨rfl, rfl⟩
  | cons e rest =>
    change w.assignAll v ((e.2.1, e.2.2) :: Entries.pairs rest) = _ at ha
    rw [assignAll] at ha
    cases hfirst : w.assign v e.2.1 e.2.2 with
    | error fault => rw [hfirst] at ha; cases ha
    | ok w₁ => exact absurd hfirst (h _ _ _)

section
variable (hw : w.Sound) (hds : ∀ d ∈ ds, d.key.Under w.heap.size) {c : ClassId} {strip : Bool}
  {r : World × Value}
include hw hds

theorem makes_of_shape (hdata : data.Fit w) (h : w.shape ds c data strip = .ok r) :
    ∃ entries : Entries, w.entriesFor ds data strip = .ok entries.pairs ∧
      w.Passes ds data entries ∧ w.Makes c entries r := by
  unfold shape at h
  cases hb : w.blank c with
  | error fault => rw [hb] at h; cases h
  | ok made =>
    obtain ⟨w₀, v⟩ := made
    rw [hb] at h
    change (orFail (w₀.entriesFor ds data strip) >>= _) = _ at h
    have hblank := blank_cases hb
    -- the blank instance makes no difference to what the entries are
    have hentries : w₀.entriesFor ds data strip = w.entriesFor ds data strip := by
      rcases hblank with ⟨rfl, -⟩ | ⟨rfl, -⟩
      · exact entriesFor_plus hw _ hds strip
      · rfl
    rw [hentries] at h
    cases he : w.entriesFor ds data strip with
    | error fault => rw [he] at h; cases h
    | ok pairs =>
      obtain ⟨entries, rfl, hpasses⟩ := passes_of_entriesFor hdata hds he
      rw [he] at h
      change (w₀.assignAll v entries.pairs >>= _) = _ at h
      cases ha : w₀.assignAll v entries.pairs with
      | error failure => rw [ha] at h; cases h
      | ok w' =>
        rw [ha] at h
        cases h
        refine ⟨entries, rfl, hpasses, ?_⟩
        rcases hblank with ⟨rfl, rfl⟩ | ⟨rfl, hv, hassign⟩
        · obtain ⟨o, ho, rfl⟩ := (assignAll_plus (hpasses.keyed_plus hw)).1 ha
          exact .object hb ho
        · obtain ⟨hnil, rfl⟩ := assignAll_scalar hassign ha
          exact .plain hb hv hnil

theorem shape_of_makes (he : w.entriesFor ds data strip = .ok entries.pairs)
    (hpasses : w.Passes ds data entries) (h : w.Makes c entries r) :
    w.shape ds c data strip = .ok r := by
  unfold shape
  cases h with
  | @object o hb ho =>
    rw [hb]
    change (orFail ((w.plus (w.template c)).entriesFor ds data strip) >>= _) = _
    rw [entriesFor_plus hw _ hds, he]
    change ((w.plus (w.template c)).assignAll _ entries.pairs >>= _) = _
    rw [(assignAll_plus (hpasses.keyed_plus hw)).2 ⟨o, ho, rfl⟩]
    rfl
  | @plain v hb hv hnil =>
    subst hnil
    rw [hb]
    change (orFail (w.entriesFor ds data strip) >>= _) = _
    rw [he]
    rfl

end

/-- What was made from entries holds them at their places, and nothing else. -/
theorem at?_of_storeAll {c : ClassId} {o : Object} (hnodup : entries.keys.Nodup)
    (h : w.storeAll (w.template c) entries = some o) (s : Spot) :
    o.at? s = if w.spot? (w.template c) s.key = some s then entries.read? s.key else none := by
  obtain ⟨-, -, hat⟩ := storeAll_eq_some hnodup h
  have hblank : (w.template c).at? s = none := by cases s <;> rfl
  rw [hat s, hblank, Option.or_none]

theorem content_blank_ne {b : Builtin} (hb : b ≠ .mapping) (entries : Entries) :
    Content.blank b ≠ .mapping entries := by
  intro h
  cases b <;> first | exact hb rfl | cases h

section
variable (hw : w.Sound) (hdata : data.Fit w) (hds : ∀ d ∈ ds, d.key.Under w.heap.size)
  {c : ClassId} {strip : Bool} {w' : World} {v : Value} (h : w.shape ds c data strip = .ok (w', v))
  {d : Declaration} (hd : d ∈ ds) {k : Key} {value : Value} (hk : w.key? d.key = .ok k)
  (hvalue : data.read? k = some value)
include hw hdata hds h hd hk hvalue

/-- Data that have a declared key are shaped into an object, which holds the value at its place. -/
theorem at?_of_shape : ∃ o s, w' = w.plus o ∧ v = .object w.heap.size ∧
    (w.plus o).key? d.key = .ok k ∧ o.content = Content.blank (w.foundation c) ∧
      w.spot? o k = some s ∧ o.at? s = some value := by
  obtain ⟨entries, -, hpasses, hmakes⟩ := makes_of_shape hw hds hdata h
  have hread : entries.read? k = some value := (hpasses.same d hd k hk).trans hvalue
  cases hmakes with
  | plain _ _ hnil =>
    subst hnil
    cases hread
  | @object o hb ho =>
    obtain ⟨hclass, hcontent, -⟩ := storeAll_eq_some hpasses.fit.nodup ho
    have hmem : k ∈ entries.keys := by
      by_contra hno
      rw [Entries.read?, Catalog.get?_eq_none_iff.2 hno] at hread
      cases hread
    obtain ⟨s, hs⟩ := storeAll_ok_iff.1 ⟨o, ho⟩ k hmem
    have hat : o.at? s = some value := by
      rw [at?_of_storeAll hpasses.fit.nodup ho, key_of_spot? hs, if_pos hs, hread]
    exact ⟨o, s, rfl, rfl, (key?_plus hw (hds d hd)).trans hk, hcontent,
      (spot?_congr hclass hcontent k).trans hs, hat⟩

theorem resolve_of_shape (hc : w.foundation c ≠ .mapping) : w'.resolve v d.key = (value, []) := by
  obtain ⟨o, s, rfl, rfl, hkey, hcontent, hs, hat⟩ := at?_of_shape hw hdata hds h hd hk hvalue
  have hplain : ∀ entries, o.content ≠ .mapping entries := by
    rw [hcontent]
    exact content_blank_ne hc
  rw [resolve, property?_of_spot object?_plus_self hplain hkey hs hat]
  rfl

theorem missing_of_shape (hc : w.foundation c = .mapping) :
    w'.resolve v d.key = (.missing, []) := by
  obtain ⟨o, s, rfl, rfl, hkey, hcontent, -⟩ := at?_of_shape hw hdata hds h hd hk hvalue
  have hm : (w.plus o).heap.mapping? (.object w.heap.size) = some [] := by
    rw [Heap.mapping?_eq_some, content?_object object?_plus_self, hcontent, hc]
    rfl
  rw [resolve, property?, hm, hkey]
  rfl

/-- What is shaped is what is validated: a value that the data have under a declared key is read
from the instance, whether the data are stripped or not, and however the key is spelled there.

Only instances of classes built on mappings are read as mappings, and these have no entries: all
their declared properties are missing. -/
theorem resolve_shape :
    (w.foundation c ≠ .mapping → w'.resolve v d.key = (value, [])) ∧
    (w.foundation c = .mapping → w'.resolve v d.key = (.missing, [])) :=
  ⟨resolve_of_shape hw hdata hds h hd hk hvalue, missing_of_shape hw hdata hds h hd hk hvalue⟩

end

end World

namespace Persons

/-! A class built on mappings and a plain one, with the same rule and the same data. -/

def world : World where
  classes := #[⟨"Record", "people", [.declared 0, .builtin .mapping, .builtin .object], none, [],
      [], none, .ok []⟩,
    ⟨"Person", "people", [.declared 1, .builtin .object], none, [], [], none, .ok []⟩]
  calls _ _ := none
  modules := []
  heap := Heap.initial

def age (i : Nat) : Declaration :=
  ⟨.declared i, .text "age", .text "Min", [.int 18], none, none, none⟩

def data : Entries := [(.ofText "age", (.text "age", .int 20))]

theorem classes_plain :
    ∀ d ∈ world.classes, d.properties = [] ∧ d.attributes = [] ∧ d.slots = none := by
  simp [world]

theorem members {o : Object} (h : o ∈ world.heap) :
    o.Under world.heap.size ∧ ∃ name value, o.content = .member name value := by
  simp only [world, Heap.initial, List.mem_toArray, List.mem_cons, List.not_mem_nil,
    or_false] at h
  rcases h with rfl | rfl
  · exact ⟨⟨trivial, by simp [Entries.read?], by simp⟩, _, _, rfl⟩
  · exact ⟨⟨trivial, by simp [Entries.read?], by simp⟩, _, _, rfl⟩

theorem sound : world.Sound where
  closed := by
    refine ⟨by decide, fun d hd name m hm => ?_, fun a o ho _ => ?_⟩
    · obtain ⟨hp, ha, hs⟩ := classes_plain d hd
      simp [ClassDef.member?, hp, ha, hs] at hm
    · exact (members (Array.mem_of_getElem? ho)).1
  tuples a items hc := by
    obtain ⟨o, ho, hitems⟩ := Option.map_eq_some_iff.1 hc
    obtain ⟨-, name, value, hmember⟩ := members (Array.mem_of_getElem? ho)
    rw [hmember] at hitems
    cases hitems

theorem fit : data.Fit world where
  nodup := by decide
  keyed k shown value h := by
    cases List.mem_singleton.1 h
    rfl
  old k shown value h := by
    cases List.mem_singleton.1 h
    exact ⟨trivial, trivial⟩
  ordinary name h := by
    cases List.mem_singleton.1 h
    decide

theorem old_keys (i : Nat) : ∀ d ∈ [age i], d.key.Under world.heap.size := by
  intro d hd
  cases List.mem_singleton.1 hd
  trivial

theorem key?_age (i : Nat) : world.key? (age i).key = .ok (.ofText "age") := rfl

theorem isOrdinary_age (i : Fin 2) : world.IsOrdinary (.declared i) (.ofText "age") :=
  World.isOrdinary_of_member? (by decide) (by revert i; decide)

theorem ordinary_keys (i : Fin 2) : ∀ d ∈ [age i], d.key.Under world.heap.size ∧
    ∃ k, world.key? d.key = .ok k ∧ world.IsOrdinary (.declared i) k := by
  intro d hd
  refine ⟨old_keys i d hd, .ofText "age", ?_, isOrdinary_age i⟩
  cases List.mem_singleton.1 hd
  exact key?_age i

theorem read?_data : data.read? (.ofText "age") = some (.int 20) := rfl

theorem exists_shape {ds : List Declaration} {c : ClassId} {entries : Entries} {strip : Bool}
    (h : (world.shape ds c entries strip).toOption.isSome = true) :
    ∃ w v, world.shape ds c entries strip = .ok (w, v) := by
  obtain ⟨⟨w, v⟩, hs⟩ := Option.isSome_iff_exists.1 h
  exact ⟨w, v, Except.toOption_eq_some.1 hs⟩

end Persons

/-- Data may be shaped into an instance of which something else is read. -/
theorem World.not_resolve_shape :
    ¬∀ (w : World) (ds : List Declaration) (data : Entries) (c : ClassId) (strip : Bool)
      (w' : World) (v : Value), w.Sound → data.Fit w →
      (∀ d ∈ ds, d.key.Under w.heap.size ∧ ∃ k, w.key? d.key = .ok k ∧ w.IsOrdinary c k) →
      w.shape ds c data strip = .ok (w', v) → ∀ d ∈ ds, ∀ k value, w.key? d.key = .ok k →
        data.read? k = some value → (w'.resolve v d.key).1 = value := by
  intro h
  have hshaped : (Persons.world.shape [Persons.age 0] (.declared 0) Persons.data
      false).toOption.isSome = true := by decide +kernel
  obtain ⟨w', v, hs⟩ := Persons.exists_shape hshaped
  have hread : (w'.resolve v (Persons.age 0).key).1 = .int 20 :=
    h _ _ _ _ _ _ _ Persons.sound Persons.fit (Persons.ordinary_keys 0) hs _ (.head _) _ _
      (Persons.key?_age 0) Persons.read?_data
  rw [missing_of_shape Persons.sound Persons.fit (Persons.old_keys 0) hs (.head _)
    (Persons.key?_age 0) Persons.read?_data rfl] at hread
  cases hread

theorem World.resolve_shape_person : ∃ w v,
    Persons.world.shape [Persons.age 1] (.declared 1) Persons.data true = .ok (w, v) ∧
    w.resolve v (.text "age") = (.int 20, []) := by
  have hshaped : (Persons.world.shape [Persons.age 1] (.declared 1) Persons.data
      true).toOption.isSome = true := by decide +kernel
  obtain ⟨w, v, hs⟩ := Persons.exists_shape hshaped
  have hread := resolve_shape Persons.sound Persons.fit (Persons.old_keys 1) hs (.head _)
    (Persons.key?_age 1) Persons.read?_data
  exact ⟨w, v, hs, hread.1 (by decide)⟩

end Rulebook
