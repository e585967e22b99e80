import Rulebook.Proofs.Compilation
import Rulebook.Shaping

/-!
# The properties that a class has rules for

The keys that a class has rules for and the executors of its plan come from two passes over the same
declarations. Both go by the word of a key and keep its first spelling (`propertyKeys_of_group`), but
a plan leaves out the declarations whose key can be none, while listing the keys fails at the first
of these. So the two agree exactly where all keys can be keys (`Registry.propertyKeys_of_compile`).
-/

set_option autoImplicit false

namespace Rulebook

/-- Entries change in the same way after their values have been mapped. -/
theorem Catalog.map_alter {κ α β : Type} [DecidableEq κ] {f : Option α → α} {g : Option β → β}
    {m : α → β} (h : ∀ o, m (f o) = g (o.map m)) (c : Catalog κ α) (k : κ) :
    (c.alter f k).map (Prod.map id m) = Catalog.alter g (c.map (Prod.map id m)) k := by
  induction c with
  | nil => simp [alter, h]
  | cons e rest ih =>
    obtain ⟨k', a⟩ := e
    by_cases hk : k' = k
    · simp [alter, hk, h]
    · simpa [alter, hk] using ih

/-- What stands in changed entries: an entry as it was, or what the one at the key became. -/
theorem Catalog.mem_alter {κ α : Type} [DecidableEq κ] {f : Option α → α} {c : Catalog κ α}
    {k k' : κ} {a : α} (h : (k', a) ∈ c.alter f k) :
    (k', a) ∈ c ∨ k' = k ∧ ∃ old : Option α, a = f old ∧ ∀ b, old = some b → (k, b) ∈ c := by
  induction c with
  | nil =>
    obtain ⟨rfl, rfl⟩ : k' = k ∧ a = f none := by simpa [alter] using h
    refine .inr ⟨rfl, none, rfl, fun b hb => ?_⟩
    cases hb
  | cons e rest ih =>
    obtain ⟨k₀, b⟩ := e
    by_cases hk : k₀ = k
    · rw [alter, if_pos hk] at h
      rcases List.mem_cons.1 h with heq | hrest
      · cases heq
        exact .inr ⟨hk, some b, rfl, fun b' hb' => by cases hb'; rw [hk]; exact .head _⟩
      · exact .inl (.tail _ hrest)
    · rw [alter, if_neg hk] at h
      rcases List.mem_cons.1 h with heq | hrest
      · exact .inl (heq ▸ .head _)
      · rcases ih hrest with hold | ⟨rfl, old, ha, hold⟩
        · exact .inl (.tail _ hold)
        · exact .inr ⟨rfl, old, ha, fun b' hb' => .tail _ (hold b' hb')⟩

/-- The keys of groups, as they were first spelled. -/
def Groups.spellings (groups : Groups) : Catalog Key Value := groups.map (Prod.map id Prod.fst)

namespace World

variable {w : World} {strategies : StrategyRegistry} {owner : ClassId}

theorem key?_of_not_hashable {v : Value} (h : w.isHashable v = false) :
    w.key? v = .error (.unhashable (w.nameOfClassOf v)) := by
  rw [isHashable] at h
  rw [key?, keyWithin]
  cases hp : w.heap.plain v with
  | byteArray bs => rfl
  | object a =>
    rw [hp] at h
    dsimp only at h ⊢
    cases hh : w.hashing? (w.classOf v) with
    | some hashing =>
      rw [hh] at h
      cases hashing with
      | none => rfl
      | own code => cases h
    | none =>
      rw [hh] at h
      cases hc : w.heap.content? v with
      | none => rw [hc] at h; cases h
      | some content =>
        rw [hc] at h
        cases content <;> first | rfl | cases h
  | _ => rw [hp] at h; cases h

/-- The key of the declaration can be one, as far as its class tells. -/
def keyable (w : World) (d : Declaration) : Bool := w.isHashable d.key

/-- Declarations whose keys can be none leave the groups as they are. -/
theorem group_filter_keyable (ds : List Declaration) (groups : Groups) :
    (w.group owner (ds.filter w.keyable) groups).2 = (w.group owner ds groups).2 := by
  induction ds generalizing groups with
  | nil => rfl
  | cons d rest ih =>
    cases hd : w.keyable d with
    | true =>
      have hkey : w.isHashable d.key = true := hd
      rw [List.filter_cons_of_pos hd, group, group, if_pos hkey, if_pos hkey]
      cases w.key? d.key with
      | ok key => exact ih _
      | error fault => rfl
    | false =>
      have hne : ¬w.keyable d = true := by simp [hd]
      have hkey : ¬w.isHashable d.key = true := hne
      rw [List.filter_cons_of_neg hne, group.eq_2, if_neg hkey]
      exact ih groups

/-- Grouping declarations and listing their keys come to the same keys in the same order. -/
theorem propertyKeys_of_group {ds : List Declaration} {groups groups' : Groups}
    (hds : ∀ d ∈ ds, w.keyable d = true) (h : (w.group owner ds groups).2 = .ok groups') :
    w.propertyKeys ds groups.spellings = .ok (groups'.map (·.2.1)) := by
  -- on the declarations, for all groups made before them
  induction ds generalizing groups with
  | nil =>
    cases h
    simp [propertyKeys, Groups.spellings, pure, Except.pure]
  | cons d rest ih =>
    obtain ⟨hd, hrest⟩ := List.forall_mem_cons.1 hds
    have hkey : w.isHashable d.key = true := hd
    rw [group, if_pos hkey] at h
    cases hk : w.key? d.key with
    | error fault => rw [hk] at h; cases h
    | ok key =>
      rw [hk] at h
      have hih := ih hrest h
      rw [Groups.spellings, Catalog.map_alter (g := fun old => old.getD d.key)] at hih
      · rw [propertyKeys, hk]
        exact hih
      · intro old
        cases old <;> rfl

/-- The first key that cannot be looked up is the reason why keys cannot be listed. -/
theorem propertyKeys_append_error {before after : List Declaration} {d : Declaration}
    {fault : Fault} (hbefore : ∀ x ∈ before, ∃ k, w.key? x.key = .ok k)
    (hd : w.key? d.key = .error fault) (seen : Catalog Key Value) :
    w.propertyKeys (before ++ d :: after) seen = .error fault := by
  induction before generalizing seen with
  | nil => rw [List.nil_append, propertyKeys, hd]; rfl
  | cons x rest ih =>
    obtain ⟨⟨k, hk⟩, hrest⟩ := List.forall_mem_cons.1 hbefore
    rw [List.cons_append, propertyKeys, hk]
    exact ih hrest _

/-- The keys of declarations under their words: no word comes twice, and each key is spelled as one
of the declarations spells it. -/
structure Names (w : World) (ds : List Declaration) (names : Catalog Key Value) : Prop where
  nodup : names.keys.Nodup
  complete : ∀ d ∈ ds, ∃ k ∈ names.keys, w.key? d.key = .ok k
  declared : ∀ k key, (k, key) ∈ names → ∃ d ∈ ds, d.key = key ∧ w.key? key = .ok k

/-- Keys are listed if all can be looked up. -/
theorem propertyKeys_ok {ds : List Declaration} (h : ∀ d ∈ ds, ∃ k, w.key? d.key = .ok k)
    (seen : Catalog Key Value) : ∃ keys, w.propertyKeys ds seen = .ok keys := by
  induction ds generalizing seen with
  | nil => exact ⟨_, rfl⟩
  | cons d rest ih =>
    obtain ⟨⟨k, hk⟩, hrest⟩ := List.forall_mem_cons.1 h
    rw [propertyKeys, hk]
    exact ih hrest _

/-- Names are added to those that were seen before. -/
theorem names_from_seen {ds : List Declaration} {seen : Catalog Key Value} {keys : List Value}
    (h : w.propertyKeys ds seen = .ok keys) : ∃ names : Catalog Key Value,
      keys = names.map (·.2) ∧ (seen.keys.Nodup → names.keys.Nodup) ∧
      (∀ k ∈ seen.keys, k ∈ names.keys) ∧ (∀ d ∈ ds, ∃ k ∈ names.keys, w.key? d.key = .ok k) ∧
      ∀ k key, (k, key) ∈ names →
        (k, key) ∈ seen ∨ ∃ d ∈ ds, d.key = key ∧ w.key? key = .ok k := by
  induction ds generalizing seen with
  | nil =>
    cases h
    exact ⟨seen, rfl, id, fun _ => id, List.forall_mem_nil _, fun _ _ => .inl⟩
  | cons d rest ih =>
    rw [propertyKeys] at h
    cases hk : w.key? d.key with
    | error fault => rw [hk] at h; cases h
    | ok key =>
      rw [hk] at h
      obtain ⟨names, hkeys, hnodup, hkept, hcomplete, hdeclared⟩ := ih h
      have hseen : ∀ k ∈ Catalog.keys seen, k ∈ names.keys := by
        intro k hk'
        refine hkept k ?_
        rw [Catalog.keys_alter]
        split
        · exact hk'
        · exact List.mem_append_left _ hk'
      have hnew : key ∈ names.keys := by
        refine hkept key ?_
        rw [Catalog.keys_alter]
        split
        · assumption
        · exact List.mem_append_right _ (List.mem_singleton_self key)
      refine ⟨names, hkeys, fun hn => hnodup (Catalog.nodup_keys_alter hn), hseen,
        List.forall_mem_cons.2 ⟨⟨key, hnew, hk⟩, hcomplete⟩, fun k spelled hmem => ?_⟩
      rcases hdeclared k spelled hmem with hmem | ⟨x, hx, hspelled⟩
      · rcases Catalog.mem_alter hmem with hold | ⟨rfl, old, hspelled, hold⟩
        · exact .inl hold
        · cases old with
          | none => exact .inr ⟨d, .head _, hspelled.symm, hspelled ▸ hk⟩
          | some first => exact .inl (hspelled ▸ hold first rfl)
      · exact .inr ⟨x, .tail _ hx, hspelled⟩

theorem names_of_propertyKeys {ds : List Declaration} {keys : List Value}
    (h : w.propertyKeys ds [] = .ok keys) : ∃ names, keys = names.map (·.2) ∧ w.Names ds names := by
  obtain ⟨names, hkeys, hnodup, -, hcomplete, hdeclared⟩ := names_from_seen h
  refine ⟨names, hkeys, hnodup .nil, hcomplete, fun k key hmem => ?_⟩
  exact (hdeclared k key hmem).resolve_left List.not_mem_nil

/-- The keys of a plan are those of the groups that it is made from. -/
theorem keys_of_compile {ds : List Declaration} {plan : Plan}
    (h : (w.compile strategies owner ds).2 = .ok plan) : ∃ groups : Groups,
      (w.group owner ds []).2 = .ok groups ∧ plan.executors.map (·.key) = groups.map (·.2.1) := by
  rw [compile_snd] at h
  cases hg : (w.group owner ds []).2 with
  | error fault => rw [hg] at h; cases h
  | ok groups =>
    rw [hg] at h
    cases hes : (w.compileProperties strategies owner (groups.map (·.2))).2 with
    | error fault => simp [hes, Except.bind, Except.map] at h
    | ok es =>
      simp only [hes, Except.bind, Except.map, Except.ok.injEq] at h
      have hkey : ∀ {g : Value × List Declaration} {e : Executor},
          (w.compileProperty strategies owner g.1 g.2).2 = .ok e → e.key = g.1 := by
        intro g e he
        rw [compileProperty_snd] at he
        dsimp only at he
        cases hr : (w.ranks owner (w.displayKey g.1) (List.filter (fun x => x.1 ≠ optionalType)
            (w.typed owner (w.displayKey g.1) g.2).1)).2 with
        | error fault => rw [hr] at he; cases he
        | ok ranked => rw [hr] at he; cases he; rfl
      have hkeys : ∀ {gs : List (Value × List Declaration)} {es : List Executor},
          List.Forall₂ (fun g e => (w.compileProperty strategies owner g.1 g.2).2 = .ok e) gs es →
            es.map (·.key) = gs.map (·.1) := by
        intro gs es hall
        induction hall with
        | nil => rfl
        | cons he _ ih => rw [List.map_cons, List.map_cons, ih, hkey he]
      refine ⟨groups, rfl, ?_⟩
      rw [← h, hkeys (compileProperties_eq_ok.1 hes), List.map_map]
      rfl

/-- The declarations with keys that can be keys have exactly the keys of the plan. -/
theorem propertyKeys_filter_of_compile {ds : List Declaration} {plan : Plan}
    (h : (w.compile strategies owner ds).2 = .ok plan) :
    w.propertyKeys (ds.filter w.keyable) [] =
      .ok (plan.executors.map (·.key)) := by
  obtain ⟨groups, hgroups, hkeys⟩ := keys_of_compile h
  rw [← group_filter_keyable] at hgroups
  rw [hkeys]
  exact propertyKeys_of_group (fun d hd => (List.mem_filter.1 hd).2) hgroups

/-- The value that data has for a key, however the key is spelled. -/
def valueAt? (w : World) (data : Entries) (key : Value) : Option Value :=
  (w.key? key).toOption.bind data.read?

/-- Entries are selected in the order of the keys, and spelled like these. -/
theorem selectEntries_eq {data : Entries} {keys : List Value}
    (h : ∀ key ∈ keys, ∃ k, w.key? key = .ok k) : w.selectEntries data keys =
      .ok (keys.filterMap fun key => (w.valueAt? data key).map (key, ·)) := by
  induction keys with
  | nil => rfl
  | cons key rest ih =>
    obtain ⟨⟨k, hk⟩, hrest⟩ := List.forall_mem_cons.1 h
    have hvalue : w.valueAt? data key = data.read? k := by simp [valueAt?, hk, Except.toOption]
    rw [selectEntries, hk, List.filterMap_cons, hvalue]
    change (w.selectEntries data rest >>= fun others => pure _) = _
    rw [ih hrest]
    cases data.read? k <;> simp [bind, Except.bind, pure, Except.pure]

/-- Entries are selected under the keys that are listed. -/
theorem entriesFor_eq {ds : List Declaration} {keys : List Value}
    (h : w.propertyKeys ds [] = .ok keys) (data : Entries) : w.entriesFor ds data true =
      .ok (keys.filterMap fun key => (w.valueAt? data key).map (key, ·)) := by
  obtain ⟨names, rfl, hnames⟩ := names_of_propertyKeys h
  have hkeys : ∀ key ∈ names.map (·.2), ∃ k, w.key? key = .ok k := by
    intro key hkey
    obtain ⟨⟨k, key⟩, hmem, rfl⟩ := List.mem_map.1 hkey
    obtain ⟨-, -, -, hk⟩ := hnames.declared k key hmem
    exact ⟨k, hk⟩
  rw [entriesFor, if_pos rfl, h]
  exact selectEntries_eq hkeys

end World

/-! ## The keys of a registry -/

/-- A plan has one executor for every key of the declarations whose keys can be keys, in the order
of the first of each. If these are all, the registry lists the same keys, and shaping keeps the
entries that the plan reads, spelled as it reads them. Otherwise the registry fails to list any,
because of the first key that can be none, and the plan is made all the same. -/
theorem Registry.propertyKeys_of_compile (r : Registry) {w : World}
    {strategies : StrategyRegistry} {owner : ClassId} {plan : Plan}
    (h : (w.compile strategies owner (r.rulesOf owner)).2 = .ok plan) :
    let ds := r.rulesOf owner
    let keys := plan.executors.map (·.key)
    w.propertyKeys (ds.filter w.keyable) [] = .ok keys ∧
    ((∀ d ∈ ds, w.keyable d = true) → w.propertyKeys ds [] = .ok keys ∧
      ∀ data, w.entriesFor ds data true =
        .ok (keys.filterMap fun key => (w.valueAt? data key).map (key, ·))) ∧
    ∀ before d after, ds = before ++ d :: after → (∀ x ∈ before, w.keyable x = true) →
      w.keyable d = false →
        w.propertyKeys ds [] = .error (.unhashable (w.nameOfClassOf d.key)) := by
  intro ds keys
  have hkeys : w.propertyKeys (ds.filter w.keyable) [] = .ok keys :=
    World.propertyKeys_filter_of_compile h
  refine ⟨hkeys, fun hall => ?_, fun before d after hds hbefore hd => ?_⟩
  · rw [List.filter_eq_self.2 hall] at hkeys
    exact ⟨hkeys, World.entriesFor_eq hkeys⟩
  · rw [hds]
    refine World.propertyKeys_append_error (fun x hx => ?_) (World.key?_of_not_hashable hd) []
    have hmem : x ∈ ds := hds ▸ List.mem_append_left _ hx
    obtain ⟨names, -, hnames⟩ := World.names_of_propertyKeys hkeys
    obtain ⟨k, -, hk⟩ := hnames.complete x (List.mem_filter.2 ⟨hmem, hbefore x hx⟩)
    exact ⟨k, hk⟩

namespace Bracketed

/-! A registry with a key that can be none, a list, before one that can. -/

def world : World where
  classes := #[]
  calls _ _ := none
  modules := []
  heap := #[⟨.builtin .list, .list #[.text "code"], [], []⟩]

def code : Declaration := ⟨.builtin .object, .object 0, .text "IsString", [], none, none, none⟩

def total : Declaration := ⟨.builtin .object, .text "total", .text "IsNumber", [], none, none, none⟩

def strategies : StrategyRegistry := .initial "strategies" true

def registry : Registry := (Registry.empty "rules").addAll [code, total]

/-- The plan is made without the key that can be none. -/
theorem exists_plan {r : Registry}
    (h : ((world.compile strategies (.builtin .object) (r.rulesOf (.builtin .object))).2.map
      fun plan => plan.executors.map (·.key)) = .ok [.text "total"]) :
    ∃ plan, (world.compile strategies (.builtin .object) (r.rulesOf (.builtin .object))).2 =
      .ok plan ∧ plan.executors.map (·.key) = [.text "total"] := by
  cases hplan : (world.compile strategies (.builtin .object) (r.rulesOf (.builtin .object))).2 with
  | error fault => rw [hplan] at h; cases h
  | ok plan =>
    rw [hplan] at h
    exact ⟨plan, rfl, Except.ok.inj h⟩

end Bracketed

/-- A class may have a plan although its keys cannot be listed. -/
theorem Registry.propertyKeys_not_of_compile :
    ¬∀ (w : World) (strategies : StrategyRegistry) (owner : ClassId) (added : List Declaration)
      (plan : Plan), (w.compile strategies owner
          (((Registry.empty "rules").addAll added).rulesOf owner)).2 = .ok plan →
        w.propertyKeys (((Registry.empty "rules").addAll added).rulesOf owner) [] =
          .ok (plan.executors.map (·.key)) := by
  intro h
  obtain ⟨plan, hplan, -⟩ := Bracketed.exists_plan (r := Bracketed.registry) (by decide +kernel)
  have hkeys := h Bracketed.world Bracketed.strategies _ _ plan hplan
  have hfails : (Bracketed.world.propertyKeys (Bracketed.registry.rulesOf (.builtin .object))
      []).toOption = none := by decide +kernel
  rw [show Bracketed.registry = (Registry.empty "rules").addAll _ from rfl, hkeys] at hfails
  cases hfails

theorem Registry.propertyKeys_of_compile_bracketed :
    (∃ plan, (Bracketed.world.compile Bracketed.strategies (.builtin .object)
        (Bracketed.registry.rulesOf (.builtin .object))).2 = .ok plan ∧
      plan.executors.map (·.key) = [.text "total"]) ∧
    Bracketed.world.propertyKeys (Bracketed.registry.rulesOf (.builtin .object)) [] =
      .error (.unhashable "list") ∧
    Bracketed.world.propertyKeys [Bracketed.total] [] = .ok [.text "total"] ∧
    Bracketed.world.entriesFor
      (((Registry.empty "rules").add Bracketed.total).rulesOf (.builtin .object))
      [(.ofText "note", (.text "note", .int 1)), (.ofText "total", (.text "total", .int 2))] true =
        .ok [(.text "total", .int 2)] := by
  obtain ⟨plan, hplan, hkeys⟩ :=
    Bracketed.exists_plan (r := Bracketed.registry) (by decide +kernel)
  obtain ⟨hfiltered, -, hfails⟩ := propertyKeys_of_compile Bracketed.registry hplan
  obtain ⟨plan', hplan', hkeys'⟩ := Bracketed.exists_plan
    (r := (Registry.empty "rules").add Bracketed.total) (by decide +kernel)
  obtain ⟨-, hall, -⟩ := propertyKeys_of_compile _ hplan'
  refine ⟨⟨plan, hplan, hkeys⟩, ?_, ?_, ?_⟩
  · exact hfails [] Bracketed.code [Bracketed.total] rfl (List.forall_mem_nil _) rfl
  · rw [hkeys] at hfiltered
    exact hfiltered
  · rw [(hall (by decide)).2, hkeys']
    rfl

end Rulebook
