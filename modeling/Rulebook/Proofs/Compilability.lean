import Rulebook.Proofs.PropertyKeys

/-!
# Which declarations have a plan

Malformed declarations are passed over, so there are two reasons only why a plan cannot be made, and
both are found in one declaration by itself (`World.unfit?`): its key cannot be looked up although
its class says that it can be one, or its priority is a number beyond all doubles. Every function on
the way to a plan fails with the first fault of what it goes through, and with nothing else.
-/

set_option autoImplicit false

namespace Rulebook

/-- Why a number cannot be compared with a double: there is none as large. -/
def Real.overflow? (r : Real) : Option Fault :=
  match r.toDouble?, r with
  | some _, _ => none
  | none, .fraction _ => some .fractionTooLarge
  | none, _ => some .wholeTooLarge

theorem Except.map_eq_error {ε α β : Type} {f : α → β} {x : Except ε α} {e : ε} :
    x.map f = .error e ↔ x = .error e := by
  cases x <;> simp [Except.map]

theorem Except.map_eq_ok {ε α β : Type} {f : α → β} {x : Except ε α} {b : β} :
    x.map f = .ok b ↔ ∃ a, x = .ok a ∧ f a = b := by
  cases x <;> simp [Except.map]

theorem Except.bind_eq_ok {ε α β : Type} {x : Except ε α} {f : α → Except ε β} {b : β} :
    (x >>= f) = .ok b ↔ ∃ a, x = .ok a ∧ f a = .ok b := by
  cases x <;> simp [bind, Except.bind]

namespace World

/-- Why the key of a declaration cannot be looked up although its class says that it can be one. -/
def keyFault? (w : World) (d : Declaration) : Option Fault :=
  if w.keyable d then
    match w.key? d.key with
    | .ok _ => none
    | .error fault => some fault
  else none

/-- Why the priority of a declaration that becomes an action has no place in the order. -/
def rankFault? (w : World) (d : Declaration) : Option Fault :=
  match w.heap.text? d.ruleType with
  | some ruleType =>
    if ruleType = optionalType then none else (w.heap.real? d.priority).bind Real.overflow?
  | none => none

/-- Why no plan can be made with a declaration. -/
def unfit? (w : World) (d : Declaration) : Option Fault :=
  if w.keyable d then (w.keyFault? d).or (w.rankFault? d) else none

variable {w : World} {strategies : StrategyRegistry} {owner : ClassId} {name : String}
  {fault : Fault}

theorem unfit?_eq_none {d : Declaration} : w.unfit? d = none ↔
    w.keyFault? d = none ∧ (w.keyable d = true → w.rankFault? d = none) := by
  unfold unfit?
  split
  · rename_i hd
    simp [hd]
  · rename_i hd
    simp [keyFault?, hd]

/-! ## Grouping -/

theorem group_eq_error {ds : List Declaration} {groups : Groups} :
    (w.group owner ds groups).2 = .error fault ↔ ds.findSome? w.keyFault? = some fault := by
  induction ds generalizing groups with
  | nil => simp [group]
  | cons d rest ih =>
    rw [group, List.findSome?_cons, keyFault?, keyable]
    split
    · cases w.key? d.key with
      | error fault' => simp
      | ok key => exact ih
    · exact ih

theorem keyFault?_of_group {ds : List Declaration} {groups : Groups}
    (h : (w.group owner ds []).2 = .ok groups) {d : Declaration} (hd : d ∈ ds) :
    w.keyFault? d = none := by
  refine List.findSome?_eq_none_iff.1 (Option.eq_none_iff_forall_ne_some.2 fun fault hf => ?_) d hd
  rw [group_eq_error.2 hf] at h
  cases h

theorem foldl_joinGroup (shown : Value) (ds ds' : List Declaration) :
    ds'.foldl joinGroup (some (shown, ds)) = some (shown, ds ++ ds') := by
  induction ds' generalizing ds with
  | nil => simp
  | cons d rest ih => rw [List.foldl_cons, joinGroup, ih, List.append_assoc, List.singleton_append]

theorem key?_of_group {ds : List Declaration} {groups : Groups}
    (h : (w.group owner ds []).2 = .ok groups) {d : Declaration} (hd : d ∈ ds)
    (hkeyable : w.keyable d = true) : ∃ k, w.key? d.key = .ok k := by
  have hnone := keyFault?_of_group h hd
  rw [keyFault?, if_pos hkeyable] at hnone
  cases hk : w.key? d.key with
  | ok k => exact ⟨k, rfl⟩
  | error fault => rw [hk] at hnone; cases hnone

/-- The group of a key: the declarations with the key, in order, and the spelling of the first. -/
theorem get?_group_eq {ds : List Declaration} {groups : Groups}
    (h : (w.group owner ds []).2 = .ok groups) : groups.keys.Nodup ∧ ∀ k, groups.get? k =
      (ds.filter (w.hasKey k)).head?.map fun d => (d.key, ds.filter (w.hasKey k)) := by
  have hkeys : ∀ x ∈ ds.filter w.keyable, ∃ k, w.key? x.key = .ok k := by
    intro x hx
    obtain ⟨hx, hkeyable⟩ := List.mem_filter.1 hx
    exact key?_of_group h hx hkeyable
  obtain ⟨groups', hgroups', hnodup, hget⟩ := @get?_group w owner _ hkeys []
  rw [group_filter_keyable, h] at hgroups'
  cases hgroups'
  refine ⟨hnodup .nil, fun k => ?_⟩
  have hfilter : (ds.filter w.keyable).filter (w.hasKey k) = ds.filter (w.hasKey k) := by
    rw [List.filter_filter]
    refine List.filter_congr fun d _ => ?_
    cases hk : w.hasKey k d with
    | false => rfl
    | true => exact isHashable_of_key? (of_decide_eq_true hk)
  rw [hget, hfilter]
  cases ds.filter (w.hasKey k) with
  | nil => rfl
  | cons d rest =>
    rw [List.foldl_cons, Catalog.get?_nil, joinGroup, foldl_joinGroup]
    rfl

theorem members_group {ds : List Declaration} {groups : Groups}
    (h : (w.group owner ds []).2 = .ok groups) {g : Key × Value × List Declaration}
    (hg : g ∈ groups) :
    g.2.2 = ds.filter (w.hasKey g.1) ∧ g.2.2.head?.map (·.key) = some g.2.1 := by
  obtain ⟨hnodup, hget⟩ := get?_group_eq h
  have hgroup := (Catalog.mem_iff_get? hnodup).1 hg
  rw [hget] at hgroup
  obtain ⟨d, hd, heq⟩ := Option.map_eq_some_iff.1 hgroup
  rw [← heq]
  exact ⟨rfl, by rw [hd]; rfl⟩

/-- Groups hold the declarations whose keys can be keys, and no others. -/
theorem mem_group {ds : List Declaration} {groups : Groups}
    (h : (w.group owner ds []).2 = .ok groups) {d : Declaration} :
    (∃ g ∈ groups.map (·.2), d ∈ g.2) ↔ d ∈ ds ∧ w.keyable d = true := by
  constructor
  · rintro ⟨g, hg, hd⟩
    obtain ⟨⟨k, g⟩, hmem, rfl⟩ := List.mem_map.1 hg
    rw [(members_group h hmem).1] at hd
    obtain ⟨hd, hk⟩ := List.mem_filter.1 hd
    exact ⟨hd, isHashable_of_key? (of_decide_eq_true hk)⟩
  · rintro ⟨hd, hkeyable⟩
    obtain ⟨hnodup, hget⟩ := get?_group_eq h
    obtain ⟨k, hk⟩ := key?_of_group h hd hkeyable
    have hmem : d ∈ ds.filter (w.hasKey k) := List.mem_filter.2 ⟨hd, by simp [hasKey, hk]⟩
    cases hf : ds.filter (w.hasKey k) with
    | nil => rw [hf] at hmem; cases hmem
    | cons x rest =>
      have hgroup := hget k
      rw [hf] at hgroup hmem
      exact ⟨(x.key, x :: rest), List.mem_map_of_mem ((Catalog.mem_iff_get? hnodup).2 hgroup), hmem⟩

/-! ## Ranking -/

theorem rank_eq_error {ruleType : String} {d : Declaration} :
    (w.rank owner name ruleType d).2 = .error fault ↔
      (w.heap.real? d.priority).bind Real.overflow? = some fault := by
  rw [rank]
  cases w.heap.real? d.priority with
  | none => simp
  | some r =>
    rw [Option.bind_some]
    unfold Real.overflow?
    dsimp only
    generalize r.toDouble? = nearest
    generalize r.extended? = place
    cases nearest with
    | some x => cases place <;> simp
    | none => cases r <;> simp

theorem ranks_eq_error {ds : List (String × Declaration)} :
    (w.ranks owner name ds).2 = .error fault ↔
      ds.findSome? (fun x => (w.heap.real? x.2.priority).bind Real.overflow?) = some fault := by
  induction ds with
  | nil => simp [ranks]
  | cons x rest ih =>
    obtain ⟨ruleType, d⟩ := x
    have hd (fault : Fault) := @rank_eq_error w owner name fault ruleType d
    rw [ranks, List.findSome?_cons]
    cases hr : w.rank owner name ruleType d with
    | mk records outcome =>
      simp only [hr] at hd
      cases outcome with
      | error fault' =>
        rw [(hd fault').1 rfl]
        simp
      | ok place =>
        have hnone : (w.heap.real? d.priority).bind Real.overflow? = none := by
          refine Option.eq_none_iff_forall_ne_some.2 fun fault' hf => ?_
          cases (hd fault').2 hf
        rw [hnone]
        exact Except.map_eq_error.trans ih

theorem compileProperty_eq_error {key : Value} {ds : List Declaration} :
    (w.compileProperty strategies owner key ds).2 = .error fault ↔
      ds.findSome? w.rankFault? = some fault := by
  have hfaults : ds.findSome? w.rankFault? =
      ((w.typed owner (w.displayKey key) ds).1.filter fun x => x.1 ≠ optionalType).findSome?
        fun x => (w.heap.real? x.2.priority).bind Real.overflow? := by
    rw [typed_eq]
    induction ds with
    | nil => rfl
    | cons d rest ih =>
      rw [List.findSome?_cons, List.filterMap_cons, rankFault?, ih]
      cases w.heap.text? d.ruleType with
      | none => rfl
      | some ruleType =>
        by_cases ht : ruleType = optionalType
        · simp [ht]
        · simp [ht, List.findSome?_cons]
  rw [compileProperty_snd, hfaults, ← @ranks_eq_error w owner (w.displayKey key)]
  exact Except.map_eq_error

theorem compileProperties_eq_error {groups : List (Value × List Declaration)} :
    (w.compileProperties strategies owner groups).2 = .error fault ↔
      groups.findSome? (fun g => g.2.findSome? w.rankFault?) = some fault := by
  induction groups with
  | nil => simp [compileProperties]
  | cons g rest ih =>
    rw [compileProperties_cons, List.findSome?_cons]
    cases hg : (w.compileProperty strategies owner g.1 g.2).2 with
    | error fault' =>
      rw [compileProperty_eq_error.1 hg]
      simp [Except.bind]
    | ok e =>
      have hnone : g.2.findSome? w.rankFault? = none := by
        refine Option.eq_none_iff_forall_ne_some.2 fun fault' hf => ?_
        rw [compileProperty_eq_error.2 hf] at hg
        cases hg
      rw [hnone]
      exact Except.map_eq_error.trans ih

/-! ## Compiling -/

/-- Compiling fails because of the first key that breaks, or else of the first priority. -/
theorem compile_eq_error {ds : List Declaration} :
    (w.compile strategies owner ds).2 = .error fault ↔
      ds.findSome? w.keyFault? = some fault ∨ ∃ groups, (w.group owner ds []).2 = .ok groups ∧
        (groups.map (·.2)).findSome? (fun g => g.2.findSome? w.rankFault?) = some fault := by
  rw [compile_snd, ← @group_eq_error w owner fault ds []]
  cases (w.group owner ds []).2 with
  | error fault' => simp [Except.bind]
  | ok groups =>
    have hes := @compileProperties_eq_error w strategies owner fault (groups.map (·.2))
    simp only [Except.bind, Except.map_eq_error, hes, Except.ok.injEq, reduceCtorEq, false_or,
      exists_eq_left']

/-- The reason why declarations have no plan is found in one of them. -/
theorem unfit_of_compile {ds : List Declaration}
    (h : (w.compile strategies owner ds).2 = .error fault) : ∃ d ∈ ds, w.unfit? d = some fault := by
  rcases compile_eq_error.1 h with hkey | ⟨groups, hgroups, hrank⟩
  · obtain ⟨d, hd, hfault⟩ := List.exists_of_findSome?_eq_some hkey
    refine ⟨d, hd, ?_⟩
    have hkeyable : w.keyable d = true := by
      by_contra hno
      rw [keyFault?, if_neg hno] at hfault
      cases hfault
    rw [unfit?, if_pos hkeyable, hfault]
    rfl
  · obtain ⟨g, hg, hfault⟩ := List.exists_of_findSome?_eq_some hrank
    obtain ⟨d, hdg, hfault⟩ := List.exists_of_findSome?_eq_some hfault
    obtain ⟨hd, hkeyable⟩ := (mem_group hgroups).1 ⟨g, hg, hdg⟩
    have hnone : w.keyFault? d = none := keyFault?_of_group hgroups hd
    exact ⟨d, hd, by rw [unfit?, if_pos hkeyable, hnone, hfault]; rfl⟩

/-- No declaration that has a plan with others is unfit. -/
theorem fit_of_compile {ds : List Declaration} {plan : Plan}
    (h : (w.compile strategies owner ds).2 = .ok plan) {d : Declaration} (hd : d ∈ ds) :
    w.unfit? d = none := by
  have hno : ∀ fault, ¬(w.compile strategies owner ds).2 = .error fault := by
    intro fault hfault
    rw [h] at hfault
    cases hfault
  cases hgroups : (w.group owner ds []).2 with
  | error fault =>
    exact absurd (compile_eq_error.2 (.inl (group_eq_error.1 hgroups))) (hno fault)
  | ok groups =>
    refine unfit?_eq_none.2 ⟨?_, fun hkeyable => ?_⟩
    · refine Option.eq_none_iff_forall_ne_some.2 fun fault hfault => ?_
      cases hf : ds.findSome? w.keyFault? with
      | none => rw [List.findSome?_eq_none_iff.1 hf d hd] at hfault; cases hfault
      | some fault' => exact hno fault' (compile_eq_error.2 (.inl hf))
    · obtain ⟨g, hg, hdg⟩ := (mem_group hgroups).2 ⟨hd, hkeyable⟩
      cases hf : (groups.map (·.2)).findSome? (fun g => g.2.findSome? w.rankFault?) with
      | none => exact List.findSome?_eq_none_iff.1 (List.findSome?_eq_none_iff.1 hf g hg) d hdg
      | some fault => exact absurd (compile_eq_error.2 (.inr ⟨groups, hgroups, hf⟩)) (hno fault)

/-- Declarations have a plan if none of them is unfit, and only then. -/
theorem compile_ok_iff {ds : List Declaration} :
    (∃ plan, (w.compile strategies owner ds).2 = .ok plan) ↔ ∀ d ∈ ds, w.unfit? d = none := by
  constructor
  · rintro ⟨plan, h⟩ d hd
    exact fit_of_compile h hd
  · intro hfit
    cases h : (w.compile strategies owner ds).2 with
    | ok plan => exact ⟨plan, rfl⟩
    | error fault =>
      obtain ⟨d, hd, hfault⟩ := unfit_of_compile h
      rw [hfit d hd] at hfault
      cases hfault

end World

end Rulebook
