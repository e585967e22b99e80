import Mathlib.Data.List.Perm.Basic
import Rulebook.Plan.Basic

/-!
# What plans are made of

Compiling groups the declarations of a class by property, compiles every group by itself, and turns
what is left of a group into actions, the most urgent first. Each step is described by itself:
`get?_group` tells the group of a key from the declarations with that key alone,
`compileProperties_eq_ok` goes through the groups one by one, and strategies matter to nothing but
the actions (`compile_mapActions`).

So the order of the executors is all that depends on how the declarations of different properties
are mixed (`compile_perm`).
-/

set_option autoImplicit false

namespace Rulebook

namespace World

variable {w : World} {strategies : StrategyRegistry} {owner : ClassId} {name : String}

/-! ## Grouping -/

/-- The group of a key after one more declaration. -/
def joinGroup (old : Option (Value × List Declaration)) (d : Declaration) :
    Option (Value × List Declaration) :=
  some (match old with
    | some (shown, ds) => (shown, ds ++ [d])
    | none => (d.key, [d]))

/-- The declaration is about the property of this key. -/
def hasKey (w : World) (k : Key) (d : Declaration) : Bool := w.key? d.key = .ok k

theorem isHashable_of_key? {v : Value} {k : Key} (h : w.key? v = .ok k) :
    w.isHashable v = true := by
  rw [key?, keyWithin] at h
  rw [isHashable]
  cases hp : w.heap.plain v with
  | byteArray bs => rw [hp] at h; cases h
  | object a =>
    rw [hp] at h
    dsimp only at h ⊢
    cases hh : w.hashing? (w.classOf v) with
    | some hashing =>
      cases hashing with
      | none => rw [hh] at h; cases h
      | own code => rfl
    | none =>
      rw [hh] at h
      cases hc : w.heap.content? v with
      | none => rfl
      | some content =>
        rw [hc] at h
        cases content <;> first | rfl | cases h
  | _ => rfl

/-- Declarations with keys can be grouped. The group of a key holds those with the key, in order. -/
theorem get?_group {ds : List Declaration} (hkeys : ∀ d ∈ ds, ∃ k, w.key? d.key = .ok k)
    (groups : Groups) : ∃ groups' : Groups, (w.group owner ds groups).2 = .ok groups' ∧
      (groups.keys.Nodup → groups'.keys.Nodup) ∧
      ∀ k, groups'.get? k = (ds.filter (w.hasKey k)).foldl joinGroup (groups.get? k) := by
  -- on the declarations, for all groups made before them
  induction ds generalizing groups with
  | nil => exact ⟨groups, rfl, id, fun _ => rfl⟩
  | cons d rest ih =>
    obtain ⟨key, hkey⟩ := hkeys d (.head _)
    rw [group, if_pos (isHashable_of_key? hkey), hkey]
    obtain ⟨groups', hok, hnodup, hget⟩ := ih (fun d hd => hkeys d (.tail _ hd)) _
    refine ⟨groups', hok, fun h => hnodup (Catalog.nodup_keys_alter h), fun k => ?_⟩
    rw [hget, Catalog.get?_alter]
    by_cases hk : key = k
    · subst hk
      have hd : w.hasKey key d = true := by simp [hasKey, hkey]
      rw [List.filter_cons_of_pos hd, if_pos rfl]
      rfl
    · have hd : ¬ w.hasKey k d = true := by simp [hasKey, hkey, hk]
      rw [List.filter_cons_of_neg hd, if_neg hk]

/-! ## Compiling -/

theorem typed_eq (ds : List Declaration) : (w.typed owner name ds).1 =
    ds.filterMap fun d => (w.heap.text? d.ruleType).map (·, d) := by
  induction ds with
  | nil => rfl
  | cons d rest ih =>
    rw [typed, List.filterMap_cons, ← ih]
    cases w.heap.text? d.ruleType <;> rfl

theorem compileProperty_snd (key : Value) (ds : List Declaration) :
    (w.compileProperty strategies owner key ds).2 =
      let name := w.displayKey key
      let wellFormed := (w.typed owner name ds).1
      (w.ranks owner name (wellFormed.filter fun x => x.1 ≠ optionalType)).2.map fun ranked =>
        { key, name
          actions := (w.actions strategies owner name (byRank ranked)).1
          isOptional := wellFormed.any fun x => x.1 = optionalType
          location := firstLocation? (byRank ranked) } := by
  unfold compileProperty
  dsimp only
  cases w.ranks owner (w.displayKey key)
      ((w.typed owner (w.displayKey key) ds).1.filter fun x => x.1 ≠ optionalType) with
  | mk records outcome => cases outcome <;> rfl

theorem compileProperties_cons (key : Value) (ds : List Declaration)
    (rest : List (Value × List Declaration)) :
    (w.compileProperties strategies owner ((key, ds) :: rest)).2 =
      (w.compileProperty strategies owner key ds).2.bind fun e =>
        (w.compileProperties strategies owner rest).2.map (e :: ·) := by
  rw [compileProperties]
  cases w.compileProperty strategies owner key ds with
  | mk records outcome => cases outcome <;> rfl

theorem compile_snd (ds : List Declaration) : (w.compile strategies owner ds).2 =
    (w.group owner ds []).2.bind fun groups =>
      (w.compileProperties strategies owner (groups.map (·.2))).2.map fun es => ⟨owner, es⟩ := by
  rw [compile]
  cases w.group owner ds [] with
  | mk malformed outcome =>
    cases outcome with
    | error fault => rfl
    | ok groups =>
      dsimp only [Except.bind]
      cases w.compileProperties strategies owner (groups.map (·.2)) with
      | mk records outcome => cases outcome <;> rfl

theorem compileProperties_eq_ok {groups : List (Value × List Declaration)} {es : List Executor} :
    (w.compileProperties strategies owner groups).2 = .ok es ↔
      List.Forall₂ (fun g e => (w.compileProperty strategies owner g.1 g.2).2 = .ok e)
        groups es := by
  induction groups generalizing es with
  | nil => simp [compileProperties, eq_comm]
  | cons g rest ih =>
    rw [compileProperties_cons, List.forall₂_cons_left_iff]
    simp only [← ih]
    cases (w.compileProperty strategies owner g.1 g.2).2 <;>
      cases (w.compileProperties strategies owner rest).2 <;>
        simp [Except.bind, Except.map, eq_comm]

/-- Declarations in another order, with those of every property in the same order, make the same
executors in another order. -/
theorem compile_perm {ds ds' : List Declaration} {plan : Plan}
    (hkeys : ∀ d ∈ ds, ∃ k, w.key? d.key = .ok k) (hkeys' : ∀ d ∈ ds', ∃ k, w.key? d.key = .ok k)
    (hsame : ∀ k, ds.filter (w.hasKey k) = ds'.filter (w.hasKey k))
    (h : (w.compile strategies owner ds).2 = .ok plan) :
    ∃ plan', (w.compile strategies owner ds').2 = .ok plan' ∧
      plan.executors.Perm plan'.executors := by
  obtain ⟨groups, hgroups, hnodup, hget⟩ := @get?_group w owner ds hkeys []
  obtain ⟨groups', hgroups', hnodup', hget'⟩ := @get?_group w owner ds' hkeys' []
  rw [compile_snd, hgroups] at h
  rw [compile_snd, hgroups']
  have hperm : groups.Perm groups' := Catalog.perm_of_get?_eq (hnodup .nil) (hnodup' .nil)
    fun k => by rw [hget, hget', hsame]
  cases hes : (w.compileProperties strategies owner (groups.map (·.2))).2 with
  | error fault => simp [hes, Except.bind, Except.map] at h
  | ok es =>
    obtain ⟨es', hes', hp⟩ :=
      List.perm_comp_forall₂ (hperm.symm.map (·.2)) (compileProperties_eq_ok.1 hes)
    refine ⟨⟨owner, es'⟩, by simp [Except.bind, Except.map, compileProperties_eq_ok.2 hes'], ?_⟩
    simp only [hes, Except.bind, Except.map, Except.ok.injEq] at h
    exact h ▸ hp.symm

end World

/-! ## Strategies -/

theorem mem_byRank {ds : List (Extended × String × Declaration)} {x : String × Declaration} :
    x ∈ byRank ds ↔ x ∈ ds.map (·.2) := ((List.mergeSort_perm ds _).map _).mem_iff

theorem World.actions_cons {w : World} {strategies : StrategyRegistry} {owner : ClassId}
    {name : String} (ruleType : String) (d : Declaration) (rest : List (String × Declaration)) :
    (w.actions strategies owner name ((ruleType, d) :: rest)).1 =
      (if ruleType = nestedType then [.nested d.each]
        else ((strategies.get? ruleType).map (.predicate ruleType d)).toList) ++
        (w.actions strategies owner name rest).1 := by
  rw [actions]
  cases w.actions strategies owner name rest with
  | mk kept records =>
    by_cases hn : ruleType = nestedType
    · simp [hn]
    · cases strategies.get? ruleType <;> simp [hn]

/-- The executor with other actions. -/
def Executor.mapActions (f : List Action → List Action) (e : Executor) : Executor :=
  { e with actions := f e.actions }

/-- The plan with other actions. -/
def Plan.mapActions (f : List Action → List Action) (p : Plan) : Plan :=
  { p with executors := p.executors.map (·.mapActions f) }

@[simp] theorem Plan.mapActions_id : Plan.mapActions id = id := by
  funext p
  exact congrArg (Plan.mk p.owner) (List.map_id p.executors)

namespace World

variable {w : World} {owner : ClassId}

theorem map_ranks {name : String} {ds : List (String × Declaration)}
    {ranked : List (Extended × String × Declaration)}
    (h : (w.ranks owner name ds).2 = .ok ranked) : ranked.map (·.2) = ds := by
  induction ds generalizing ranked with
  | nil => cases h; rfl
  | cons x rest ih =>
    obtain ⟨ruleType, d⟩ := x
    rw [ranks] at h
    split at h
    · cases h
    · cases hrest : (w.ranks owner name rest).2 with
      | error fault => simp [hrest, Except.map] at h
      | ok others =>
        simp only [hrest, Except.map, Except.ok.injEq] at h
        rw [← h, List.map_cons, ih hrest]

section
variable {strategies strategies' : StrategyRegistry} {f : List Action → List Action}
  (hf : ∀ name ds, (∀ x ∈ ds, x.1 ≠ optionalType) →
    f (w.actions strategies owner name ds).1 = f (w.actions strategies' owner name ds).1)
include hf

theorem compileProperty_mapActions (key : Value) (ds : List Declaration) :
    (w.compileProperty strategies owner key ds).2.map (·.mapActions f) =
      (w.compileProperty strategies' owner key ds).2.map (·.mapActions f) := by
  unfold compileProperty
  dsimp only
  generalize w.typed owner (w.displayKey key) ds = typed
  cases hr : w.ranks owner (w.displayKey key)
    (typed.1.filter fun x => x.1 ≠ optionalType) with
  | mk ranking outcome =>
    cases outcome with
    | error fault => rfl
    | ok ranked =>
      -- ranking only moves what was left after the optional rules were taken out
      have hactive : ∀ x ∈ byRank ranked, x.1 ≠ optionalType := by
        intro x hx
        rw [mem_byRank, map_ranks (congrArg Prod.snd hr)] at hx
        simpa using (List.mem_filter.1 hx).2
      simp only [Except.map, Executor.mapActions, hf _ _ hactive]

theorem compileProperties_mapActions (groups : List (Value × List Declaration)) :
    (w.compileProperties strategies owner groups).2.map (List.map (·.mapActions f)) =
      (w.compileProperties strategies' owner groups).2.map (List.map (·.mapActions f)) := by
  induction groups with
  | nil => rfl
  | cons g rest ih =>
    have hmap (x : Except Fault Executor) (y : Except Fault (List Executor)) :
        (x.bind fun e => y.map (e :: ·)).map (List.map (·.mapActions f)) =
          (x.map (·.mapActions f)).bind fun e =>
            (y.map (List.map (·.mapActions f))).map (e :: ·) := by
      cases x <;> cases y <;> rfl
    rw [compileProperties_cons, compileProperties_cons, hmap, hmap, ih,
      compileProperty_mapActions hf]

/-- With other strategies the same plans are made, as far as their actions look the same. -/
theorem compile_mapActions (ds : List Declaration) :
    (w.compile strategies owner ds).2.map (·.mapActions f) =
      (w.compile strategies' owner ds).2.map (·.mapActions f) := by
  rw [compile_snd, compile_snd]
  cases (w.group owner ds []).2 with
  | error fault => rfl
  | ok groups =>
    have hmap (x : Except Fault (List Executor)) :
        (x.map fun es => Plan.mk owner es).map (·.mapActions f) =
          (x.map (List.map (·.mapActions f))).map (Plan.mk owner) := by
      cases x <;> rfl
    change (Except.map _ _).map _ = (Except.map _ _).map _
    rw [hmap, hmap, compileProperties_mapActions hf]

end

end World

end Rulebook
