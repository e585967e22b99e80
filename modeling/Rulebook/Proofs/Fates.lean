import Rulebook.Proofs.Arrangement

/-!
# What becomes of a declaration

Every declaration of a class has one of three fates (`World.fate`): it is dropped and a note says
so, it lets its property be absent, or it becomes an action. The functions on the way to a plan deal
with declarations by whole lists, and each keeps its notes by itself. For one property they come
together to the fates of its declarations (`World.compileProperty_accounts`); sorting only decides
where things stand, so that is up to order.
-/

set_option autoImplicit false

namespace Rulebook

/-! ## Fates -/

/-- What becomes of a declaration. -/
inductive Fate where
  /-- It is dropped, and this is noted down. -/
  | dropped (note : Record)
  /-- It lets its property be absent. -/
  | optional
  | acts (a : Action)

namespace Fate

/-- The note about a declaration that is dropped. -/
def note? : Fate → Option Record
  | dropped note => some note
  | _ => none

/-- The declaration lets its property be absent. -/
def isOptional : Fate → Bool
  | optional => true
  | _ => false

/-- The action that a declaration becomes. -/
def action? : Fate → Option Action
  | acts a => some a
  | _ => none

/-- No declaration has two fates, and none has no fate. -/
theorem exactly_one (f : Fate) :
    f.action?.toList.length + f.isOptional.toNat + f.note?.toList.length = 1 := by
  cases f <;> rfl

end Fate

namespace World

/-- The name of the property of a declaration: its key as the first of the declarations spells it.
-/
def propertyName (w : World) (ds : List Declaration) (d : Declaration) : String :=
  w.displayKey ((ds.find? fun x => w.key? x.key = w.key? d.key).getD d).key

/-- What becomes of a declaration about the property of this name. -/
def fate (w : World) (strategies : StrategyRegistry) (owner : ClassId) (name : String)
    (d : Declaration) : Fate :=
  if w.keyable d then
    match w.heap.text? d.ruleType with
    | none => .dropped (.malformedType (w.preciseText d.ruleType) (w.className owner) name)
    | some ruleType =>
      if ruleType = optionalType then .optional
      else match w.action? strategies d with
        | some a => .acts a
        | none => .dropped (.unknownType ruleType (w.className owner) name)
  else .dropped (.malformedKey (w.preciseText d.key) (w.className owner))

/-- The value has no place in the order of numbers: it is a truth value, of a kind that is no real
number, or the double that is not a number. -/
def isUnordered (w : World) (v : Value) : Bool :=
  match w.heap.plain v with
  | .int _ | .fraction _ => false
  | .float (.nan _) => true
  | .float _ => false
  | _ => true

/-- The note about a declaration whose priority is counted as zero. -/
def zeroNote? (w : World) (owner : ClassId) (name : String) (d : Declaration) : Option Record :=
  match w.heap.text? d.ruleType with
  | none => none
  | some ruleType =>
    if w.keyable d && ruleType ≠ optionalType && w.isUnordered d.priority then
      some (.malformedPriority (w.preciseText d.priority) ruleType (w.className owner) name)
    else none

variable {w : World} {strategies : StrategyRegistry} {owner : ClassId} {name : String}

/-! ## What is noted down on the way -/

/-- The note about a declaration whose rule type is no text. -/
def typeNote? (w : World) (owner : ClassId) (name : String) (d : Declaration) : Option Record :=
  match w.heap.text? d.ruleType with
  | none => some (.malformedType (w.preciseText d.ruleType) (w.className owner) name)
  | some _ => none

/-- The note about a declaration of an unknown rule type. -/
def unknownNote? (w : World) (strategies : StrategyRegistry) (owner : ClassId) (name : String)
    (d : Declaration) : Option Record :=
  (w.heap.text? d.ruleType).bind fun ruleType =>
    match w.action? strategies d with
    | some _ => none
    | none => some (.unknownType ruleType (w.className owner) name)

theorem group_fst {ds : List Declaration} {groups groups' : Groups}
    (h : (w.group owner ds groups).2 = .ok groups') : (w.group owner ds groups).1 =
      (ds.filter fun d => !w.keyable d).map fun d =>
        .malformedKey (w.preciseText d.key) (w.className owner) := by
  induction ds generalizing groups with
  | nil => rfl
  | cons d rest ih =>
    rw [group] at h ⊢
    cases hd : w.isHashable d.key with
    | true =>
      rw [hd, if_pos rfl] at h
      rw [if_pos rfl, List.filter_cons_of_neg (by simp [keyable, hd])]
      cases hk : w.key? d.key with
      | error fault => rw [hk] at h; cases h
      | ok key =>
        rw [hk] at h
        exact ih h
    | false =>
      rw [hd, if_neg Bool.false_ne_true] at h
      rw [if_neg Bool.false_ne_true, List.filter_cons_of_pos (by simp [keyable, hd]), List.map_cons]
      exact congrArg _ (ih h)

theorem typed_snd (ds : List Declaration) :
    (w.typed owner name ds).2 = ds.filterMap (w.typeNote? owner name) := by
  induction ds with
  | nil => rfl
  | cons d rest ih =>
    rw [typed, List.filterMap_cons, typeNote?, ← ih]
    cases w.heap.text? d.ruleType <;> rfl

/-- A priority that has no place in the order is counted as zero and noted down. -/
theorem rank_fst {ruleType : String} {d : Declaration} {place : Extended}
    (h : (w.rank owner name ruleType d).2 = .ok place) : (w.rank owner name ruleType d).1 =
      if w.isUnordered d.priority then
        [.malformedPriority (w.preciseText d.priority) ruleType (w.className owner) name]
      else [] := by
  unfold rank isUnordered Heap.real? at *
  cases hp : w.heap.plain d.priority with
  | int n =>
    simp only [hp] at h ⊢
    cases hd : (Real.whole n).toDouble? with
    | none => simp [hd] at h
    | some x => simp [Real.extended?]
  | fraction q =>
    simp only [hp] at h ⊢
    cases hd : (Real.fraction q).toDouble? with
    | none => simp [hd] at h
    | some x => simp [Real.extended?]
  | float x => cases x <;> rfl
  | _ => rfl

theorem ranks_fst {xs : List (String × Declaration)}
    {ranked : List (Extended × String × Declaration)}
    (h : (w.ranks owner name xs).2 = .ok ranked) : (w.ranks owner name xs).1 =
      (xs.filter fun x => w.isUnordered x.2.priority).map fun x =>
        .malformedPriority (w.preciseText x.2.priority) x.1 (w.className owner) name := by
  induction xs generalizing ranked with
  | nil => rfl
  | cons x rest ih =>
    obtain ⟨ruleType, d⟩ := x
    rw [ranks] at h ⊢
    split at h
    · cases h
    · rename_i records place hplace
      obtain ⟨others, hothers, -⟩ := Except.map_eq_ok.1 h
      have hrecords := rank_fst (congrArg Prod.snd hplace)
      rw [hplace] at hrecords
      obtain rfl : records = _ := hrecords
      change _ ++ (w.ranks owner name rest).1 = _
      rw [ih hothers, List.filter_cons]
      split <;> rfl

theorem actions_snd {xs : List (String × Declaration)}
    (h : ∀ x ∈ xs, w.heap.text? x.2.ruleType = some x.1) :
    (w.actions strategies owner name xs).2 =
      (xs.map (·.2)).filterMap (w.unknownNote? strategies owner name) := by
  induction xs with
  | nil => rfl
  | cons x rest ih =>
    obtain ⟨ruleType, d⟩ := x
    obtain ⟨hd, hrest⟩ := List.forall_mem_cons.1 h
    rw [actions, List.map_cons, List.filterMap_cons, unknownNote?, action?, hd, ← ih hrest]
    by_cases hn : ruleType = nestedType
    · simp [hn]
    · simp only [hn, if_false, Option.bind_some]
      cases strategies.get? ruleType <;> rfl

/-! ## One property -/

section
variable {d : Declaration} (hd : w.keyable d = true)
include hd

theorem note?_fate : (w.fate strategies owner name d).note?.toList =
    (w.typeNote? owner name d).toList ++
    (if w.isActive d then w.unknownNote? strategies owner name d else none).toList := by
  unfold fate typeNote? isActive unknownNote?
  rw [if_pos hd]
  cases w.heap.text? d.ruleType with
  | none => rfl
  | some ruleType =>
    by_cases ht : ruleType = optionalType
    · simp [ht, Fate.note?]
    · cases w.action? strategies d <;> simp [ht, Fate.note?]

theorem action?_fate : (w.fate strategies owner name d).action? =
    if w.isActive d then w.action? strategies d else none := by
  unfold fate isActive
  rw [if_pos hd]
  cases ht : w.heap.text? d.ruleType with
  | none => rfl
  | some ruleType =>
    by_cases ho : ruleType = optionalType
    · simp [ho, Fate.action?]
    · cases w.action? strategies d <;> simp [ho, Fate.action?]

theorem isOptional_fate : (w.fate strategies owner name d).isOptional = w.isOptional d := by
  unfold fate isOptional
  rw [if_pos hd]
  cases w.heap.text? d.ruleType with
  | none => rfl
  | some ruleType =>
    by_cases ho : ruleType = optionalType
    · simp [ho, Fate.isOptional]
    · cases w.action? strategies d <;> simp [ho, Fate.isOptional]

end

theorem compileProperty_fst {key : Value} {ds : List Declaration}
    {ranked : List (Extended × String × Declaration)}
    (h : (w.ranks owner (w.displayKey key) (List.filter (fun x => x.1 ≠ optionalType)
      (w.typed owner (w.displayKey key) ds).1)).2 = .ok ranked) :
    (w.compileProperty strategies owner key ds).1 =
      ds.filterMap (w.typeNote? owner (w.displayKey key)) ++
      (w.ranks owner (w.displayKey key) (List.filter (fun x => x.1 ≠ optionalType)
        (w.typed owner (w.displayKey key) ds).1)).1 ++
      ((byRank ranked).map (·.2)).filterMap
        (w.unknownNote? strategies owner (w.displayKey key)) := by
  have htypes := fun x hx => @text?_of_byRank w owner (w.displayKey key) ds ranked h x hx
  rw [← typed_snd, ← actions_snd htypes]
  unfold compileProperty
  dsimp only
  generalize w.ranks owner (w.displayKey key) (List.filter (fun x => x.1 ≠ optionalType)
    (w.typed owner (w.displayKey key) ds).1) = r at h ⊢
  obtain ⟨ranking, outcome⟩ := r
  cases h
  rfl

/-- Ranking notes down the priorities that are counted as zero. -/
theorem ranks_typed_fst {ds : List Declaration} {ranked : List (Extended × String × Declaration)}
    (hds : ∀ d ∈ ds, w.keyable d = true)
    (h : (w.ranks owner name
      ((w.typed owner name ds).1.filter fun x => x.1 ≠ optionalType)).2 = .ok ranked) :
    (w.ranks owner name ((w.typed owner name ds).1.filter fun x => x.1 ≠ optionalType)).1 =
      ds.filterMap (w.zeroNote? owner name) := by
  rw [ranks_fst h, typed_eq, List.filter_filter]
  clear h
  induction ds with
  | nil => rfl
  | cons d rest ih =>
    obtain ⟨hd, hrest⟩ := List.forall_mem_cons.1 hds
    rw [List.filterMap_cons, List.filterMap_cons, zeroNote?]
    have ih := ih hrest
    cases w.heap.text? d.ruleType with
    | none => exact ih
    | some ruleType =>
      simp only [Option.map_some, List.filter_cons, hd, Bool.true_and]
      rw [Bool.and_comm]
      split <;> simp_all

/-- The executor of a property, and the notes about it, account for declarations that have its key.
-/
theorem compileProperty_accounts {key : Value} {ds : List Declaration} {e : Executor}
    (hds : ∀ d ∈ ds, w.keyable d = true)
    (h : (w.compileProperty strategies owner key ds).2 = .ok e) :
    let fate := w.fate strategies owner (w.displayKey key)
    e.actions.Perm (ds.filterMap fun d => (fate d).action?) ∧
    (e.isOptional = true ↔ ∃ d ∈ ds, (fate d).isOptional = true) ∧
    (w.compileProperty strategies owner key ds).1.Perm
      (ds.filterMap (fun d => (fate d).note?) ++
        ds.filterMap (w.zeroNote? owner (w.displayKey key))) := by
  intro fate
  rw [compileProperty_snd] at h
  obtain ⟨ranked, hranked, rfl⟩ := Except.map_eq_ok.1 h
  -- sorting moves the active declarations about, and nothing else
  have hactive : ((byRank ranked).map (·.2)).Perm (ds.filter w.isActive) := by
    rw [map_byRank hranked]
    exact List.mergeSort_perm _ _
  have htypes := fun x hx => @text?_of_byRank w owner (w.displayKey key) ds ranked hranked x hx
  refine ⟨?_, ?_, ?_⟩
  · have hactions : ds.filterMap (fun d => (fate d).action?) =
        (ds.filter w.isActive).filterMap (w.action? strategies) := by
      rw [List.filterMap_filter]
      exact List.filterMap_congr fun d hd => action?_fate (hds d hd)
    dsimp only
    rw [actions_of_typed htypes, hactions]
    exact hactive.filterMap _
  · dsimp only
    rw [typed_optional, List.any_eq_true]
    exact exists_congr fun d => and_congr_right fun hd => by rw [isOptional_fate (hds d hd)]
  · have hnotes : (ds.filterMap fun d => (fate d).note?).Perm
        (ds.filterMap (w.typeNote? owner (w.displayKey key)) ++
          (ds.filter w.isActive).filterMap
            (w.unknownNote? strategies owner (w.displayKey key))) := by
      rw [List.filterMap_filter]
      simp only [List.filterMap_eq_flatMap_toList]
      rw [List.flatMap_congr fun d hd => note?_fate (hds d hd)]
      exact (List.flatMap_append_perm ds _ _).symm
    rw [compileProperty_fst hranked, ranks_typed_fst hds hranked]
    have hunknown := (hactive.filterMap
      (w.unknownNote? strategies owner (w.displayKey key))).append_left
        (ds.filterMap (w.typeNote? owner (w.displayKey key)))
    rw [List.append_assoc]
    refine (List.perm_append_comm.append_left _).trans ?_
    rw [← List.append_assoc]
    exact (hunknown.trans hnotes.symm).append_right _

end World

end Rulebook
