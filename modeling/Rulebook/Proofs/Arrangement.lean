import Mathlib.Algebra.Order.Ring.Rat
import Rulebook.Proofs.Compilability

/-!
# What a plan consists of

A plan has one executor for every key that declarations of its class have, in the order in which
the keys come up (`World.keys_group`), and each executor is told from the declarations with its key
alone (`World.Serves`). Its actions are those that the declarations ask for (`World.action?`), the
more urgent first and equally urgent ones in order of registration (`World.Arranged`): there is
exactly one such order (`World.Arranged.unique`), and the sort comes to it
(`World.arranged_mergeSort`).

The location is looked for in that order before unknown rule types are dropped, so a declaration may
say where a property was declared without adding an action to it.
-/

set_option autoImplicit false

namespace Rulebook

/-! ## The order of numbers -/

namespace Extended

theorem le_total (a b : Extended) : (a.le b || b.le a) = true := by
  cases a <;> cases b <;> simp [le, Std.le_total]

theorem le_trans (a b c : Extended) (hab : a.le b = true) (hbc : b.le c = true) :
    a.le c = true := by
  cases a <;> cases b <;> cases c <;> simp_all [le]
  exact Std.le_trans hab hbc

theorem le_antisymm {a b : Extended} (hab : a.le b = true) (hba : b.le a = true) : a = b := by
  cases a <;> cases b <;> simp_all [le]
  exact Std.le_antisymm hab hba

end Extended

/-- Sorting leaves the elements of one rank in their order. -/
theorem filter_mergeSort {α : Type} (rank : α → Extended) (as : List α) (place : Extended) :
    (as.mergeSort fun a b => (rank b).le (rank a)).filter (fun a => rank a = place) =
      as.filter fun a => rank a = place := by
  have htrans (a b c : α) (hab : (rank b).le (rank a) = true) (hbc : (rank c).le (rank b) = true) :
      (rank c).le (rank a) = true := Extended.le_trans _ _ _ hbc hab
  have htotal (a b : α) : ((rank b).le (rank a) || (rank a).le (rank b)) = true :=
    Extended.le_total _ _
  have hties : (as.filter fun a => rank a = place).Pairwise fun a b =>
      (rank b).le (rank a) = true := by
    refine List.pairwise_of_forall_mem_list fun a ha b hb => ?_
    have ha : rank a = place := by simpa using (List.mem_filter.1 ha).2
    have hb : rank b = place := by simpa using (List.mem_filter.1 hb).2
    simpa [ha, hb] using Extended.le_total place place
  -- the ties are a sublist of the sorted list, and there are no others in it
  have hsub := (List.sublist_mergeSort htrans htotal hties List.filter_sublist).filter
    fun a => rank a = place
  rw [List.filter_filter] at hsub
  simp only [Bool.and_self] at hsub
  exact (hsub.eq_of_length ((List.mergeSort_perm as _).filter _).length_eq.symm).symm

namespace World

/-! ## What declarations ask for -/

/-- The declaration lets its property be absent. -/
def isOptional (w : World) (d : Declaration) : Bool := w.heap.text? d.ruleType = some optionalType

/-- The declaration has a rule type and does not merely let its property be absent. -/
def isActive (w : World) (d : Declaration) : Bool :=
  (w.heap.text? d.ruleType).any fun ruleType => ruleType ≠ optionalType

/-- The place of the priority in the exact order of numbers: that of zero, unless it is a number. -/
def urgency (w : World) (d : Declaration) : Extended :=
  ((w.heap.real? d.priority).bind Real.extended?).getD (.rat 0)

/-- The action that a declaration asks for; none when its rule type is no text or unknown. -/
def action? (w : World) (strategies : StrategyRegistry) (d : Declaration) : Option Action :=
  (w.heap.text? d.ruleType).bind fun ruleType =>
    if ruleType = nestedType then some (.nested d.each)
    else (strategies.get? ruleType).map (.predicate ruleType d)

/-- The active declarations, the more urgent first and equally urgent ones as they came. -/
structure Arranged (w : World) (ds active : List Declaration) : Prop where
  perm : active.Perm (ds.filter w.isActive)
  descending : active.Pairwise fun a b => (w.urgency b).le (w.urgency a) = true
  stable : ∀ place, active.filter (fun d => w.urgency d = place) =
    (ds.filter w.isActive).filter fun d => w.urgency d = place

variable {w : World} {strategies : StrategyRegistry} {owner : ClassId} {name : String}

theorem mem_iff_of_ties {as bs : List Declaration} (h : ∀ place,
    as.filter (fun d => w.urgency d = place) = bs.filter fun d => w.urgency d = place)
    (d : Declaration) : d ∈ as ↔ d ∈ bs := by
  have hd := congrArg (d ∈ ·) (h (w.urgency d))
  simpa [List.mem_filter] using hd

/-- Two lists in descending order are one if they have the same ties. -/
theorem eq_of_ties {as bs : List Declaration}
    (has : as.Pairwise fun a b => (w.urgency b).le (w.urgency a) = true)
    (hbs : bs.Pairwise fun a b => (w.urgency b).le (w.urgency a) = true)
    (hties : ∀ place, as.filter (fun d => w.urgency d = place) =
      bs.filter fun d => w.urgency d = place) : as = bs := by
  induction as generalizing bs with
  | nil =>
    refine (List.eq_nil_iff_forall_not_mem.2 fun d hd => ?_).symm
    exact List.not_mem_nil ((mem_iff_of_ties hties d).2 hd)
  | cons a as' ih =>
    cases bs with
    | nil => exact absurd ((mem_iff_of_ties hties a).1 (.head _)) List.not_mem_nil
    | cons b bs' =>
      obtain ⟨ha, has'⟩ := List.pairwise_cons.1 has
      obtain ⟨hb, hbs'⟩ := List.pairwise_cons.1 hbs
      -- each head stands in the other list, so neither is the more urgent one
      have hplace : w.urgency a = w.urgency b := by
        rcases List.mem_cons.1 ((mem_iff_of_ties hties a).1 (.head _)) with rfl | hab
        · rfl
        rcases List.mem_cons.1 ((mem_iff_of_ties hties b).2 (.head _)) with rfl | hba
        · rfl
        exact Extended.le_antisymm (hb a hab) (ha b hba)
      have hhead := hties (w.urgency a)
      rw [List.filter_cons_of_pos (by simp), List.filter_cons_of_pos (by simp [hplace])] at hhead
      obtain ⟨rfl, -⟩ := List.cons.inj hhead
      rw [ih has' hbs' fun place => ?_]
      have h := hties place
      by_cases hp : w.urgency a = place
      · rw [List.filter_cons_of_pos (by simpa using hp),
          List.filter_cons_of_pos (by simpa using hp)] at h
        exact (List.cons.inj h).2
      · rwa [List.filter_cons_of_neg (by simpa using hp),
          List.filter_cons_of_neg (by simpa using hp)] at h

/-- There is only one such order. -/
theorem Arranged.unique {ds as bs : List Declaration} (ha : w.Arranged ds as)
    (hb : w.Arranged ds bs) : as = bs :=
  eq_of_ties ha.descending hb.descending fun place => (ha.stable place).trans (hb.stable place).symm

/-- Only the places that declarations have need be looked at. -/
theorem arranged_iff {ds active : List Declaration} : w.Arranged ds active ↔
    active.Perm (ds.filter w.isActive) ∧
    active.Pairwise (fun a b => (w.urgency b).le (w.urgency a) = true) ∧
    ∀ d ∈ ds.filter w.isActive, active.filter (fun a => w.urgency a = w.urgency d) =
      (ds.filter w.isActive).filter fun a => w.urgency a = w.urgency d := by
  refine ⟨fun h => ⟨h.perm, h.descending, fun d _ => h.stable _⟩, fun ⟨hperm, hdesc, hties⟩ =>
    ⟨hperm, hdesc, fun place => ?_⟩⟩
  by_cases hplace : ∃ d ∈ ds.filter w.isActive, w.urgency d = place
  · obtain ⟨d, hd, rfl⟩ := hplace
    exact hties d hd
  · have hnone (d : Declaration) (hd : d ∈ ds.filter w.isActive) : ¬w.urgency d = place :=
      fun h => hplace ⟨d, hd, h⟩
    rw [List.filter_eq_nil_iff.2 fun d hd => by simpa using hnone d (hperm.mem_iff.1 hd),
      List.filter_eq_nil_iff.2 fun d hd => by simpa using hnone d hd]

instance (ds active : List Declaration) : Decidable (w.Arranged ds active) :=
  decidable_of_iff _ arranged_iff.symm

/-! ## From priorities to the order -/

theorem rank_eq_ok {ruleType : String} {d : Declaration} {place : Extended}
    (h : (w.rank owner name ruleType d).2 = .ok place) : place = w.urgency d := by
  unfold rank at h
  unfold urgency
  cases hr : w.heap.real? d.priority with
  | none =>
    rw [hr] at h
    exact (Except.ok.inj h).symm
  | some r =>
    rw [hr] at h
    dsimp only at h
    rw [Option.bind_some]
    cases hd : r.toDouble? with
    | none => cases r <;> simp [hd] at h
    | some x =>
      cases he : r.extended? with
      | none => simpa [hd, he, eq_comm] using h
      | some q => simpa [hd, he, eq_comm] using h

theorem ranks_eq_ok {ds : List (String × Declaration)}
    {ranked : List (Extended × String × Declaration)}
    (h : (w.ranks owner name ds).2 = .ok ranked) :
    ranked = ds.map fun x => (w.urgency x.2, x) := by
  induction ds generalizing ranked with
  | nil => cases h; rfl
  | cons x rest ih =>
    obtain ⟨ruleType, d⟩ := x
    rw [ranks] at h
    split at h
    · cases h
    · rename_i records place hplace
      cases hrest : (w.ranks owner name rest).2 with
      | error fault => simp [hrest, Except.map] at h
      | ok others =>
        simp only [hrest, Except.map, Except.ok.injEq] at h
        rw [← h, List.map_cons, ih hrest, rank_eq_ok (congrArg Prod.snd hplace)]

theorem typed_active (ds : List Declaration) :
    ((w.typed owner name ds).1.filter fun x => x.1 ≠ optionalType).map (·.2) =
      ds.filter w.isActive := by
  rw [typed_eq]
  induction ds with
  | nil => rfl
  | cons d rest ih =>
    rw [List.filterMap_cons, List.filter_cons, ← ih, isActive]
    cases w.heap.text? d.ruleType with
    | none => rfl
    | some ruleType => by_cases ht : ruleType = optionalType <;> simp [ht]

theorem typed_optional (ds : List Declaration) :
    ((w.typed owner name ds).1.any fun x => x.1 = optionalType) = ds.any w.isOptional := by
  rw [typed_eq]
  induction ds with
  | nil => rfl
  | cons d rest ih =>
    rw [List.filterMap_cons, List.any_cons, ← ih, isOptional]
    cases w.heap.text? d.ruleType <;> simp

theorem map_byRank {ds : List Declaration} {ranked : List (Extended × String × Declaration)}
    (h : (w.ranks owner name
      ((w.typed owner name ds).1.filter fun x => x.1 ≠ optionalType)).2 = .ok ranked) :
    (byRank ranked).map (·.2) =
      (ds.filter w.isActive).mergeSort fun a b => (w.urgency b).le (w.urgency a) := by
  have hranked := ranks_eq_ok h
  have hds : ranked.map (·.2.2) = ds.filter w.isActive := by
    rw [hranked, List.map_map, ← @typed_active w owner name]
    rfl
  rw [byRank, List.map_map, ← hds]
  refine List.map_mergeSort fun a ha b hb => ?_
  rw [hranked] at ha hb
  obtain ⟨x, -, rfl⟩ := List.mem_map.1 ha
  obtain ⟨y, -, rfl⟩ := List.mem_map.1 hb
  rfl

/-- The sort comes to the order. -/
theorem arranged_mergeSort (w : World) (ds : List Declaration) : w.Arranged ds
    ((ds.filter w.isActive).mergeSort fun a b => (w.urgency b).le (w.urgency a)) where
  perm := List.mergeSort_perm _ _
  descending := @List.pairwise_mergeSort _ (fun a b => (w.urgency b).le (w.urgency a))
    (fun _ _ _ hab hbc => Extended.le_trans _ _ _ hbc hab) (fun _ _ => Extended.le_total _ _) _
  stable := filter_mergeSort w.urgency _

/-! ## Actions and locations -/

/-- Ranked declarations have the rule types that they are listed with. -/
theorem text?_of_byRank {ds : List Declaration} {ranked : List (Extended × String × Declaration)}
    (h : (w.ranks owner name
      ((w.typed owner name ds).1.filter fun x => x.1 ≠ optionalType)).2 = .ok ranked)
    {x : String × Declaration} (hx : x ∈ byRank ranked) :
    w.heap.text? x.2.ruleType = some x.1 := by
  rw [mem_byRank, map_ranks h, typed_eq] at hx
  obtain ⟨d, -, hd⟩ := List.mem_filterMap.1 (List.mem_of_mem_filter hx)
  obtain ⟨ruleType, hr, rfl⟩ := Option.map_eq_some_iff.1 hd
  exact hr

theorem actions_of_typed {ds : List (String × Declaration)}
    (h : ∀ x ∈ ds, w.heap.text? x.2.ruleType = some x.1) :
    (w.actions strategies owner name ds).1 = (ds.map (·.2)).filterMap (w.action? strategies) := by
  induction ds with
  | nil => rfl
  | cons x rest ih =>
    obtain ⟨ruleType, d⟩ := x
    obtain ⟨hd, hrest⟩ := List.forall_mem_cons.1 h
    rw [actions_cons, ih hrest, List.map_cons, List.filterMap_cons, action?, hd, Option.bind_some]
    by_cases hn : ruleType = nestedType
    · simp [hn]
    · cases strategies.get? ruleType <;> simp [hn]

/-- The location of a declaration, unless it is empty. -/
def shownLocation? (d : Declaration) : Option String := d.location.filter (!·.isEmpty)

theorem firstLocation?_eq (ds : List (String × Declaration)) :
    firstLocation? ds = (ds.map (·.2)).findSome? shownLocation? := by
  rw [List.findSome?_map]
  rfl

/-! ## Groups -/

/-- The word of the key of a declaration; none when there is none. -/
def word? (w : World) (d : Declaration) : Option Key := (w.key? d.key).toOption

/-- Groups stand in the order in which their keys come up. -/
theorem keys_group {ds : List Declaration} {groups groups' : Groups} {before : List Key}
    (h : (w.group owner ds groups).2 = .ok groups') (hb : groups.keys = before.eraseDups) :
    groups'.keys = (before ++ ds.filterMap w.word?).eraseDups := by
  induction ds generalizing groups before with
  | nil =>
    cases h
    simpa using hb
  | cons d rest ih =>
    rw [group] at h
    split at h
    · cases hk : w.key? d.key with
      | error fault => rw [hk] at h; cases h
      | ok key =>
        rw [hk] at h
        have hword : w.word? d = some key := by rw [word?, hk]; rfl
        rw [ih h (Catalog.keys_alter_eraseDups hb key), List.filterMap_cons, hword,
          List.append_assoc, List.singleton_append]
    · rename_i hd
      have hword : w.word? d = none := by
        rw [word?, key?_of_not_hashable (by simpa using hd)]
        rfl
      rw [ih h hb, List.filterMap_cons, hword]

/-! ## Executors -/

/-- What the executor of the property under a key consists of, told from the declarations of a
class: it goes by the first spelling of the key and by the declarations with the key alone. -/
structure Serves (w : World) (strategies : StrategyRegistry) (ds : List Declaration) (k : Key)
    (e : Executor) : Prop where
  key : ((ds.filter (w.hasKey k)).head?).map (·.key) = some e.key
  name : e.name = w.displayKey e.key
  isOptional : e.isOptional = true ↔ ∃ d ∈ ds.filter (w.hasKey k), w.isOptional d = true
  arranged : ∃ active, w.Arranged (ds.filter (w.hasKey k)) active
  actions : ∀ active, w.Arranged (ds.filter (w.hasKey k)) active →
    e.actions = active.filterMap (w.action? strategies)
  location : ∀ active, w.Arranged (ds.filter (w.hasKey k)) active →
    e.location = active.findSome? shownLocation?

theorem serves_of_compileProperty {ds members : List Declaration} {k : Key} {key : Value}
    {e : Executor} (hmembers : members = ds.filter (w.hasKey k))
    (hkey : members.head?.map (·.key) = some key)
    (h : (w.compileProperty strategies owner key members).2 = .ok e) :
    w.Serves strategies ds k e := by
  subst hmembers
  rw [compileProperty_snd] at h
  dsimp only at h
  cases hr : (w.ranks owner (w.displayKey key) (List.filter (fun x => x.1 ≠ optionalType)
      (w.typed owner (w.displayKey key) (ds.filter (w.hasKey k))).1)).2 with
  | error fault => rw [hr] at h; cases h
  | ok ranked =>
    rw [hr] at h
    cases h
    have harranged := arranged_mergeSort w (ds.filter (w.hasKey k))
    rw [← map_byRank hr] at harranged
    refine ⟨hkey, rfl, ?_, ⟨_, harranged⟩, fun active ha => ?_, fun active ha => ?_⟩
    · rw [typed_optional, List.any_eq_true]
    · rw [← harranged.unique ha]
      exact actions_of_typed fun x hx => text?_of_byRank hr hx
    · rw [← harranged.unique ha]
      exact firstLocation?_eq _

/-- Compiling is exact: the plan has one executor for every key that a declaration has, in the order
in which the keys come up, and each consists of what the declarations with its key come to. -/
theorem compile_exact {ds : List Declaration} {plan : Plan}
    (h : (w.compile strategies owner ds).2 = .ok plan) : plan.owner = owner ∧
      (∀ d ∈ ds, w.isHashable d.key = true ↔ ∃ k, w.key? d.key = .ok k) ∧
      List.Forall₂ (w.Serves strategies ds) (ds.filterMap w.word?).eraseDups plan.executors := by
  rw [compile_snd] at h
  cases hgroups : (w.group owner ds []).2 with
  | error fault => rw [hgroups] at h; cases h
  | ok groups =>
    simp only [hgroups, Except.bind] at h
    cases hes : (w.compileProperties strategies owner (groups.map (·.2))).2 with
    | error fault => rw [hes] at h; cases h
    | ok es =>
      rw [hes] at h
      cases h
      refine ⟨rfl, fun d hd => ⟨key?_of_group hgroups hd, fun ⟨k, hk⟩ => isHashable_of_key? hk⟩, ?_⟩
      have hkeys : groups.keys = ([] ++ ds.filterMap w.word?).eraseDups := keys_group hgroups rfl
      rw [List.nil_append] at hkeys
      rw [← hkeys, Catalog.keys, List.forall₂_map_left_iff]
      have hall := compileProperties_eq_ok.1 hes
      rw [List.forall₂_map_left_iff, List.forall₂_iff_zip] at hall
      refine List.forall₂_iff_zip.2 ⟨hall.1, fun {g e} hge => ?_⟩
      obtain ⟨hmembers, hkey⟩ := members_group hgroups (List.of_mem_zip hge).1
      exact serves_of_compileProperty hmembers hkey (hall.2 hge)

end World

namespace Tangled

/-! Declarations of one class whose keys, priorities and rule types get in each other's way. -/

def world : World where
  classes := #[]
  calls _ _ := none
  modules := []
  heap := #[⟨.builtin .list, .list #[.text "code"], [], []⟩]

/-- A declaration with a priority and a location. -/
def ask (key : Value) (ruleType : String) (priority : Value) (location : Option String) :
    Declaration :=
  ⟨.builtin .object, key, .text ruleType, [], none, some ⟨none, false, some priority⟩, location⟩

/-- The key is the number one in three spellings; the most urgent rule type is unknown. -/
def half : Declaration := ask (.int 1) "IsString" (.fraction (1 / 2)) none

def shiny : Declaration := ask (.bool true) "Shiny" (.int 4) (some "shiny")

def deep : Declaration :=
  ask (.float (.finite false 1 0)) "ValidateNested" (.float (.finite false 3 (-1))) (some "deep")

/-- The key is a text; neither priority is a number. -/
def high : Declaration := ask (.text "name") "IsNumber" (.text "high") (some "")

def blank : Declaration := ask (.text "name") "IsString" (.float (.nan 0)) (some "blank")

/-- Between them, a key that can be none and a declaration that lets the text be absent. -/
def declarations : List Declaration :=
  [ask (.object 0) "IsString" (.int 9) (some "code"), half,
    ask (.text "name") "IsOptional" (.int 7) (some "optional"), shiny, high, deep, blank]

def strategies : StrategyRegistry := .initial "strategies" true

/-- What can be seen of an executor: its actions by rule type, if they have one. -/
structure View where
  key : Value
  isOptional : Bool
  location : Option String
  actions : List (Option String)
deriving DecidableEq

def View.ruleType? : Action → Option String
  | .predicate ruleType .. => some ruleType
  | .nested _ => none

def View.of (e : Executor) : View :=
  ⟨e.key, e.isOptional, e.location, e.actions.map View.ruleType?⟩

/-- The view of an executor that serves a key, told from the order of the active declarations. -/
theorem view_of_serves {k : Key} {e : Executor} (h : world.Serves strategies declarations k e)
    (d : Declaration) (active : List Declaration)
    (hd : (declarations.filter (world.hasKey k)).head? = some d)
    (hactive : world.Arranged (declarations.filter (world.hasKey k)) active) :
    View.of e = ⟨d.key, (declarations.filter (world.hasKey k)).any world.isOptional,
      active.findSome? World.shownLocation?,
      (active.filterMap (world.action? strategies)).map View.ruleType?⟩ := by
  have hkey := h.key
  rw [hd] at hkey
  have hoptional := h.isOptional
  rw [← List.any_eq_true, Bool.eq_iff_iff.symm] at hoptional
  rw [View.of, ← Option.some.inj hkey, hoptional, h.location active hactive,
    h.actions active hactive]

end Tangled

theorem World.compile_exact_tangled : ∃ plan,
    (Tangled.world.compile Tangled.strategies (.builtin .object) Tangled.declarations).2 =
      .ok plan ∧
    plan.executors.map Tangled.View.of =
      [⟨.int 1, false, some "shiny", [none, some "IsString"]⟩,
        ⟨.text "name", true, some "blank", [some "IsNumber", some "IsString"]⟩] := by
  obtain ⟨plan, hplan⟩ := (@compile_ok_iff Tangled.world Tangled.strategies (.builtin .object)
    Tangled.declarations).2 (by decide +kernel)
  obtain ⟨-, -, hserves⟩ := compile_exact hplan
  rw [show (Tangled.declarations.filterMap Tangled.world.word?).eraseDups =
    [[.rat 1], [.text "name"]] by decide +kernel] at hserves
  obtain ⟨number, others, hnumber, hothers, hes⟩ := List.forall₂_cons_left_iff.1 hserves
  obtain ⟨text, rest, htext, hrest, rfl⟩ := List.forall₂_cons_left_iff.1 hothers
  obtain rfl := List.forall₂_nil_left_iff.1 hrest
  refine ⟨plan, hplan, ?_⟩
  rw [hes, List.map_cons, List.map_cons, List.map_nil,
    Tangled.view_of_serves hnumber Tangled.half [Tangled.shiny, Tangled.deep, Tangled.half]
      (by decide +kernel) (by decide +kernel),
    Tangled.view_of_serves htext
      (Tangled.ask (.text "name") "IsOptional" (.int 7) (some "optional"))
      [Tangled.high, Tangled.blank] (by decide +kernel) (by decide +kernel)]
  decide +kernel

end Rulebook
