import Mathlib.Data.List.Forall2
import Rulebook.Proofs.Arrangement
import Rulebook.Proofs.Survey

/-!
# Two sets of declarations side by side

Declarations are peers if they differ in their constraints, messages and locations at most. Plans
are made without looking at these, so declarations that are peers one by one come to plans that
correspond executor by executor and action by action (`World.compile_peers`), or both to none for
the same reason (`Alike`). Executors that correspond put corresponding questions to an object, in
the same order (`Executor.Peer.questions`), and two loops over lists that correspond find things in
the same places (`Course.gather_alike`).

What peers have in common besides is a parameter.
-/

set_option autoImplicit false

namespace Rulebook

/-! ## Outcomes -/

/-- Two outcomes correspond: both are the same fault, or what they come to corresponds. -/
inductive Alike {ε α β : Type} (R : α → β → Prop) : Except ε α → Except ε β → Prop
  | error (e : ε) : Alike R (.error e) (.error e)
  | ok {a : α} {b : β} : R a b → Alike R (.ok a) (.ok b)

namespace Alike

variable {ε α β γ δ : Type} {R : α → β → Prop} {S : γ → δ → Prop} {x : Except ε α} {y : Except ε β}

theorem imp {T : α → β → Prop} (h : Alike R x y) (hRT : ∀ a b, R a b → T a b) : Alike T x y := by
  cases h with
  | error e => exact .error e
  | ok hab => exact .ok (hRT _ _ hab)

theorem map {f : α → γ} {g : β → δ} (h : Alike R x y)
    (hfg : ∀ a b, x = .ok a → y = .ok b → R a b → S (f a) (g b)) : Alike S (x.map f) (y.map g) := by
  cases h with
  | error e => exact .error e
  | ok hab => exact .ok (hfg _ _ rfl rfl hab)

theorem bind {f : α → Except ε γ} {g : β → Except ε δ} (h : Alike R x y)
    (hfg : ∀ a b, R a b → Alike S (f a) (g b)) : Alike S (x.bind f) (y.bind g) := by
  cases h with
  | error e => exact .error e
  | ok hab => exact hfg _ _ hab

end Alike

theorem optionRel_imp {α β : Type} {R S : α → β → Prop} {a? : Option α} {b? : Option β}
    (h : Option.Rel R a? b?) (hRS : ∀ a b, R a b → S a b) : Option.Rel S a? b? := by
  cases h with
  | none => exact .none
  | some hab => exact .some (hRS _ _ hab)

/-! ## Lists side by side -/

section
variable {α β : Type} {R : α → β → Prop} {as : List α} {bs : List β}

/-- Lists that correspond are the halves of a list of pairs. -/
theorem map_zip_of_forall₂ (h : List.Forall₂ R as bs) :
    (as.zip bs).map Prod.fst = as ∧ (as.zip bs).map Prod.snd = bs ∧
      ∀ z ∈ as.zip bs, R z.1 z.2 :=
  ⟨List.map_fst_zip h.length_eq.le, List.map_snd_zip h.length_eq.ge,
    fun _ hz => (List.forall₂_iff_zip.1 h).2 hz⟩

/-- The same pairs with their places in both lists. -/
theorem map_zipIdx_zip_of_forall₂ (h : List.Forall₂ R as bs) :
    ((as.zip bs).zipIdx.map fun z => (z.1.1, z.2)) = as.zipIdx ∧
    ((as.zip bs).zipIdx.map fun z => z.1.1) = as ∧ ((as.zip bs).zipIdx.map fun z => z.1.2) = bs ∧
      ∀ z ∈ (as.zip bs).zipIdx, as[z.2]? = some z.1.1 ∧ bs[z.2]? = some z.1.2 ∧ R z.1.1 z.1.2 := by
  obtain ⟨hfst, hsnd, hpairs⟩ := map_zip_of_forall₂ h
  have hmap {γ : Type} (f : α × β → γ) :
      ((as.zip bs).zipIdx.map fun z => f z.1) = (as.zip bs).map f := by
    rw [← List.zipIdx_map_fst 0 (as.zip bs), List.map_map, List.zipIdx_map_fst]
    rfl
  refine ⟨?_, (hmap Prod.fst).trans hfst, (hmap Prod.snd).trans hsnd, fun z hz => ?_⟩
  · rw [← hfst, List.zipIdx_map, hfst]
    rfl
  · have hz := List.mem_zipIdx_iff_getElem?.1 hz
    obtain ⟨ha, hb⟩ := List.getElem?_zip_eq_some.1 hz
    exact ⟨ha, hb, hpairs z.1 (List.mem_of_getElem? hz)⟩

end

/-! ## Peers -/

/-- The declarations mean the same to a plan. -/
structure Declaration.Peer (d d' : Declaration) : Prop where
  key : d.key = d'.key
  ruleType : d.ruleType = d'.ruleType
  priority : d.priority = d'.priority
  each : d.each = d'.each

/-- The actions ask the same strategy about declarations that correspond, or validate the same. -/
inductive Action.Peer (w : World) (strategies : StrategyRegistry)
    (R : Declaration → Declaration → Prop) : Action → Action → Prop
  | predicate {ruleType : String} {d d' : Declaration} {strategy : Strategy} :
      w.heap.text? d.ruleType = some ruleType → strategies.get? ruleType = some strategy → R d d' →
      Peer w strategies R (.predicate ruleType d strategy) (.predicate ruleType d' strategy)
  | nested (each : Bool) : Peer w strategies R (.nested each) (.nested each)

/-- The executors look after the same property with actions that correspond. -/
structure Executor.Peer (w : World) (strategies : StrategyRegistry)
    (R : Declaration → Declaration → Prop) (e e' : Executor) : Prop where
  key : e.key = e'.key
  name : e.name = e'.name
  isOptional : e.isOptional = e'.isOptional
  location : (∀ d d', R d d' → d.location = d'.location) → e.location = e'.location
  actions : List.Forall₂ (Action.Peer w strategies R) e.actions e'.actions

/-- The plans are for the same class, with executors that correspond. -/
structure Plan.Peer (w : World) (strategies : StrategyRegistry)
    (R : Declaration → Declaration → Prop) (p p' : Plan) : Prop where
  owner : p.owner = p'.owner
  executors : List.Forall₂ (Executor.Peer w strategies R) p.executors p'.executors

/-- The strategies that are always there look at nothing but constraints. -/
theorem Strategy.standing_congr {ruleType : String} {strategy : Strategy}
    (h : (ruleType, strategy) ∈ standing) {d d' : Declaration}
    (hd : ∀ i default, d.constraint i default = d'.constraint i default) (w : World) (v : Value)
    (name : String) : strategy w v d name = strategy w v d' name := by
  simp only [standing, List.mem_cons, Prod.mk.injEq, List.not_mem_nil, or_false] at h
  rcases h with ⟨-, rfl⟩ | ⟨-, rfl⟩ | ⟨-, rfl⟩ | ⟨-, rfl⟩ | ⟨-, rfl⟩ | ⟨-, rfl⟩ | ⟨-, rfl⟩ |
    ⟨-, rfl⟩ | ⟨-, rfl⟩ | ⟨-, rfl⟩ | ⟨-, rfl⟩ | ⟨-, rfl⟩ | ⟨-, rfl⟩ | ⟨-, rfl⟩
  all_goals simp only [isString, isNumber, isBoolean, isArray, isPositive, isInt, least, most,
    bounded, length, matching, isEmail, leastSize, mostSize, sized, custom, hd]

/-! ## Plans of peers -/

/-- Catalogs that correspond still do when corresponding entries are changed alike. -/
theorem Catalog.forall₂_alter {κ α β : Type} [DecidableEq κ] {R : α → β → Prop}
    {f : Option α → α} {g : Option β → β} {c : Catalog κ α} {c' : Catalog κ β}
    (h : List.Forall₂ (fun x y => x.1 = y.1 ∧ R x.2 y.2) c c') (k : κ)
    (hnone : R (f none) (g none)) (hsome : ∀ a b, R a b → R (f (some a)) (g (some b))) :
    List.Forall₂ (fun x y => x.1 = y.1 ∧ R x.2 y.2) (c.alter f k) (Catalog.alter g c' k) := by
  induction h with
  | nil => exact .cons ⟨rfl, hnone⟩ .nil
  | @cons x y rest rest' hxy _ ih =>
    obtain ⟨k₁, a⟩ := x
    obtain ⟨k₂, b⟩ := y
    obtain ⟨rfl, hab⟩ := hxy
    by_cases hk : k₁ = k
    · rw [alter, alter, if_pos hk, if_pos hk]
      exact .cons ⟨rfl, hsome a b hab⟩ ‹_›
    · rw [alter, alter, if_neg hk, if_neg hk]
      exact .cons ⟨rfl, hab⟩ ih

/-- Sorting keeps side by side what corresponds, if it compares alike. -/
theorem forall₂_mergeSort {α β : Type} {R : α → β → Prop} {le : α → α → Bool} {le' : β → β → Bool}
    {as : List α} {bs : List β} (h : List.Forall₂ R as bs)
    (hle : ∀ a b a' b', R a b → R a' b' → le a a' = le' b b') :
    List.Forall₂ R (as.mergeSort le) (bs.mergeSort le') := by
  -- both lists are halves of one list of pairs, which is sorted once
  obtain ⟨hleft, hright, hpairs⟩ := map_zip_of_forall₂ h
  let pairLe (z z' : α × β) : Bool := le z.1 z'.1
  have hfst : ((as.zip bs).mergeSort pairLe).map Prod.fst = as.mergeSort le := by
    have hmap := List.map_mergeSort (r := pairLe) (s := le) (f := Prod.fst) (l := as.zip bs)
      fun _ _ _ _ => rfl
    rw [hmap, hleft]
  have hsnd : ((as.zip bs).mergeSort pairLe).map Prod.snd = bs.mergeSort le' := by
    have hmap := List.map_mergeSort (r := pairLe) (s := le') (f := Prod.snd) (l := as.zip bs)
      fun z hz z' hz' => hle _ _ _ _ (hpairs z hz) (hpairs z' hz')
    rw [hmap, hright]
  rw [← hfst, ← hsnd, List.forall₂_map_left_iff, List.forall₂_map_right_iff, List.forall₂_same]
  exact fun z hz => hpairs z (List.mem_mergeSort.1 hz)

namespace World

/-- Groups that correspond: the same key in the same spelling, and peers one by one. -/
def PeerGroups (R : Declaration → Declaration → Prop) (g g' : Key × Value × List Declaration) :
    Prop := g.1 = g'.1 ∧ g.2.1 = g'.2.1 ∧ List.Forall₂ R g.2.2 g'.2.2

/-- Peers that are listed with the same rule type. -/
def PeerTyped (R : Declaration → Declaration → Prop) (x x' : String × Declaration) : Prop :=
  x.1 = x'.1 ∧ R x.2 x'.2

/-- Peers that are listed with the same place and the same rule type. -/
def PeerRanked (R : Declaration → Declaration → Prop) (x x' : Extended × String × Declaration) :
    Prop := x.1 = x'.1 ∧ PeerTyped R x.2 x'.2

variable {w : World} {strategies : StrategyRegistry} {owner : ClassId} {name : String}
  {R : Declaration → Declaration → Prop}

section
variable (hR : ∀ d d', R d d' → d.Peer d')
include hR

/-- Peers are grouped alike. -/
theorem group_peers {ds ds' : List Declaration} (h : List.Forall₂ R ds ds')
    {groups groups' : Groups} (hgroups : List.Forall₂ (PeerGroups R) groups groups') :
    Alike (List.Forall₂ (PeerGroups R)) (w.group owner ds groups).2
      (w.group owner ds' groups').2 := by
  induction h generalizing groups groups' with
  | nil => exact .ok hgroups
  | @cons d d' rest rest' hd _ ih =>
    have hkey : d.key = d'.key := (hR d d' hd).key
    rw [group, group, ← hkey]
    cases w.isHashable d.key with
    | false => exact ih hgroups
    | true =>
      simp only [if_true]
      cases w.key? d.key with
      | error fault => exact .error fault
      | ok key =>
        let S (g g' : Value × List Declaration) : Prop := g.1 = g'.1 ∧ List.Forall₂ R g.2 g'.2
        refine ih (Catalog.forall₂_alter (R := S) hgroups key ⟨rfl, .cons hd .nil⟩
          fun g g' hg => ?_)
        exact ⟨hg.1, List.rel_append hg.2 (.cons hd .nil)⟩

/-- Peers have the same rule types. -/
theorem typed_peers {ds ds' : List Declaration} (h : List.Forall₂ R ds ds') :
    List.Forall₂ (PeerTyped R) (w.typed owner name ds).1 (w.typed owner name ds').1 := by
  rw [typed_eq, typed_eq]
  induction h with
  | nil => exact .nil
  | @cons d d' rest rest' hd _ ih =>
    rw [List.filterMap_cons, List.filterMap_cons, ← (hR d d' hd).ruleType]
    cases w.heap.text? d.ruleType with
    | none => exact ih
    | some ruleType => exact .cons ⟨rfl, hd⟩ ih

/-- Peers have the same places in the order. -/
theorem ranks_peers {xs xs' : List (String × Declaration)} (h : List.Forall₂ (PeerTyped R) xs xs') :
    Alike (List.Forall₂ (PeerRanked R)) (w.ranks owner name xs).2 (w.ranks owner name xs').2 := by
  induction h with
  | nil => exact .ok .nil
  | @cons x x' rest rest' hx _ ih =>
    obtain ⟨ruleType, d⟩ := x
    obtain ⟨ruleType', d'⟩ := x'
    obtain ⟨rfl, hd⟩ : ruleType = ruleType' ∧ R d d' := hx
    have hrank : w.rank owner name ruleType d = w.rank owner name ruleType d' := by
      unfold rank
      rw [(hR d d' hd).priority]
    rw [ranks, ranks, ← hrank]
    split
    · exact .error _
    · exact ih.map fun others others' _ _ hothers => .cons ⟨rfl, rfl, hd⟩ hothers

end

/-- Sorting keeps peers side by side. -/
theorem byRank_peers {xs xs' : List (Extended × String × Declaration)}
    (h : List.Forall₂ (PeerRanked R) xs xs') :
    List.Forall₂ (PeerTyped R) (byRank xs) (byRank xs') := by
  have hsorted : List.Forall₂ (PeerRanked R) (xs.mergeSort fun a b => b.1.le a.1)
      (xs'.mergeSort fun a b => b.1.le a.1) :=
    forall₂_mergeSort h fun a b a' b' hab hab' => by rw [hab.1, hab'.1]
  rw [byRank, byRank, List.forall₂_map_left_iff, List.forall₂_map_right_iff]
  exact hsorted.imp fun _ _ hab => hab.2

/-- Peers become actions that correspond. -/
theorem actions_peers {xs xs' : List (String × Declaration)}
    (hR : ∀ d d', R d d' → d.Peer d') (h : List.Forall₂ (PeerTyped R) xs xs')
    (htext : ∀ x ∈ xs, w.heap.text? x.2.ruleType = some x.1) :
    List.Forall₂ (Action.Peer w strategies R) (w.actions strategies owner name xs).1
      (w.actions strategies owner name xs').1 := by
  induction h with
  | nil => exact .nil
  | @cons x x' rest rest' hx _ ih =>
    obtain ⟨ruleType, d⟩ := x
    obtain ⟨ruleType', d'⟩ := x'
    obtain ⟨rfl, hd⟩ : ruleType = ruleType' ∧ R d d' := hx
    obtain ⟨htype, hrest⟩ := List.forall_mem_cons.1 htext
    rw [actions_cons, actions_cons]
    refine List.rel_append ?_ (ih hrest)
    split
    · rw [(hR d d' hd).each]
      exact .cons (.nested _) .nil
    · cases hs : strategies.get? ruleType with
      | none => exact .nil
      | some strategy => exact .cons (.predicate htype hs hd) .nil

theorem firstLocation?_peers {xs xs' : List (String × Declaration)}
    (h : List.Forall₂ (PeerTyped R) xs xs') (hloc : ∀ d d', R d d' → d.location = d'.location) :
    firstLocation? xs = firstLocation? xs' := by
  rw [firstLocation?_eq, firstLocation?_eq]
  induction h with
  | nil => rfl
  | cons hx _ ih =>
    rw [List.map_cons, List.map_cons, List.findSome?_cons, List.findSome?_cons, ih, shownLocation?,
      shownLocation?, hloc _ _ hx.2]

theorem isOptional_peers {xs xs' : List (String × Declaration)}
    (h : List.Forall₂ (PeerTyped R) xs xs') :
    (xs.any fun x => x.1 = optionalType) = xs'.any fun x => x.1 = optionalType := by
  induction h with
  | nil => rfl
  | cons hx _ ih => rw [List.any_cons, List.any_cons, ih, hx.1]

section
variable (hR : ∀ d d', R d d' → d.Peer d')
include hR

theorem compileProperty_peers (key : Value) {ds ds' : List Declaration}
    (h : List.Forall₂ R ds ds') : Alike (Executor.Peer w strategies R)
      (w.compileProperty strategies owner key ds).2
      (w.compileProperty strategies owner key ds').2 := by
  have htyped := @typed_peers w owner (w.displayKey key) R hR ds ds' h
  have hactive : List.Forall₂ (PeerTyped R)
      ((w.typed owner (w.displayKey key) ds).1.filter fun x => x.1 ≠ optionalType)
      ((w.typed owner (w.displayKey key) ds').1.filter fun x => x.1 ≠ optionalType) := by
    refine List.rel_filter (fun x x' hx => ?_) htyped
    have htype : x.1 = x'.1 := hx.1
    simp [htype]
  rw [compileProperty_snd, compileProperty_snd]
  refine (ranks_peers hR hactive).map fun ranked ranked' hr _ hranked => ?_
  have hby := byRank_peers hranked
  exact ⟨rfl, rfl, isOptional_peers htyped, firstLocation?_peers hby,
    actions_peers hR hby fun x hx => text?_of_byRank hr hx⟩

theorem compileProperties_peers {groups groups' : List (Value × List Declaration)}
    (h : List.Forall₂ (fun g g' => g.1 = g'.1 ∧ List.Forall₂ R g.2 g'.2) groups groups') :
    Alike (List.Forall₂ (Executor.Peer w strategies R))
      (w.compileProperties strategies owner groups).2
      (w.compileProperties strategies owner groups').2 := by
  induction h with
  | nil => exact .ok .nil
  | @cons g g' rest rest' hg _ ih =>
    obtain ⟨key, ds⟩ := g
    obtain ⟨key', ds'⟩ := g'
    obtain ⟨rfl, hds⟩ := hg
    rw [compileProperties_cons, compileProperties_cons]
    refine (compileProperty_peers hR key hds).bind fun e e' he => ?_
    exact ih.map fun es es' _ _ hes => .cons he hes

/-- Declarations that are peers one by one come to plans that correspond, or fail alike. -/
theorem compile_peers {ds ds' : List Declaration} (h : List.Forall₂ R ds ds') :
    Alike (Plan.Peer w strategies R) (w.compile strategies owner ds).2
      (w.compile strategies owner ds').2 := by
  rw [compile_snd, compile_snd]
  refine (group_peers hR h .nil).bind fun groups groups' hgroups => ?_
  have hmembers : List.Forall₂ (fun g g' => g.1 = g'.1 ∧ List.Forall₂ R g.2 g'.2)
      (groups.map (·.2)) (groups'.map (·.2)) := by
    rw [List.forall₂_map_left_iff, List.forall₂_map_right_iff]
    exact hgroups.imp fun g g' hg => hg.2
  exact (compileProperties_peers hR hmembers).map fun es es' _ _ hes => ⟨rfl, hes⟩

end

end World

/-- Classes whose declarations are peers get plans that correspond. -/
theorem Setup.supply_peers {R : Declaration → Declaration → Prop}
    (hR : ∀ d d', R d d' → d.Peer d') (s : Setup) {rules : Registry} {c : ClassId}
    (h : List.Forall₂ R (s.rules.rulesOf c) (rules.rulesOf c)) :
    Alike (Plan.Peer s.world s.strategies R) (s.supply [] c)
      ({ s with rules }.supply [] c) := World.compile_peers hR h

/-! ## Questions -/

/-- The questions are about the same value, with actions that correspond. -/
structure Question.Peer (w : World) (strategies : StrategyRegistry)
    (R : Declaration → Declaration → Prop) (q q' : Question) : Prop where
  action : Action.Peer w strategies R q.action q'.action
  place : q.place = q'.place
  subject : q.subject = q'.subject

section
variable {w : World} {strategies : StrategyRegistry} {R : Declaration → Declaration → Prop}

theorem Action.Peer.each (hR : ∀ d d', R d d' → d.Peer d') {a a' : Action}
    (h : Action.Peer w strategies R a a') : a.each = a'.each := by
  cases h with
  | predicate _ _ hd => exact (hR _ _ hd).each
  | nested each => rfl

theorem Action.Peer.questions (hR : ∀ d d', R d d' → d.Peer d') {a a' : Action}
    (h : Action.Peer w strategies R a a') (v : Value) :
    List.Forall₂ (Question.Peer w strategies R) (a.questions w.heap v) (a'.questions w.heap v) := by
  unfold Action.questions
  rw [← h.each hR]
  split
  · rw [List.forall₂_map_left_iff, List.forall₂_map_right_iff, List.forall₂_same]
    exact fun i _ => ⟨h, rfl, rfl⟩
  · exact .cons ⟨h, rfl, rfl⟩ .nil

/-- Executors that correspond put corresponding questions to an object. -/
theorem Executor.Peer.questions (hR : ∀ d d', R d d' → d.Peer d') {e e' : Executor}
    (h : Executor.Peer w strategies R e e') (o : Value) :
    List.Forall₂ (Question.Peer w strategies R) (e.questions w o) (e'.questions w o) := by
  unfold Executor.questions
  rw [← h.key, ← h.isOptional]
  dsimp only
  split
  · exact .nil
  · exact List.rel_flatMap h.actions fun a a' ha => ha.questions hR _

/-- Corresponding questions lead to the same value. -/
theorem Question.Peer.target? {q q' : Question} (h : Question.Peer w strategies R q q') :
    q.target? w.heap = q'.target? w.heap := by
  obtain ⟨a, place, v⟩ := q
  obtain ⟨a', place', v'⟩ := q'
  obtain ⟨ha, hplace, hv⟩ := h
  dsimp only at ha hplace hv
  subst hplace hv
  cases ha <;> rfl

end

/-! ## Loops -/

/-- Two loops over lists that correspond find things in the same places, or fail alike, if any two
looks at corresponding elements do. The lists are given by what runs over both. -/
theorem Course.gather_alike {ι α α' β β' : Type} {R : ι → β → β' → Prop} {first : Bool}
    {look : α → Course (Option β)} {look' : α' → Course (Option β')} {f : ι → α} {g : ι → α'}
    {zs : List ι}
    (h : ∀ z ∈ zs, Alike (Option.Rel (R z)) (look (f z)).outcome (look' (g z)).outcome) :
    Alike (fun bs bs' => ∃ xs : List (ι × β × β'), (xs.map (·.1)).Sublist zs ∧
        xs.map (·.2.1) = bs ∧ xs.map (·.2.2) = bs' ∧ ∀ x ∈ xs, R x.1 x.2.1 x.2.2)
      (gather first look (zs.map f)).outcome (gather first look' (zs.map g)).outcome := by
  induction zs with
  | nil => exact .ok ⟨[], .slnil, rfl, rfl, List.forall_mem_nil _⟩
  | cons z rest ih =>
    obtain ⟨hz, hrest⟩ := List.forall_mem_cons.1 h
    have ih := ih hrest
    rw [List.map_cons, List.map_cons, gather, gather, outcome_bind, outcome_bind]
    refine hz.bind fun o o' ho => ?_
    cases ho with
    | none =>
      refine ih.imp fun bs bs' hbs => ?_
      obtain ⟨xs, hsub, hfst, hsnd, hxs⟩ := hbs
      exact ⟨xs, hsub.cons z, hfst, hsnd, hxs⟩
    | @some b b' hb =>
      cases first with
      | true =>
        refine .ok ⟨[(z, b, b')], (List.nil_sublist rest).cons_cons z, rfl, rfl, ?_⟩
        exact List.forall_mem_singleton.2 hb
      | false =>
        simp only [Bool.false_eq_true, if_false, outcome_bind]
        refine ih.bind fun bs bs' hbs => ?_
        obtain ⟨xs, hsub, rfl, rfl, hxs⟩ := hbs
        exact .ok ⟨(z, b, b') :: xs, hsub.cons_cons z, rfl, rfl, List.forall_mem_cons.2 ⟨hb, hxs⟩⟩

/-- Loops over lists that correspond find what corresponds, one by one. -/
theorem Course.gather_alike_forall₂ {α α' β β' : Type} {A : α → α' → Prop} {R : β → β' → Prop}
    {first : Bool} {look : α → Course (Option β)} {look' : α' → Course (Option β')}
    {as : List α} {as' : List α'} (has : List.Forall₂ A as as')
    (h : ∀ a a', A a a' → Alike (Option.Rel R) (look a).outcome (look' a').outcome) :
    Alike (List.Forall₂ R) (gather first look as).outcome (gather first look' as').outcome := by
  obtain ⟨hfst, hsnd, hpairs⟩ := map_zip_of_forall₂ has
  generalize as.zip as' = zs at hfst hsnd hpairs
  rw [← hfst, ← hsnd]
  refine (gather_alike fun z hz => h z.1 z.2 (hpairs z hz)).imp fun bs bs' hbs => ?_
  obtain ⟨xs, -, rfl, rfl, hxs⟩ := hbs
  rw [List.forall₂_map_left_iff, List.forall₂_map_right_iff, List.forall₂_same]
  exact hxs

end Rulebook
