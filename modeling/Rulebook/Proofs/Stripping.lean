import Rulebook.Proofs.Operations
import Rulebook.Proofs.PlanCache
import Rulebook.Proofs.Shaped

/-!
# Entries without declared rules

Dropping the entries of data that have no declared key makes no difference to a validation. The two
instances are different objects, which may differ under any other key, but the executors of a plan
have declared keys (`Session.Sourced`) and read the same from both (`World.Twins`). And what they
read is older than both objects, so nothing that a validation comes to leads back to either.
-/

set_option autoImplicit false

namespace Rulebook

/-! ## Twins -/

theorem Executor.survey_of_resolve {w : World} {first : Bool}
    {nested : Value → Course (List Report)} {o o' : Value} {e : Executor}
    (h : w.resolve o' e.key = w.resolve o e.key) :
    e.survey w first nested o' = e.survey w first nested o := by
  have hquestions : e.questions w o' = e.questions w o := by
    unfold questions
    rw [h]
  rw [survey, survey, h, hquestions]

namespace World

/-- Two objects of one class from which the plan of the class reads the same, all of it older than
both. -/
structure Twins (w : World) (supply : Supply) (a a' : Address) : Prop where
  classOf : w.classOf (.object a') = w.classOf (.object a)
  composite : w.heap.isComposite (.object a') = w.heap.isComposite (.object a)
  older : ∃ n, w.Closed n ∧ n ≤ a ∧ n ≤ a' ∧ ∀ key, (w.resolve (.object a) key).1.Under n
  reads : ∀ plan, supply (w.classOf (.object a)) = .ok plan → ∀ e ∈ plan.executors,
    w.resolve (.object a') e.key = w.resolve (.object a) e.key

variable {w : World} {supply : Supply} {a a' : Address}

theorem target_under {n : Nat} (hclosed : w.Closed n)
    (hunder : ∀ key, (w.resolve (.object a) key).1.Under n) {e : Executor} {q : Question}
    {v : Value} (hq : q ∈ e.questions w (.object a)) (hv : q.target? w.heap = some v) :
    v.Under n := by
  obtain ⟨action, -, hq⟩ := Executor.mem_questions hq
  rcases Action.subject_of_mem_questions hq with hs | ⟨size, i, get, hseq, hi, hs⟩ <;>
    rw [Question.subject_of_target hv] at hs <;> rw [hs]
  · exact hunder e.key
  · exact Holds.under hclosed (hunder e.key) (.element hseq hi)

theorem Twins.survey_eq (h : w.Twins supply a a') (first : Bool) :
    w.survey first supply [] (.object a') = w.survey first supply [] (.object a) := by
  obtain ⟨n, hclosed, ha, ha', hunder⟩ := h.older
  by_cases hc : w.heap.isComposite (.object a) = true
  · have hc' : w.heap.isComposite (.object a') = true := h.composite.trans hc
    rw [survey_enter hc List.not_mem_nil, survey_enter hc' List.not_mem_nil, h.classOf]
    refine Course.bind_congr _ fun plan hp => ?_
    have hlook : ∀ e ∈ plan.executors,
        e.survey w first (w.survey first supply [a']) (.object a') =
          e.survey w first (w.survey first supply [a]) (.object a) := by
      intro e he
      rw [Executor.survey_of_resolve (h.reads plan hp e he)]
      refine Executor.survey_congr (P := fun _ => True) (fun q hq v hv _ => ?_) fun _ _ => trivial
      -- what is read is older than both objects, so neither path is come across again
      refine survey_congr_path fun b hb => ?_
      have hlt := Nat.succ_le_of_lt (hb.within.under hclosed (target_under hclosed hunder hq hv))
      have hne : b ≠ a := by rintro rfl; omega
      have hne' : b ≠ a' := by rintro rfl; omega
      simp [hne, hne']
    exact Course.gather_congr (P := fun _ => True) (fun e he _ => hlook e he) fun _ _ => trivial
  · have hno : w.heap.isComposite (.object a) = false := by simpa using hc
    have hno' : w.heap.isComposite (.object a') = false := h.composite.trans hno
    rw [survey_of_skips (.inl hno), survey_of_skips (.inl hno')]

/-! ## Instances of the same data -/

section
variable {ds : List Declaration} {data entries entries' : Entries} {c : ClassId} {o o' : Object}

theorem blank_under (b : Builtin) (n : Nat) : (Content.blank b).Under n := by
  cases b <;> simp [Content.blank, Content.Under, Value.Under, Entries.read?]

theorem under_of_storeAll (hfit : entries.Fit w) (h : w.storeAll (w.template c) entries = some o) :
    o.Under w.heap.size := by
  obtain ⟨-, hcontent, -⟩ := storeAll_eq_some hfit.nodup h
  refine Object.under_of_at? ?_ fun s v hv => ?_
  · rw [hcontent]
    exact blank_under _ _
  · rw [at?_of_storeAll hfit.nodup h] at hv
    split at hv
    · obtain ⟨⟨shown, v'⟩, hget, rfl⟩ := Option.map_eq_some_iff.1 hv
      exact (hfit.old _ _ _ (Catalog.mem_of_get? hget)).2
    · cases hv

/-- Two instances that are made from the same data one after the other. -/
theorem twins_of_shapes (hw : w.Sound) (hds : ∀ d ∈ ds, d.key.Under w.heap.size)
    (hkeys : ∀ d ∈ ds, ∃ k, w.key? d.key = .ok k ∧ w.IsOrdinary c k)
    (hpasses : w.Passes ds data entries) (ho : w.storeAll (w.template c) entries = some o)
    (hpasses' : (w.plus o).Passes ds data entries')
    (ho' : (w.plus o).storeAll (w.template c) entries' = some o')
    (hplan : ∀ plan, supply c = .ok plan → ∀ e ∈ plan.executors, ∃ d ∈ ds, d.key = e.key) :
    ((w.plus o).plus o').Twins supply w.heap.size (w.plus o).heap.size := by
  have hunder : o.Under w.heap.size := under_of_storeAll hpasses.fit ho
  have hw' : (w.plus o).Sound := hw.plus hunder
  obtain ⟨hclass, hcontent, -⟩ := storeAll_eq_some hpasses.fit.nodup ho
  obtain ⟨hclass', hcontent', -⟩ := storeAll_eq_some hpasses'.fit.nodup ho'
  have hin : (Value.object w.heap.size).Under (w.plus o).heap.size := by
    rw [size_plus]
    exact Nat.lt_succ_self _
  have hself : ((w.plus o).plus o').heap[w.heap.size]? = some o :=
    (object?_plus hin).trans object?_plus_self
  have hself' : ((w.plus o).plus o').heap[(w.plus o).heap.size]? = some o' := object?_plus_self
  have hclosed : ((w.plus o).plus o').Closed w.heap.size :=
    (hw.closed.plus le_rfl o).plus size_le_plus o'
  refine ⟨?_, ?_, ⟨w.heap.size, hclosed, le_rfl, size_le_plus, fun key => ?_⟩,
    fun plan hp e he => ?_⟩
  · rw [classOf_object hself, classOf_object hself', hclass, hclass']
  · rw [Heap.isComposite, Heap.isComposite, content?_object hself, content?_object hself', hcontent,
      hcontent']
  · refine resolve_under (fun x hx => ?_) hclosed key
    cases (object?_object hself).symm.trans hx
    exact hunder
  · rw [classOf_object hself, hclass] at hp
    obtain ⟨d, hd, hkey⟩ := hplan plan hp e he
    obtain ⟨k, hk, hordinary⟩ := hkeys d hd
    have hk' : (w.plus o).key? d.key = .ok k := (key?_plus hw (hds d hd)).trans hk
    rw [← hkey]
    refine resolve_congr hself hself' (hclass'.trans hclass.symm) hcontent hcontent' ?_
      ((key?_plus hw' (under_plus (hds d hd))).trans hk') fun s hs => ?_
    · rw [hclass]
      exact hordinary.property
    · -- declared keys have the same values in both, at the same places
      rw [at?_of_storeAll hpasses.fit.nodup ho, at?_of_storeAll hpasses'.fit.nodup ho', hs,
        hpasses.same d hd k hk, hpasses'.same d hd k hk']
      rfl

/-- Keys are determined by their spellings. -/
theorem mem_keys_of_pairs (hdata : data.Fit w) (hfit : entries.Fit w)
    (h : entries.pairs = data.pairs) {k : Key} (hk : k ∈ data.keys) : k ∈ entries.keys := by
  obtain ⟨⟨k, shown, value⟩, hmem, rfl⟩ := List.mem_map.1 hk
  have hpair : (shown, value) ∈ entries.pairs := h ▸ List.mem_map_of_mem hmem
  obtain ⟨⟨k', pair⟩, hmem', hsame⟩ := List.mem_map.1 hpair
  cases hsame
  cases (hdata.keyed k shown value hmem).symm.trans (hfit.keyed k' shown value hmem')
  exact List.mem_map_of_mem hmem'

theorem entries_nil_of_passes (hpasses : w.Passes ds [] entries) : entries = [] := by
  cases entries with
  | nil => rfl
  | cons e rest => exact absurd (hpasses.subset e.1 (.head _)) List.not_mem_nil

theorem exists_entriesFor (hdata : data.Fit w) (hds : ∀ d ∈ ds, d.key.Under w.heap.size)
    (hkeys : ∀ d ∈ ds, ∃ k, w.key? d.key = .ok k) : ∃ entries : Entries,
      w.entriesFor ds data true = .ok entries.pairs ∧ w.Passes ds data entries := by
  obtain ⟨keys, hlisted⟩ := propertyKeys_ok hkeys []
  have hpairs := entriesFor_eq hlisted data
  obtain ⟨entries, he, hpasses⟩ := passes_of_entriesFor hdata hds hpairs
  exact ⟨entries, by rw [hpairs, he], hpasses⟩

theorem blank_plus (o : Object) (h : w.blank c = .ok (w.plus (w.template c), .object w.heap.size)) :
    (w.plus o).blank c = .ok ((w.plus o).plus (w.template c), .object (w.plus o).heap.size) := by
  cases c with
  | declared i => rfl
  | builtin b =>
    cases b with
    | bool | int | float | fraction | text | bytes =>
      have hobject := congrArg Prod.snd (Except.ok.inj h)
      cases hobject
    | keys => cases h
    | _ => rfl

/-- If all data can be assigned, so can those with declared keys. -/
theorem exists_shape_strip (hw : w.Sound) (hdata : data.Fit w)
    (hds : ∀ d ∈ ds, d.key.Under w.heap.size) (hkeys : ∀ d ∈ ds, ∃ k, w.key? d.key = .ok k)
    (hblank : w.blank c = .ok (w.plus (w.template c), .object w.heap.size))
    (hspots : ∀ k ∈ data.keys, ∃ s, w.spot? (w.template c) k = some s) : ∃ entries o,
      w.Passes ds data entries ∧ w.storeAll (w.template c) entries = some o ∧
        w.shape ds c data true = .ok (w.plus o, .object w.heap.size) := by
  obtain ⟨entries, he, hpasses⟩ := exists_entriesFor hdata hds hkeys
  obtain ⟨o, ho⟩ := storeAll_ok_iff.2 fun k hk => hspots k (hpasses.subset k hk)
  exact ⟨entries, o, hpasses, ho, shape_of_makes hw hds he hpasses (.object hblank ho)⟩

/-- Data that are shaped as they are can also be shaped stripped, before and after, and surveys of
the two instances come to the same if plans have declared keys. -/
theorem survey_shape_strip {w₁ : World} {v : Value} (hw : w.Sound) (hdata : data.Fit w)
    (hds : ∀ d ∈ ds, d.key.Under w.heap.size)
    (hkeys : ∀ d ∈ ds, ∃ k, w.key? d.key = .ok k ∧ w.IsOrdinary c k)
    (h : w.shape ds c data false = .ok (w₁, v)) : (∃ r, w.shape ds c data true = .ok r) ∧
      ∃ w₂ v', w₁.shape ds c data true = .ok (w₂, v') ∧ ∀ supply : Supply,
        (∀ plan, supply c = .ok plan → ∀ e ∈ plan.executors, ∃ d ∈ ds, d.key = e.key) →
          ∀ first, w₂.survey first supply [] v' = w₂.survey first supply [] v := by
  have hkeyed : ∀ d ∈ ds, ∃ k, w.key? d.key = .ok k := by
    intro d hd
    obtain ⟨k, hk, -⟩ := hkeys d hd
    exact ⟨k, hk⟩
  obtain ⟨entries, he, hpasses, hmakes⟩ := makes_of_shape hw hds hdata h
  cases hmakes with
  | @plain v hblank hv hnil =>
    subst hnil
    have hdata' : data = [] := List.map_eq_nil_iff.1 (Except.ok.inj he)
    subst hdata'
    obtain ⟨entries, he, hpasses⟩ := exists_entriesFor hdata hds hkeyed
    have hmakes : w.Makes c entries (w, v) := .plain hblank hv (entries_nil_of_passes hpasses)
    have hshape := shape_of_makes hw hds he hpasses hmakes
    exact ⟨⟨_, hshape⟩, w, v, hshape, fun _ _ _ => rfl⟩
  | @object o hblank ho =>
    have hpairs : entries.pairs = data.pairs := (Except.ok.inj he).symm
    have hunder : o.Under w.heap.size := under_of_storeAll hpasses.fit ho
    have hw' : (w.plus o).Sound := hw.plus hunder
    have hold : ∀ d ∈ ds, d.key.Under (w.plus o).heap.size :=
      fun d hd => under_plus (hds d hd)
    have hkeys' : ∀ d ∈ ds, ∃ k, (w.plus o).key? d.key = .ok k := by
      intro d hd
      rw [key?_plus hw (hds d hd)]
      exact hkeyed d hd
    have hspots : ∀ k ∈ data.keys, ∃ s, w.spot? (w.template c) k = some s := by
      intro k hk
      exact storeAll_ok_iff.1 ⟨o, ho⟩ k (mem_keys_of_pairs hdata hpasses.fit hpairs hk)
    obtain ⟨_, _, _, _, hshape⟩ := exists_shape_strip hw hdata hds hkeyed hblank hspots
    obtain ⟨entries', o', hpasses', ho', hshape'⟩ := exists_shape_strip (w := w.plus o) hw'
      (fit_plus hw o hdata) hold hkeys' (blank_plus o hblank) hspots
    refine ⟨⟨_, hshape⟩, _, _, hshape', fun supply hplan first => ?_⟩
    exact (twins_of_shapes hw hds hkeys hpasses ho hpasses' ho' hplan).survey_eq first

end

end World

/-! ## Engines -/

theorem World.declared_of_compile {w : World} {strategies : StrategyRegistry} {owner : ClassId}
    {ds : List Declaration} {plan : Plan} (h : (w.compile strategies owner ds).2 = .ok plan)
    {e : Executor} (he : e ∈ plan.executors) : ∃ d ∈ ds, d.key = e.key := by
  obtain ⟨names, hkeys, hnames⟩ := names_of_propertyKeys (propertyKeys_filter_of_compile h)
  have hmem : e.key ∈ names.map (·.2) := hkeys ▸ List.mem_map_of_mem he
  obtain ⟨⟨k, key⟩, hname, heq⟩ := List.mem_map.1 hmem
  obtain ⟨d, hd, hkey, -⟩ := hnames.declared k key hname
  exact ⟨d, List.mem_of_mem_filter hd, hkey.trans heq⟩

namespace Session

/-- All that the kept plans read is declared. -/
def Sourced (s : Session) : Prop :=
  ∀ name c plan, (s.workspace.engine name).plans.get? c = some plan →
    ∀ e ∈ plan.executors, ∃ d ∈ (s.contents name).rules.rulesOf c, d.key = e.key

/-- A step takes no declarations away. -/
theorem rulesOf_next (s : Session) (x : Step) (name : String) (c : ClassId) {d : Declaration}
    (hd : d ∈ (s.contents name).rules.rulesOf c) :
    d ∈ ((s.next x).contents name).rules.rulesOf c := by
  cases x with
  | declare registry ds =>
    change d ∈ (Workspace.registry { s.workspace with
      registries := s.workspace.registries.put registry
        ((s.workspace.registry registry).addAll ds) } (s.workspace.engine name).rules).rulesOf c
    rw [Workspace.registry, Catalog.put, Catalog.get?_alter]
    split
    · rename_i hr
      rw [Option.getD_some, Registry.rulesOf_addAll, hr]
      exact List.mem_append_left _ hd
    · exact hd
  | register registry ruleType strategy => exact hd
  | become w => exact hd
  | clear engine =>
    have hcontents : ((s.next (.clear engine)).contents name) = s.contents name :=
      s.workspace.contents_withEngine engine name []
    rwa [hcontents]
  | plan engine c' =>
    have hcontents : ((s.next (.plan engine c')).contents name) = s.contents name :=
      contents_running engine .standard _ name
    rwa [hcontents]
  | validate engine v options => rwa [contents_validate]

/-- All that a plan reads is declared, whether it is kept or made anew. -/
theorem Sourced.of_supply {s : Session} (h : s.Sourced) (hk : s.Keeps) {name : String} {c : ClassId}
    {plan : Plan} (hp : s.supply name c = .ok plan) {e : Executor} (he : e ∈ plan.executors) :
    ∃ d ∈ (s.contents name).rules.rulesOf c, d.key = e.key := by
  cases hr : s.reached name c with
  | none =>
    rw [supply_of_unreached hr] at hp
    exact World.declared_of_compile hp he
  | some k =>
    obtain ⟨plan', hcompile, hkept⟩ := hk.present hr
    rw [supply, hr, Option.getD_some, hcompile] at hp
    cases hp
    exact h name c plan hkept e he

theorem Sourced.next {s : Session} (h : s.Sourced) (hk : s.Keeps) (x : Step) :
    (s.next x).Sourced := by
  intro name c plan hp e he
  have hsource : ∃ d ∈ (s.contents name).rules.rulesOf c, d.key = e.key := by
    rw [hk.plans_next x name c] at hp
    split at hp
    · cases hp
    · rcases Option.or_eq_some_iff.1 hp with hold | ⟨-, hnew⟩
      · exact h name c plan hold e he
      · split at hnew
        · refine h.of_supply hk ?_ he
          cases hs : s.supply name c with
          | error fault => rw [hs] at hnew; cases hnew
          | ok plan' => rw [hs] at hnew; cases hnew; rfl
        · cases hnew
  obtain ⟨d, hd, hkey⟩ := hsource
  exact ⟨d, rulesOf_next s x name c hd, hkey⟩

theorem Sourced.run {s : Session} (h : s.Sourced) (hk : s.Keeps) (steps : List Step) :
    (s.run steps).Sourced := by
  induction steps generalizing s with
  | nil => exact h
  | cons x rest ih => exact ih (h.next hk x) (hk.next x)

theorem start_sourced {ws : Workspace} (h : ∀ name, (ws.engine name).plans = []) :
    (start ws).Sourced := by
  intro name c plan hp
  change (ws.engine name).plans.get? c = some plan at hp
  rw [h name] at hp
  cases hp

/-- A validation makes no difference to the plans that classes get. -/
theorem supply_validate (s : Session) (engine : String) (v options : Value) (name : String) :
    (s.next (.validate engine v options)).supply name = s.supply name := by
  funext c
  cases hr : (s.next (.validate engine v options)).reached name c with
  | some k =>
    rw [supply, hr, Option.getD_some]
    obtain ⟨-, hold | ⟨hold, -, rfl, -⟩⟩ := reached_next hr
    · rw [supply, hold, Option.getD_some]
    · rw [supply_of_unreached hold]
  | none =>
    obtain hclears | ⟨hold, -⟩ := unreached_next hr
    · cases hclears
    · rw [supply_of_unreached hr, supply_of_unreached hold, contents_validate]

/-- A validation makes no difference to another. -/
theorem Keeps.validate_after {s : Session} (h : s.Keeps) (engine : String) (v options : Value)
    (name : String) (v' options' : Value) :
    (Operation.validate name v' options' (Operation.validate engine v options s.workspace).2).1 =
      (Operation.validate name v' options' s.workspace).1 := by
  have hworld : (s.next (.validate engine v options)).workspace.world = s.workspace.world :=
    congrArg Contents.world (contents_validate engine v options name)
  have hsurvey (supply : Supply) : (s.next (.validate engine v options)).survey supply v' options' =
      s.survey supply v' options' := by
    rw [survey, survey, hworld]
  have hlater := (h.next (.validate engine v options)).outcome_validate name v' options'
  rw [hsurvey, supply_validate] at hlater
  exact hlater.trans (h.outcome_validate name v' options').symm

/-- Entries without declared rules make no difference to a validation if no declared key is that of
a descriptor. Whatever has happened to a workspace, data that can be shaped as they are can also be
shaped stripped, and an engine on the same declarations comes to the same with both instances,
whether it validates one of them or one after the other. -/
theorem validate_stripped {start : Workspace} (hstart : ∀ name, (start.engine name).plans = [])
    (steps : List Step) {engine : String} {c : ClassId} {data : Entries} {v : Value}
    {ws ws₁ : Workspace} (hws : ws = ((Session.start start).run steps).workspace)
    (hw : ws.world.Sound) (hdata : data.Fit ws.world)
    (hds : ∀ d ∈ (ws.registry (ws.engine engine).rules).rulesOf c,
      d.key.Under ws.world.heap.size ∧ ∃ k, ws.world.key? d.key = .ok k ∧ ws.world.IsOrdinary c k)
    (h : Operation.shape (ws.engine engine).rules c data false ws = (.ok v, ws₁)) :
    (∃ v' ws', Operation.shape (ws.engine engine).rules c data true ws = (.ok v', ws')) ∧
    ∃ v' ws₂, Operation.shape (ws.engine engine).rules c data true ws₁ = (.ok v', ws₂) ∧
      ∀ options, (Operation.validate engine v' options ws₂).1 =
          (Operation.validate engine v options ws₂).1 ∧
        (Operation.validate engine v' options (Operation.validate engine v options ws₂).2).1 =
          (Operation.validate engine v options ws₂).1 := by
  subst hws
  let s : Session := (Session.start start).run steps
  have hkeeps : s.Keeps := (start_keeps hstart).run steps
  have hsourced : s.Sourced := (start_sourced hstart).run (start_keeps hstart) steps
  obtain ⟨w₁, hshape, rfl⟩ := Operation.shape_eq_ok.1 h
  obtain ⟨⟨r, hr⟩, w₂, v', hstrip, hsurvey⟩ := World.survey_shape_strip hw hdata
    (fun d hd => (hds d hd).1) (fun d hd => (hds d hd).2) hshape
  -- the instances are made in a step of the session
  let s₂ : Session := s.next (.become w₂)
  have hkeeps₂ : s₂.Keeps := hkeeps.next (.become w₂)
  have hplan : ∀ plan, s₂.supply engine c = .ok plan → ∀ e ∈ plan.executors,
      ∃ d ∈ (s.contents engine).rules.rulesOf c, d.key = e.key :=
    fun plan hp e he => (hsourced.next hkeeps (.become w₂)).of_supply hkeeps₂ hp he
  refine ⟨⟨r.2, _, Operation.shape_eq_ok.2 ⟨r.1, hr, rfl⟩⟩, v', s₂.workspace,
    Operation.shape_eq_ok.2 ⟨w₂, hstrip, rfl⟩, fun options => ?_⟩
  have hsame : s₂.survey (s₂.supply engine) v' options =
      s₂.survey (s₂.supply engine) v options := by
    unfold Session.survey
    split
    · exact hsurvey _ hplan _
    · rfl
  have hinstead : (Operation.validate engine v' options s₂.workspace).1 =
      (Operation.validate engine v options s₂.workspace).1 := by
    rw [hkeeps₂.outcome_validate, hkeeps₂.outcome_validate, hsame]
  exact ⟨hinstead, (hkeeps₂.validate_after ..).trans hinstead⟩

end Session

namespace Persons

/-- An engine in the world of persons, with nothing declared. -/
def workspace : Workspace where
  world := world
  registries := []
  strategyRegistries := []
  engines := [("engine", ⟨"rules", "strategies", []⟩)]
  log := []

/-- Data with an entry that has no rules. -/
def nicknamed : Entries := (.ofText "nickname", (.text "nickname", .text "Bo")) :: data

theorem plans_workspace (name : String) : (workspace.engine name).plans = [] := by
  simp only [Workspace.engine, workspace, Catalog.get?]
  split <;> rfl

theorem fit_nicknamed : nicknamed.Fit world where
  nodup := by decide
  keyed k shown value h := by
    rcases List.mem_cons.1 h with h | h
    · cases h
      rfl
    · exact fit.keyed k shown value h
  old k shown value h := by
    rcases List.mem_cons.1 h with h | h
    · cases h
      exact ⟨trivial, trivial⟩
    · exact fit.old k shown value h
  ordinary name h := by
    rcases List.mem_cons.1 h with h | h
    · cases h
      decide
    · exact fit.ordinary name h

end Persons

theorem Session.validate_stripped_person :
    let ws := ((Session.start Persons.workspace).run [.declare "rules" [Persons.age 1]]).workspace
    ∃ v ws₁ v' ws₂,
      Operation.shape "rules" (.declared 1) Persons.nicknamed false ws = (.ok v, ws₁) ∧
      Operation.shape "rules" (.declared 1) Persons.nicknamed true ws₁ = (.ok v', ws₂) ∧
      ∀ options, (Operation.validate "engine" v' options ws₂).1 =
        (Operation.validate "engine" v options ws₂).1 := by
  intro ws
  have hshaped : (Persons.world.shape [Persons.age 1] (.declared 1) Persons.nicknamed
      false).toOption.isSome = true := by decide +kernel
  obtain ⟨w₁, v, hs⟩ := Persons.exists_shape hshaped
  have hengine : (ws.engine "engine").rules = "rules" := rfl
  have hrules : (ws.registry "rules").rulesOf (.declared 1) = [Persons.age 1] := rfl
  have hshape : Operation.shape (ws.engine "engine").rules (.declared 1) Persons.nicknamed false
      ws = (.ok v, { ws with world := w₁ }) := by
    rw [hengine, Operation.shape_eq_ok, hrules]
    exact ⟨w₁, hs, rfl⟩
  have hkeyed : ∀ d ∈ (ws.registry (ws.engine "engine").rules).rulesOf (.declared 1),
      d.key.Under ws.world.heap.size ∧
        ∃ k, ws.world.key? d.key = .ok k ∧ ws.world.IsOrdinary (.declared 1) k := by
    rw [hengine, hrules]
    exact Persons.ordinary_keys 1
  obtain ⟨-, v', ws₂, hstrip, hsame⟩ := Session.validate_stripped Persons.plans_workspace _
    (rfl : ws = _) Persons.sound Persons.fit_nicknamed hkeyed hshape
  exact ⟨v, _, v', ws₂, hshape, hstrip, fun options => (hsame options).1⟩

end Rulebook
