import Mathlib.Data.List.Flatten
import Mathlib.Data.List.Forall2
import Mathlib.Data.List.Perm.Subperm
import Rulebook.Proofs.Compilation
import Rulebook.Proofs.ExactType
import Rulebook.Proofs.FullRun

/-!
# More declarations find more

Declarations that come after the others, none of which lets a property be absent, add executors to a
plan and actions to its executors and take nothing away (`World.compile_grows`). Their order may be
another one, as priorities are compared anew. So whatever was uncovered before is uncovered still
(`World.trails_grow`): an object that is being validated is passed over only on the path to itself,
and every path that there was is still there.
-/

set_option autoImplicit false

namespace Rulebook

open List (SublistForall₂)

/-! ## Parts of lists -/

section
variable {α β γ : Type} {as as' : List α} {f f' : α → List γ}

theorem subperm_flatMap (h : as.Subperm as') (f : α → List γ) :
    (as.flatMap f).Subperm (as'.flatMap f) := by
  obtain ⟨_, hp, hs⟩ := h
  exact ⟨_, hp.flatMap_right f, hs.flatMap f⟩

theorem subperm_flatMap_congr (h : ∀ a ∈ as, (f a).Subperm (f' a)) :
    (as.flatMap f).Subperm (as.flatMap f') := by
  induction as with
  | nil => exact .refl _
  | cons a rest ih =>
    rw [List.flatMap_cons, List.flatMap_cons]
    exact List.Subperm.append (h a (.head _)) (ih fun a ha => h a (.tail _ ha))

theorem exists_of_sublistForall₂ {R : α → β → Prop} {bs : List β} (h : SublistForall₂ R as bs)
    {a : α} (ha : a ∈ as) : ∃ b ∈ bs, R a b := by
  obtain ⟨bs', hall, hs⟩ := List.sublistForall₂_iff.1 h
  obtain ⟨i, hi, rfl⟩ := List.mem_iff_getElem.1 ha
  have hi' : i < bs'.length := hall.length_eq ▸ hi
  exact ⟨bs'[i], hs.subset (List.getElem_mem hi'), hall.get hi hi'⟩

theorem subperm_flatMap₂ {R : α → β → Prop} {g : β → List γ} {bs : List β}
    (h : SublistForall₂ R as bs) (hg : ∀ a b, b ∈ bs → R a b → (f a).Subperm (g b)) :
    (as.flatMap f).Subperm (bs.flatMap g) := by
  induction h with
  | nil => exact List.nil_subperm
  | cons hab _ ih =>
    rw [List.flatMap_cons, List.flatMap_cons]
    exact List.Subperm.append (hg _ _ (.head _) hab) (ih fun a b hb => hg a b (.tail _ hb))
  | cons_right _ ih =>
    rw [List.flatMap_cons, ← List.nil_append (List.flatMap _ _)]
    exact List.Subperm.append List.nil_subperm (ih fun a b hb => hg a b (.tail _ hb))

end

theorem flatMap_zipIdx {α γ : Type} (as : List α) (f : α → List γ) :
    (as.zipIdx.flatMap fun x => f x.1) = as.flatMap f := by
  rw [← List.flatMap_map Prod.fst, List.zipIdx_map_fst]

/-! ## Compiling more declarations -/

/-- The group got more declarations, none of which lets the property be absent. -/
structure GroupGrows (w : World) (g g' : Value × List Declaration) : Prop where
  shown : g'.1 = g.1
  declarations : ∃ added, g'.2 = g.2 ++ added ∧
    ∀ d ∈ added, w.heap.text? d.ruleType ≠ some optionalType

/-- The executor takes more actions on the same property. -/
structure Executor.Grows (e e' : Executor) : Prop where
  key : e'.key = e.key
  name : e'.name = e.name
  isOptional : e'.isOptional = e.isOptional
  actions : e.actions.Subperm e'.actions

namespace World

variable {w : World} {strategies : StrategyRegistry} {owner : ClassId} {name : String}

instance : Std.Refl (GroupGrows w) where
  refl _ := ⟨rfl, [], (List.append_nil _).symm, fun _ h => nomatch h⟩

instance : IsTrans _ (GroupGrows w) where
  trans a b c hab hbc := by
    obtain ⟨hshown, added, hadded, hopt⟩ := hab
    obtain ⟨hshown', added', hadded', hopt'⟩ := hbc
    refine ⟨hshown'.trans hshown, added ++ added', ?_, fun d hd => ?_⟩
    · rw [hadded', hadded, List.append_assoc]
    · exact (List.mem_append.1 hd).elim (hopt d) (hopt' d)

theorem group_append (ds extra : List Declaration) (groups : Groups) :
    (w.group owner (ds ++ extra) groups).2 =
      (w.group owner ds groups).2.bind fun groups => (w.group owner extra groups).2 := by
  induction ds generalizing groups with
  | nil => rfl
  | cons d rest ih =>
    rw [List.cons_append, group, group]
    split
    · cases w.key? d.key with
      | ok key => exact ih _
      | error fault => rfl
    · exact ih groups

theorem alter_grows {d : Declaration} (hd : w.heap.text? d.ruleType ≠ some optionalType)
    (groups : Groups) (key : Key) :
    SublistForall₂ (GroupGrows w) (groups.map (·.2)) ((groups.alter
      (fun old => match old with
        | some (shown, ds) => (shown, ds ++ [d])
        | none => (d.key, [d])) key).map (·.2)) := by
  induction groups with
  | nil => exact .nil
  | cons g rest ih =>
    rw [Catalog.alter]
    split
    · refine .cons ⟨rfl, [d], rfl, fun d' hd' => ?_⟩ (refl _)
      rwa [List.mem_singleton.1 hd']
    · exact .cons (refl _) ih

theorem group_grows {extra : List Declaration} {groups groups' : Groups}
    (hextra : ∀ d ∈ extra, w.heap.text? d.ruleType ≠ some optionalType)
    (h : (w.group owner extra groups).2 = .ok groups') :
    SublistForall₂ (GroupGrows w) (groups.map (·.2)) (groups'.map (·.2)) := by
  induction extra generalizing groups with
  | nil =>
    cases h
    exact refl _
  | cons d rest ih =>
    obtain ⟨hd, hrest⟩ := List.forall_mem_cons.1 hextra
    rw [group] at h
    split at h
    · cases hk : w.key? d.key with
      | error fault => rw [hk] at h; cases h
      | ok key =>
        rw [hk] at h
        exact IsTrans.trans _ _ _ (alter_grows hd groups key) (ih hrest h)
    · exact ih hrest h

theorem actions_eq (ds : List (String × Declaration)) : (w.actions strategies owner name ds).1 =
    ds.flatMap fun (ruleType, d) => if ruleType = nestedType then [.nested d.each]
      else ((strategies.get? ruleType).map (.predicate ruleType d)).toList := by
  induction ds with
  | nil => rfl
  | cons x rest ih => rw [actions_cons, ih, List.flatMap_cons]

theorem ranks_of_append {as bs : List (String × Declaration)}
    {ranked' : List (Extended × String × Declaration)}
    (h : (w.ranks owner name (as ++ bs)).2 = .ok ranked') :
    ∃ ranked, (w.ranks owner name as).2 = .ok ranked := by
  induction as generalizing ranked' with
  | nil => exact ⟨[], rfl⟩
  | cons x rest ih =>
    obtain ⟨ruleType, d⟩ := x
    rw [List.cons_append, ranks] at h
    rw [ranks]
    split at h
    · cases h
    · rename_i hr
      cases hrest : (w.ranks owner name (rest ++ bs)).2 with
      | error fault => simp [hrest, Except.map] at h
      | ok others =>
        obtain ⟨ranked, hranked⟩ := ih hrest
        exact ⟨_, by simp only [hranked]; rfl⟩

/-- Ranking loses nothing. -/
theorem byRank_perm {ds : List (String × Declaration)}
    {ranked : List (Extended × String × Declaration)}
    (h : (w.ranks owner name ds).2 = .ok ranked) : (byRank ranked).Perm ds := by
  have hp := (List.mergeSort_perm ranked fun a b => b.1.le a.1).map (·.2)
  rwa [map_ranks h] at hp

/-- The declarations with a rule type that does not let the property be absent have others only. -/
theorem any_optional {ds : List Declaration}
    (h : ∀ d ∈ ds, w.heap.text? d.ruleType ≠ some optionalType) :
    ((w.typed owner name ds).1.any fun x => x.1 = optionalType) = false := by
  rw [typed_eq, List.any_eq_false]
  intro x hx
  obtain ⟨d, hd, hx⟩ := List.mem_filterMap.1 hx
  obtain ⟨ruleType, hr, rfl⟩ := Option.map_eq_some_iff.1 hx
  simpa [hr] using h d hd

theorem typed_append (ds added : List Declaration) : (w.typed owner name (ds ++ added)).1 =
    (w.typed owner name ds).1 ++ (w.typed owner name added).1 := by
  simp only [typed_eq, List.filterMap_append]

/-- More declarations of a property add actions. -/
theorem compileProperty_append {key : Value} {ds added : List Declaration} {e' : Executor}
    (hadded : ∀ d ∈ added, w.heap.text? d.ruleType ≠ some optionalType)
    (h : (w.compileProperty strategies owner key (ds ++ added)).2 = .ok e') :
    ∃ e, (w.compileProperty strategies owner key ds).2 = .ok e ∧ e.Grows e' := by
  rw [compileProperty_snd] at h ⊢
  simp only [typed_append, List.filter_append, List.any_append, any_optional hadded,
    Bool.or_false] at h ⊢
  generalize hr' : (w.ranks owner (w.displayKey key) (_ ++ _)).2 = outcome at h
  cases outcome with
  | error fault => cases h
  | ok ranked' =>
    cases h
    obtain ⟨ranked, hr⟩ := ranks_of_append hr'
    rw [hr]
    refine ⟨_, rfl, rfl, rfl, rfl, ?_⟩
    have hactive : (byRank ranked).Subperm (byRank ranked') :=
      (byRank_perm hr).subperm.trans
        ((List.sublist_append_left _ _).subperm.trans (byRank_perm hr').symm.subperm)
    simp only [actions_eq]
    exact subperm_flatMap hactive _

theorem compileProperties_grows {groups groups' : List (Value × List Declaration)}
    {es' : List Executor} (hg : SublistForall₂ (GroupGrows w) groups groups')
    (h : (w.compileProperties strategies owner groups').2 = .ok es') :
    ∃ es, (w.compileProperties strategies owner groups).2 = .ok es ∧
      SublistForall₂ Executor.Grows es es' := by
  simp only [compileProperties_eq_ok] at h ⊢
  induction hg generalizing es' with
  | nil => exact ⟨[], .nil, .nil⟩
  | cons hgrow _ ih =>
    obtain ⟨_, _, he', hrest, rfl⟩ := List.forall₂_cons_left_iff.1 h
    obtain ⟨hshown, added, hadded, hopt⟩ := hgrow
    rw [hshown, hadded] at he'
    obtain ⟨e, he, hgrow⟩ := compileProperty_append hopt he'
    obtain ⟨es, hes, hall⟩ := ih hrest
    exact ⟨e :: es, .cons he hes, .cons hgrow hall⟩
  | cons_right _ ih =>
    obtain ⟨_, _, -, hrest, rfl⟩ := List.forall₂_cons_left_iff.1 h
    obtain ⟨es, hes, hall⟩ := ih hrest
    exact ⟨es, hes, .cons_right hall⟩

/-- A class that gets a plan with more declarations gets one without them, and the executors of that
are among those of the other, with part of their actions. -/
theorem compile_grows {ds extra : List Declaration} {plan' : Plan}
    (hextra : ∀ d ∈ extra, w.heap.text? d.ruleType ≠ some optionalType)
    (h : (w.compile strategies owner (ds ++ extra)).2 = .ok plan') :
    ∃ plan, (w.compile strategies owner ds).2 = .ok plan ∧
      SublistForall₂ Executor.Grows plan.executors plan'.executors := by
  rw [compile_snd, group_append] at h
  rw [compile_snd]
  cases hgroups : (w.group owner ds []).2 with
  | error fault => rw [hgroups] at h; cases h
  | ok groups =>
    simp only [hgroups, Except.bind] at h ⊢
    cases hgroups' : (w.group owner extra groups).2 with
    | error fault => rw [hgroups'] at h; cases h
    | ok groups' =>
      simp only [hgroups'] at h
      cases hes' : (w.compileProperties strategies owner (groups'.map (·.2))).2 with
      | error fault => rw [hes'] at h; cases h
      | ok es' =>
        rw [hes'] at h
        cases h
        obtain ⟨es, hes, hall⟩ := compileProperties_grows (group_grows hextra hgroups') hes'
        exact ⟨⟨owner, es⟩, by rw [hes]; rfl, hall⟩

end World

/-! ## More trails -/

variable {w : World} {nested nested' : Value → Course (List Report)}

/-- What a question adds to the remarks of its executor, given those on the values it leads to. -/
def Question.remarks (w : World) (name : String) (below : Value → List Remark) (q : Question) :
    List Remark :=
  match q.complaint? w name with
  | some (ruleType, text) => [⟨[(name, none)], ruleType, text⟩]
  | none =>
    match q.target? w.heap with
    | some v => (below v).map (·.under (q.labels name))
    | none => []

theorem Question.map_snd_trails {name : String} {below : Value → List (Trail × Remark)} {p : Place}
    {q : Question} : (q.trails w name below p).map Prod.snd =
      q.remarks w name fun v => (below v).map Prod.snd := by
  unfold trails remarks
  cases q.complaint? w name with
  | some c => rfl
  | none => cases q.target? w.heap <;> simp [Function.comp_def]

theorem Executor.map_snd_trails {below : Value → List (Trail × Remark)} {o : Value} {i : Nat}
    {e : Executor} : (e.trails w below o i).map Prod.snd =
      (e.questions w o).flatMap (·.remarks w e.name fun v => (below v).map Prod.snd) := by
  simp only [trails, List.map_flatMap, Question.map_snd_trails]
  exact flatMap_zipIdx _ _

theorem World.map_snd_trails {supply : Supply} {path : List Address} {a : Address} {plan : Plan}
    (hc : w.heap.isComposite (.object a) = true) (ha : a ∉ path)
    (hp : supply (w.classOf (.object a)) = .ok plan) :
    (w.trails supply path (.object a)).map Prod.snd = plan.executors.flatMap fun e =>
      (e.questions w (.object a)).flatMap
        (·.remarks w e.name fun v => (w.trails supply (a :: path) v).map Prod.snd) := by
  rw [trails_enter hc ha hp]
  simp only [List.map_flatMap, Executor.map_snd_trails]
  rw [← flatMap_zipIdx plan.executors]

theorem Question.remarks_subperm {name : String} {q : Question} {below below' : Value → List Remark}
    (h : ∀ v, q.target? w.heap = some v → (below v).Subperm (below' v)) :
    (q.remarks w name below).Subperm (q.remarks w name below') := by
  unfold remarks
  split
  · exact .refl _
  · split
    · rename_i v hv
      obtain ⟨_, hp, hs⟩ := h v hv
      exact ⟨_, hp.map _, hs.map _⟩
    · exact .refl _

theorem Executor.Grows.questions {e e' : Executor} (h : e.Grows e') (o : Value) :
    (e.questions w o).Subperm (e'.questions w o) := by
  unfold Executor.questions
  rw [h.key, h.isOptional]
  dsimp only
  split
  · exact .refl _
  · exact subperm_flatMap h.actions _

/-- What a question leads to has come to reports if the executor has. -/
theorem Executor.nested_ok {o : Value} {e : Executor} {r : Option Report}
    (h : (e.survey w false nested o).outcome = .ok r) {q : Question} (hq : q ∈ e.questions w o)
    {v : Value} (hv : q.target? w.heap = some v) : ∃ reports, (nested v).outcome = .ok reports := by
  obtain ⟨found, hfound, -⟩ := survey_eq_ok.1 h
  obtain ⟨x, hx⟩ := Course.ok_of_gather hfound hq
  rcases Question.answer_eq_ok.1 hx with ⟨v', reports, hv', hr, -⟩ | ⟨hnone, -⟩
  · cases hv.symm.trans hv'
    exact ⟨reports, hr⟩
  · cases hv.symm.trans hnone

/-- All that was uncovered is uncovered still, if every plan has grown and validation with the new
plans comes to an end. -/
theorem World.trails_grow {supply supply' : Supply}
    (hgrow : ∀ c plan', supply' c = .ok plan' → ∃ plan, supply c = .ok plan ∧
      SublistForall₂ Executor.Grows plan.executors plan'.executors)
    (path : List Address) (v : Value) {reports' : List Report}
    (h : (w.survey false supply' path v).outcome = .ok reports') :
    (∃ reports, (w.survey false supply path v).outcome = .ok reports) ∧
      ((w.trails supply path v).map Prod.snd).Subperm
        ((w.trails supply' path v).map Prod.snd) := by
  induction path, v using enter_induction generalizing reports' with
  | skip path v hs =>
    rw [survey_of_skips hs, trails_of_skips hs]
    exact ⟨⟨[], rfl⟩, List.nil_subperm⟩
  | enter path a hc ha ih =>
    rw [survey_enter hc ha] at h
    obtain ⟨plan', hplan', h⟩ := Course.outcome_bind_eq_ok.1 h
    obtain ⟨plan, hplan, hexecutors⟩ := hgrow _ plan' hplan'
    -- the new executors have come to an end on all that the old ones lead to
    have hbelow {e e' : Executor} (he' : e' ∈ plan'.executors) (hgrow : e.Grows e') {q : Question}
        (hq : q ∈ e.questions w (.object a)) {v : Value} (hv : q.target? w.heap = some v) :
        ∃ reports', (w.survey false supply' (a :: path) v).outcome = .ok reports' := by
      obtain ⟨r, hr⟩ := Course.ok_of_gather h he'
      exact Executor.nested_ok hr ((hgrow.questions _).subset hq) hv
    constructor
    · rw [survey_enter hc ha, Course.outcome_bind_ok hplan]
      refine Course.gather_ok fun e he => Executor.survey_ok fun q hq v hv => ?_
      obtain ⟨e', he', hgrow⟩ := exists_of_sublistForall₂ hexecutors he
      obtain ⟨reports', hr'⟩ := hbelow he' hgrow hq hv
      exact (ih v hr').1
    · rw [map_snd_trails hc ha hplan, map_snd_trails hc ha hplan']
      refine subperm_flatMap₂ hexecutors fun e e' he' hgrow => ?_
      rw [hgrow.name]
      refine (subperm_flatMap_congr fun q hq => ?_).trans (subperm_flatMap (hgrow.questions _) _)
      refine Question.remarks_subperm fun v hv => ?_
      obtain ⟨reports', hr'⟩ := hbelow he' hgrow hq hv
      exact (ih v hr').2

namespace Setup

variable {s : Setup} {ds : List Declaration}

theorem supply_grows (hds : ∀ d ∈ ds, s.world.heap.text? d.ruleType ≠ some optionalType)
    (c : ClassId) (plan' : Plan) (h : (s.extending ds).supply [] c = .ok plan') :
    ∃ plan, s.supply [] c = .ok plan ∧
      SublistForall₂ Executor.Grows plan.executors plan'.executors := by
  change (s.world.compile s.strategies c ((s.rules.addAll ds).rulesOf c)).2 = .ok plan' at h
  rw [Registry.rulesOf_addAll] at h
  exact World.compile_grows (fun d hd => hds d (List.mem_filter.1 hd).1) h

/-- More declarations, none of which lets a property be absent, hide no failure: if all classes get
plans, every message of a full run is there as often as it was, under the same labels and the same
rule type. -/
theorem remarks_extending (s : Setup) (log : List Record) (root : Value) (ds : List Declaration)
    (hds : ∀ d ∈ ds, s.world.heap.text? d.ruleType ≠ some optionalType)
    (hplans : ∀ o, s.world.Reaches ((s.extending ds).supply []) [] root o →
      ∃ plan, (s.extending ds).supply [] (s.world.classOf o) = .ok plan) :
    ∃ before after,
      ((s.aborting false).validate root ⟨[], [], log⟩).1 = .ok before ∧
      (((s.extending ds).aborting false).validate root ⟨[], [], log⟩).1 = .ok after ∧
      (Report.remarksAll before).Subperm (Report.remarksAll after) := by
  obtain ⟨after, hafter⟩ := @World.survey_ok s.world _ false _ _ hplans
  obtain ⟨⟨before, hbefore⟩, htrails⟩ := World.trails_grow (supply_grows hds) [] root hafter
  have hv := (s.aborting false).validate_fst root ⟨[], [], log⟩
  have hv' := ((s.extending ds).aborting false).validate_fst root ⟨[], [], log⟩
  have hperm := World.remarks_survey [] root before hbefore
  have hperm' := World.remarks_survey [] root after hafter
  exact ⟨before, after, hv.trans hbefore, hv'.trans hafter,
    hperm.subperm.trans (htrails.trans hperm'.symm.subperm)⟩

end Setup

/-! ## The ring with a further rule -/

namespace Ring

/-- The next node is no text. -/
def further : List Declaration := [rule "next" "IsString"]

theorem supply_further_ok (c : ClassId) :
    ∃ plan, (setup.extending further).supply [] c = .ok plan := by
  refine supply_ok_of_others (fun c hc => ?_) (by decide +kernel) c
  rw [Setup.rulesOf_extending, rulesOf_other hc]
  exact List.forall_mem_singleton.2 hc

end Ring

theorem Setup.remarks_extending_ring :
    (∀ d ∈ Ring.further, Ring.world.heap.text? d.ruleType ≠ some optionalType) ∧
    (∀ o, Ring.world.Reaches ((Ring.setup.extending Ring.further).supply []) [] (.object 0) o →
      ∃ plan, (Ring.setup.extending Ring.further).supply [] (Ring.world.classOf o) = .ok plan) ∧
    ∃ after, (((Ring.setup.extending Ring.further).aborting false).validate (.object 0)
        ⟨[], [], []⟩).1 = .ok after ∧
      (Report.remarksAll Ring.reports).Subperm (Report.remarksAll after) := by
  have htype : ∀ d ∈ Ring.further, Ring.world.heap.text? d.ruleType ≠ some optionalType := by decide
  have hplans o (_ : Ring.world.Reaches ((Ring.setup.extending Ring.further).supply []) []
      (.object 0) o) : ∃ plan, (Ring.setup.extending Ring.further).supply []
        (Ring.world.classOf o) = .ok plan := Ring.supply_further_ok (Ring.world.classOf o)
  obtain ⟨before, after, hbefore, hafter, hsub⟩ :=
    remarks_extending Ring.setup [] (.object 0) Ring.further htype hplans
  cases Ring.validate_fst.symm.trans hbefore
  exact ⟨htype, hplans, after, hafter, hsub⟩

end Rulebook
