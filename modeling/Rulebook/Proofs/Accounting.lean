import Rulebook.Proofs.ExactType
import Rulebook.Proofs.Fates
import Rulebook.Proofs.Notes

/-!
# No declaration is lost

A plan accounts for all declarations of its class (`World.AccountsFor`): the actions of an executor
are what the declarations with its key come to, and the log is what the fates of all declarations
leave behind, with one more record for the plan itself. The groups that a plan is made from hold the
declarations whose keys can be keys, each of them once (`World.members_perm`), so what is true of
every group adds up to the whole class (`World.accounts_of_compile`).
-/

set_option autoImplicit false

namespace Rulebook

namespace World

/-- A plan accounts for the declarations of a class, and the log for what is not in it. -/
structure AccountsFor (w : World) (strategies : StrategyRegistry) (owner : ClassId)
    (ds : List Declaration) (plan : Plan) (log : List Record) : Prop where
  /-- A declaration whose key can be one belongs to exactly one executor. -/
  served : ∀ d ∈ ds, w.keyable d = true →
    plan.executors.countP (fun e => w.key? e.key = w.key? d.key) = 1
  /-- The actions of an executor are those of the declarations with its key, one for one. -/
  actions : ∀ e ∈ plan.executors,
    e.actions.Perm ((ds.filter fun d => w.key? d.key = w.key? e.key).filterMap fun d =>
      (w.fate strategies owner (w.propertyName ds d) d).action?)
  /-- A property may be absent if one of the declarations with its key says so. -/
  optional : ∀ e ∈ plan.executors, e.isOptional = true ↔
    ∃ d ∈ ds, w.key? d.key = w.key? e.key ∧
      (w.fate strategies owner (w.propertyName ds d) d).isOptional = true
  /-- One note for every declaration that is dropped, one for every priority that is counted as
  zero, one for the plan, and no others. -/
  noted : log.Perm
    (ds.filterMap (fun d => (w.fate strategies owner (w.propertyName ds d) d).note?) ++
      ds.filterMap (fun d => w.zeroNote? owner (w.propertyName ds d) d) ++
      [.compiled (w.className owner) plan.executors.length])
  /-- The declarations, counted by their fates. -/
  balance : ds.length = (plan.executors.flatMap (·.actions)).length +
    ds.countP (fun d => (w.fate strategies owner (w.propertyName ds d) d).isOptional) +
    log.countP Record.isDrop

variable {w : World} {strategies : StrategyRegistry} {owner : ClassId} {name : String}

/-! ## All properties -/

theorem compileProperties_fst {groups : List (Value × List Declaration)} {es : List Executor}
    (h : (w.compileProperties strategies owner groups).2 = .ok es) :
    (w.compileProperties strategies owner groups).1 =
      groups.flatMap fun g => (w.compileProperty strategies owner g.1 g.2).1 := by
  induction groups generalizing es with
  | nil => rfl
  | cons g rest ih =>
    obtain ⟨key, ds⟩ := g
    rw [compileProperties] at h ⊢
    split at h
    · cases h
    · rename_i records e hproperty
      obtain ⟨others, hothers, -⟩ := Except.map_eq_ok.1 h
      rw [List.flatMap_cons, ← ih hothers, hproperty]

theorem compile_eq_ok {ds : List Declaration} {records : List Record} {plan : Plan}
    (h : w.compile strategies owner ds = (records, .ok plan)) : ∃ groups : Groups,
      (w.group owner ds []).2 = .ok groups ∧
      List.Forall₂ (fun g e => (w.compileProperty strategies owner g.2.1 g.2.2).2 = .ok e) groups
        plan.executors ∧
      records = (w.group owner ds []).1 ++
        groups.flatMap (fun g => (w.compileProperty strategies owner g.2.1 g.2.2).1) ++
        [.compiled (w.className owner) plan.executors.length] := by
  unfold compile at h
  cases hg : w.group owner ds [] with
  | mk malformed outcome =>
    cases outcome with
    | error fault => simp [hg] at h
    | ok groups =>
      rw [hg] at h
      dsimp only at h
      cases hp : w.compileProperties strategies owner (groups.map (·.2)) with
      | mk others outcome =>
        cases outcome with
        | error fault => simp [hp] at h
        | ok es =>
          rw [hp] at h
          cases h
          have hes := congrArg Prod.snd hp
          refine ⟨groups, rfl, ?_, ?_⟩
          · exact List.forall₂_map_left_iff.1 (compileProperties_eq_ok.1 hes)
          · have hothers := compileProperties_fst hes
            rw [hp, List.flatMap_map] at hothers
            rw [← hothers]

/-- Declarations that are told apart by a list of distinct keys are all there, group by group. -/
theorem flatMap_hasKey_perm {ks : List Key} (hnodup : ks.Nodup) (ds : List Declaration) :
    (ks.flatMap fun k => ds.filter (w.hasKey k)).Perm
      (ds.filter fun d => ks.any fun k => w.hasKey k d) := by
  induction ks with
  | nil => simp
  | cons k rest ih =>
    obtain ⟨hnew, hrest⟩ := List.nodup_cons.1 hnodup
    have hsplit := List.filter_append_perm (w.hasKey k)
      (ds.filter fun d => (k :: rest).any fun k => w.hasKey k d)
    have hk : (ds.filter fun d => (k :: rest).any fun k => w.hasKey k d).filter (w.hasKey k) =
        ds.filter (w.hasKey k) := by
      rw [List.filter_filter]
      refine List.filter_congr fun d _ => ?_
      cases h : w.hasKey k d <;> simp [h]
    have hothers : (ds.filter fun d => (k :: rest).any fun k => w.hasKey k d).filter
        (fun d => !w.hasKey k d) = ds.filter fun d => rest.any fun k => w.hasKey k d := by
      rw [List.filter_filter]
      refine List.filter_congr fun d _ => ?_
      cases h : w.hasKey k d with
      | false => simp [h]
      | true =>
        -- keys are distinct, so none that follows takes the declaration once more
        have hno : ∀ k' ∈ rest, w.hasKey k' d = false := by
          intro k' hk'
          have hd : w.key? d.key = .ok k := of_decide_eq_true h
          refine decide_eq_false fun hd' => hnew ?_
          rw [hd] at hd'
          exact Except.ok.inj hd' ▸ hk'
        have hnone : (rest.any fun k => w.hasKey k d) = false := by
          rw [List.any_eq_false]
          intro k' hk'
          simp [hno k' hk']
        rw [hnone]
        simp
    rw [hk, hothers] at hsplit
    rw [List.flatMap_cons]
    exact ((ih hrest).append_left _).trans hsplit

/-- The groups hold the declarations whose keys can be keys, each of them once. -/
theorem members_perm {ds : List Declaration} {groups : Groups}
    (h : (w.group owner ds []).2 = .ok groups) :
    (groups.flatMap (·.2.2)).Perm (ds.filter w.keyable) := by
  have hmembers : groups.flatMap (·.2.2) =
      groups.keys.flatMap fun k => ds.filter (w.hasKey k) := by
    rw [Catalog.keys, List.flatMap_map]
    exact List.flatMap_congr fun g hg => (members_group h hg).1
  rw [hmembers]
  have hkeyable : (ds.filter fun d => groups.keys.any fun k => w.hasKey k d) =
      ds.filter w.keyable := by
    refine List.filter_congr fun d hd => ?_
    rw [Bool.eq_iff_iff, List.any_eq_true]
    constructor
    · rintro ⟨k, -, hk⟩
      exact isHashable_of_key? (of_decide_eq_true hk)
    · intro hkeyable
      obtain ⟨members, hmem, hdg⟩ := (mem_group h).2 ⟨hd, hkeyable⟩
      obtain ⟨g, hg, rfl⟩ := List.mem_map.1 hmem
      rw [(members_group h hg).1] at hdg
      exact ⟨g.1, List.mem_map_of_mem hg, (List.mem_filter.1 hdg).2⟩
  rw [← hkeyable]
  exact flatMap_hasKey_perm (get?_group_eq h).1 ds

/-- The members of a group go by the spelling of its key. -/
theorem propertyName_of_group {ds : List Declaration} {groups : Groups}
    (h : (w.group owner ds []).2 = .ok groups) {g : Key × Value × List Declaration}
    (hg : g ∈ groups) {d : Declaration} (hd : w.hasKey g.1 d = true) :
    w.propertyName ds d = w.displayKey g.2.1 := by
  obtain ⟨hmembers, hhead⟩ := members_group h hg
  have hkey : w.key? d.key = .ok g.1 := of_decide_eq_true hd
  have hfind : (ds.find? fun x => w.key? x.key = w.key? d.key) = g.2.2.head? := by
    rw [hmembers, List.head?_filter, hkey]
    rfl
  obtain ⟨x, hx, hspelled⟩ := Option.map_eq_some_iff.1 hhead
  rw [propertyName, hfind, hx, Option.getD_some, hspelled]

/-- What the notes about one property say, told by the names that the class has for it. -/
theorem property_accounts {ds : List Declaration} {groups : Groups}
    (hgroups : (w.group owner ds []).2 = .ok groups) {g : Key × Value × List Declaration}
    (hg : g ∈ groups) {e : Executor}
    (h : (w.compileProperty strategies owner g.2.1 g.2.2).2 = .ok e) :
    let fate d := w.fate strategies owner (w.propertyName ds d) d
    w.key? e.key = .ok g.1 ∧
    e.actions.Perm (g.2.2.filterMap fun d => (fate d).action?) ∧
    (e.isOptional = true ↔ ∃ d ∈ g.2.2, (fate d).isOptional = true) ∧
    (w.compileProperty strategies owner g.2.1 g.2.2).1.Perm
      (g.2.2.filterMap (fun d => (fate d).note?) ++
        g.2.2.filterMap fun d => w.zeroNote? owner (w.propertyName ds d) d) := by
  intro fate
  obtain ⟨hmembers, hhead⟩ := members_group hgroups hg
  have hmember : ∀ d ∈ g.2.2, w.hasKey g.1 d = true := by
    intro d hd
    rw [hmembers] at hd
    exact (List.mem_filter.1 hd).2
  have hname : ∀ d ∈ g.2.2, w.propertyName ds d = w.displayKey g.2.1 := fun d hd =>
    propertyName_of_group hgroups hg (hmember d hd)
  have hkeyable : ∀ d ∈ g.2.2, w.keyable d = true := fun d hd =>
    isHashable_of_key? (of_decide_eq_true (hmember d hd))
  obtain ⟨hactions, hoptional, hnotes⟩ := compileProperty_accounts hkeyable h
  have hkey : w.key? e.key = .ok g.1 := by
    obtain ⟨d, hd, hspelled⟩ := Option.map_eq_some_iff.1 hhead
    have hd := hmember d (List.mem_of_mem_head? hd)
    rw [compileProperty_snd] at h
    obtain ⟨ranked, -, rfl⟩ := Except.map_eq_ok.1 h
    exact hspelled ▸ of_decide_eq_true hd
  refine ⟨hkey, ?_, ?_, ?_⟩
  · rw [List.filterMap_congr fun d hd => congrArg
      (fun name => (w.fate strategies owner name d).action?) (hname d hd)]
    exact hactions
  · rw [hoptional]
    exact exists_congr fun d => and_congr_right fun hd => by simp only [fate, hname d hd]
  · rw [List.filterMap_congr fun d hd => congrArg
        (fun name => (w.fate strategies owner name d).note?) (hname d hd),
      List.filterMap_congr fun d hd => congrArg
        (fun name => w.zeroNote? owner name d) (hname d hd)]
    exact hnotes

theorem isDrop_of_note? {d : Declaration} {r : Record}
    (h : (w.fate strategies owner name d).note? = some r) : r.isDrop = true := by
  unfold fate at h
  split at h
  · split at h
    · cases h; rfl
    · split at h
      · cases h
      · split at h <;> cases h
        rfl
  · cases h; rfl

theorem not_isDrop_of_zeroNote? {d : Declaration} {r : Record}
    (h : w.zeroNote? owner name d = some r) : r.isDrop = false := by
  unfold zeroNote? at h
  split at h
  · cases h
  · split at h <;> cases h
    rfl

/-- Among the notes about declarations, those that are dropped are told by their fates. -/
theorem countP_isDrop_notes (name : Declaration → String) (ds : List Declaration) :
    (ds.filterMap (fun d => (w.fate strategies owner (name d) d).note?) ++
      ds.filterMap fun d => w.zeroNote? owner (name d) d).countP Record.isDrop =
    (ds.filterMap fun d => (w.fate strategies owner (name d) d).note?).length := by
  have hnotes : (ds.filterMap fun d => (w.fate strategies owner (name d) d).note?).countP
      Record.isDrop =
        (ds.filterMap fun d => (w.fate strategies owner (name d) d).note?).length := by
    refine List.countP_eq_length.2 fun r hr => ?_
    obtain ⟨d, -, hd⟩ := List.mem_filterMap.1 hr
    exact isDrop_of_note? hd
  have hzeros : (ds.filterMap fun d => w.zeroNote? owner (name d) d).countP Record.isDrop = 0 := by
    refine List.countP_eq_zero.2 fun r hr => ?_
    obtain ⟨d, -, hd⟩ := List.mem_filterMap.1 hr
    simp [not_isDrop_of_zeroNote? hd]
  rw [List.countP_append, hnotes, hzeros, Nat.add_zero]

/-- Every declaration has one fate, so their number is that of all fates together. -/
theorem length_eq_fates (fate : Declaration → Fate) (ds : List Declaration) :
    ds.length = (ds.filterMap fun d => (fate d).action?).length +
      ds.countP (fun d => (fate d).isOptional) + (ds.filterMap fun d => (fate d).note?).length := by
  induction ds with
  | nil => rfl
  | cons d rest ih =>
    have hone := (fate d).exactly_one
    simp only [List.filterMap_eq_flatMap_toList] at ih ⊢
    rw [List.length_cons, ih, List.flatMap_cons, List.flatMap_cons, List.length_append,
      List.length_append, List.countP_cons]
    cases ho : (fate d).isOptional with
    | false =>
      rw [ho, Bool.toNat_false] at hone
      rw [if_neg Bool.false_ne_true]
      omega
    | true =>
      rw [ho, Bool.toNat_true] at hone
      rw [if_pos rfl]
      omega

/-- The declarations that are dropped because of their keys, and what becomes of the others. -/
theorem notes_perm (fate : Declaration → Fate) (ds : List Declaration)
    (hfate : ∀ d ∈ ds, w.keyable d = false →
      fate d = .dropped (.malformedKey (w.preciseText d.key) (w.className owner))) :
    ((ds.filter fun d => !w.keyable d).map (fun d =>
        Record.malformedKey (w.preciseText d.key) (w.className owner)) ++
      (ds.filter w.keyable).filterMap fun d => (fate d).note?).Perm
      (ds.filterMap fun d => (fate d).note?) := by
  have hkeys : (ds.filter fun d => !w.keyable d).map (fun d =>
      Record.malformedKey (w.preciseText d.key) (w.className owner)) =
        (ds.filter fun d => !w.keyable d).filterMap fun d => (fate d).note? := by
    rw [← List.filterMap_eq_map]
    refine List.filterMap_congr fun d hd => ?_
    obtain ⟨hmem, hd⟩ := List.mem_filter.1 hd
    rw [hfate d hmem (by simpa using hd)]
    rfl
  rw [hkeys, ← List.filterMap_append]
  exact (List.perm_append_comm.trans (List.filter_append_perm w.keyable ds)).filterMap _

/-! ## All declarations -/

theorem exists_of_forall₂ {α β : Type} {R : α → β → Prop} {as : List α} {bs : List β}
    (h : List.Forall₂ R as bs) {b : β} (hb : b ∈ bs) : ∃ a ∈ as, R a b := by
  induction h with
  | nil => cases hb
  | cons hab _ ih =>
    rcases List.mem_cons.1 hb with rfl | hb
    · exact ⟨_, .head _, hab⟩
    · obtain ⟨a, ha, hab⟩ := ih hb
      exact ⟨a, .tail _ ha, hab⟩

theorem flatMap_perm_of_forall₂ {α β γ : Type} {f : α → List γ} {g : β → List γ} {as : List α}
    {bs : List β} (h : List.Forall₂ (fun a b => (f a).Perm (g b)) as bs) :
    (as.flatMap f).Perm (bs.flatMap g) := by
  induction h with
  | nil => exact .nil
  | cons hab _ ih =>
    rw [List.flatMap_cons, List.flatMap_cons]
    exact hab.append ih

section
variable {ds : List Declaration} {groups : Groups} {es : List Executor}
  (hgroups : (w.group owner ds []).2 = .ok groups)
  (hes : List.Forall₂ (fun g e => g ∈ groups ∧
    (w.compileProperty strategies owner g.2.1 g.2.2).2 = .ok e) groups es)
include hgroups hes

/-- An executor is made from the declarations with its key. -/
theorem members_of_executor {e : Executor} (he : e ∈ es) : ∃ g ∈ groups,
    (w.compileProperty strategies owner g.2.1 g.2.2).2 = .ok e ∧
    (ds.filter fun d => w.key? d.key = w.key? e.key) = g.2.2 := by
  obtain ⟨g, -, hg, hproperty⟩ := exists_of_forall₂ hes he
  refine ⟨g, hg, hproperty, ?_⟩
  rw [(property_accounts hgroups hg hproperty).1, (members_group hgroups hg).1]
  rfl

/-- The key of a declaration is the key of one executor. -/
theorem countP_executors {d : Declaration} (hd : d ∈ ds) (hkeyable : w.keyable d = true) :
    es.countP (fun e => w.key? e.key = w.key? d.key) = 1 := by
  obtain ⟨k, hk⟩ := key?_of_group hgroups hd hkeyable
  have hkeys : es.map (fun e => w.key? e.key) = groups.keys.map .ok := by
    rw [Catalog.keys, List.map_map, ← List.forall₂_eq_eq_eq, List.forall₂_map_left_iff,
      List.forall₂_map_right_iff]
    exact hes.flip.imp fun _ _ hge => (property_accounts hgroups hge.1 hge.2).1
  have hmem : k ∈ groups.keys := by
    obtain ⟨members, hmem, hdg⟩ := (mem_group hgroups).2 ⟨hd, hkeyable⟩
    obtain ⟨g, hg, rfl⟩ := List.mem_map.1 hmem
    rw [(members_group hgroups hg).1] at hdg
    have hkey : w.key? d.key = .ok g.1 := of_decide_eq_true (List.mem_filter.1 hdg).2
    rw [hk] at hkey
    exact Except.ok.inj hkey ▸ List.mem_map_of_mem hg
  calc es.countP (fun e => w.key? e.key = w.key? d.key)
      = (es.map fun e => w.key? e.key).countP (fun x => x = .ok k) := by
        rw [List.countP_map, hk]
        rfl
    _ = groups.keys.count k := by
        rw [hkeys, List.countP_map]
        exact List.countP_congr fun k' _ => by simp
    _ = 1 := List.count_eq_one_of_mem (get?_group_eq hgroups).1 hmem

/-- The actions of all executors are those that the declarations become. -/
theorem actions_of_executors : (es.flatMap (·.actions)).Perm (ds.filterMap fun d =>
    (w.fate strategies owner (w.propertyName ds d) d).action?) := by
  have hgroup : List.Forall₂ (fun e g => e.actions.Perm (g.2.2.filterMap fun d =>
      (w.fate strategies owner (w.propertyName ds d) d).action?)) es groups :=
    hes.flip.imp fun _ _ hge => (property_accounts hgroups hge.1 hge.2).2.1
  have hnone : ds.filterMap (fun d => (w.fate strategies owner (w.propertyName ds d) d).action?) =
      (ds.filter w.keyable).filterMap fun d =>
        (w.fate strategies owner (w.propertyName ds d) d).action? := by
    rw [List.filterMap_filter]
    refine List.filterMap_congr fun d _ => ?_
    cases hd : w.keyable d with
    | true => rfl
    | false => rw [fate, if_neg (by simp [hd])]; rfl
  rw [hnone]
  refine (flatMap_perm_of_forall₂ hgroup).trans ?_
  rw [← List.filterMap_flatMap]
  exact (members_perm hgroups).filterMap _

/-- The notes about all properties. -/
theorem notes_of_groups : (groups.flatMap fun g =>
      (w.compileProperty strategies owner g.2.1 g.2.2).1).Perm
    ((ds.filter w.keyable).filterMap (fun d =>
        (w.fate strategies owner (w.propertyName ds d) d).note?) ++
      ds.filterMap fun d => w.zeroNote? owner (w.propertyName ds d) d) := by
  have heach : ∀ g ∈ groups, (w.compileProperty strategies owner g.2.1 g.2.2).1.Perm
      (g.2.2.filterMap (fun d => (w.fate strategies owner (w.propertyName ds d) d).note?) ++
        g.2.2.filterMap fun d => w.zeroNote? owner (w.propertyName ds d) d) := by
    intro g hg
    obtain ⟨e, -, -, hproperty⟩ := exists_of_forall₂ hes.flip hg
    exact (property_accounts hgroups hg hproperty).2.2.2
  have hnone : (ds.filterMap fun d => w.zeroNote? owner (w.propertyName ds d) d) =
      (ds.filter w.keyable).filterMap fun d => w.zeroNote? owner (w.propertyName ds d) d := by
    rw [List.filterMap_filter]
    refine List.filterMap_congr fun d _ => ?_
    cases hd : w.keyable d with
    | true => rfl
    | false =>
      rw [zeroNote?, hd]
      cases w.heap.text? d.ruleType <;> rfl
  have hmembers := members_perm hgroups
  rw [hnone]
  refine (List.Perm.flatMap_left _ heach).trans ((List.flatMap_append_perm _ _ _).symm.trans ?_)
  rw [← List.filterMap_flatMap, ← List.filterMap_flatMap]
  exact (hmembers.filterMap _).append (hmembers.filterMap _)

end

/-- A plan accounts for all declarations that it is made from. -/
theorem accounts_of_compile {ds : List Declaration} {log : List Record} {plan : Plan}
    (h : w.compile strategies owner ds = (log, .ok plan)) :
    w.AccountsFor strategies owner ds plan log := by
  obtain ⟨groups, hgroups, hall, hlog⟩ := compile_eq_ok h
  have hes : List.Forall₂ (fun g e => g ∈ groups ∧
      (w.compileProperty strategies owner g.2.1 g.2.2).2 = .ok e) groups plan.executors := by
    refine List.forall₂_iff_zip.2 ⟨hall.length_eq, fun {g e} hge => ?_⟩
    exact ⟨(List.of_mem_zip hge).1, (List.forall₂_iff_zip.1 hall).2 hge⟩
  let fate d := w.fate strategies owner (w.propertyName ds d) d
  have hdropped : ∀ d ∈ ds, w.keyable d = false →
      fate d = .dropped (.malformedKey (w.preciseText d.key) (w.className owner)) := by
    intro d _ hd
    simp only [fate, World.fate]
    rw [if_neg (by simp [hd])]
  have hnoted : log.Perm (ds.filterMap (fun d => (fate d).note?) ++
      ds.filterMap (fun d => w.zeroNote? owner (w.propertyName ds d) d) ++
      [.compiled (w.className owner) plan.executors.length]) := by
    rw [hlog, group_fst hgroups]
    refine List.Perm.append_right _ (((notes_of_groups hgroups hes).append_left _).trans ?_)
    rw [← List.append_assoc]
    exact (notes_perm fate ds hdropped).append_right _
  have hdrops : log.countP Record.isDrop = (ds.filterMap fun d => (fate d).note?).length := by
    rw [hnoted.countP_eq, List.countP_append, countP_isDrop_notes]
    rfl
  refine ⟨fun d hd hkeyable => countP_executors hgroups hes hd hkeyable, fun e he => ?_,
    fun e he => ?_, hnoted, ?_⟩
  · obtain ⟨g, hg, hproperty, hmembers⟩ := members_of_executor hgroups hes he
    rw [hmembers]
    exact (property_accounts hgroups hg hproperty).2.1
  · obtain ⟨g, hg, hproperty, hmembers⟩ := members_of_executor hgroups hes he
    rw [(property_accounts hgroups hg hproperty).2.2.1, ← hmembers]
    simp only [List.mem_filter, decide_eq_true_eq, and_assoc]
  · rw [(actions_of_executors hgroups hes).length_eq, hdrops]
    exact length_eq_fates fate ds

end World

/-- Compiling loses no declaration without a word: whenever it comes to a plan, the plan and the log
account for every declaration of the class, and what is dropped, or given the priority zero, is
warned about in so many words, which name it. Plans that are kept are not made again: a validation
whose classes have their plans adds nothing to the log that is about plans. -/
theorem World.compile_accounts :
    (∀ r : Record, r.isDrop = true → r.Warns ", rule ignored") ∧
    (∀ shown ruleType owner property,
      (Record.malformedPriority shown ruleType owner property).Warns ", using 0") ∧
    (∀ (w : World) (strategies : StrategyRegistry) (owner : ClassId) (ds : List Declaration)
      (log : List Record) (plan : Plan), w.compile strategies owner ds = (log, .ok plan) →
        w.AccountsFor strategies owner ds plan log) ∧
    ∀ (ws : Workspace) (engine : String) (v options : Value),
      (∀ settings, ws.world.settingsOf options = .ok settings → ∀ c ∈ Event.classes
        (ws.world.survey settings.abortEarly (ws.supply engine) [] v).events,
          ((ws.engine engine).plans.get? c).isSome = true) →
      ∃ records, (Operation.validate engine v options ws).2.log = ws.log ++ records ∧
        ∀ r ∈ records, r.isOfCompilation = false :=
  ⟨fun _ h => Record.warns_of_isDrop h, Record.warns_malformedPriority,
    fun _ _ _ _ _ _ h => accounts_of_compile h, fun _ _ _ _ h => Operation.log_validate_kept h⟩

namespace Ring

/-- The ring, with an engine that has made the plan of the nodes. -/
def prepared : Workspace := (Operation.plan "engine" (.declared 0) setup.workspace).2

theorem prepared_kept {c : ClassId} (hc : c = .declared 0) :
    ((prepared.engine "engine").plans.get? c).isSome = true := by
  subst hc
  decide +kernel

end Ring

theorem World.compile_accounts_tangled :
    (∃ log plan, Tangled.world.compile Tangled.strategies (.builtin .object) Tangled.declarations =
        (log, .ok plan) ∧
      log.Perm [.malformedKey "['code']" "object", .unknownType "Shiny" "object" "1",
        .malformedPriority "'high'" "IsNumber" "object" "name",
        .malformedPriority "nan" "IsString" "object" "name",
        .compiled "object" plan.executors.length] ∧
      (plan.executors.flatMap (·.actions)).length = 4) ∧
    ∃ records, (Operation.validate "engine" (.object 0) .nothing Ring.prepared).2.log =
        Ring.prepared.log ++ records ∧ ∀ r ∈ records, r.isOfCompilation = false := by
  constructor
  · obtain ⟨plan, hplan⟩ := (@compile_ok_iff Tangled.world Tangled.strategies (.builtin .object)
      Tangled.declarations).2 (by decide +kernel)
    have h := compile_accounts.2.2.1 Tangled.world Tangled.strategies (.builtin .object)
      Tangled.declarations _ plan (Prod.ext rfl hplan)
    have hnoted := h.noted
    have hbalance := h.balance
    rw [show Tangled.declarations.filterMap (fun d => (Tangled.world.fate Tangled.strategies
        (.builtin .object) (Tangled.world.propertyName Tangled.declarations d) d).note?) =
          [.malformedKey "['code']" "object", .unknownType "Shiny" "object" "1"] by decide +kernel,
      show Tangled.declarations.filterMap (fun d => Tangled.world.zeroNote? (.builtin .object)
        (Tangled.world.propertyName Tangled.declarations d) d) =
          [.malformedPriority "'high'" "IsNumber" "object" "name",
            .malformedPriority "nan" "IsString" "object" "name"] by decide +kernel] at hnoted
    rw [hnoted.countP_eq, show Tangled.declarations.countP (fun d =>
      (Tangled.world.fate Tangled.strategies (.builtin .object)
        (Tangled.world.propertyName Tangled.declarations d) d).isOptional) = 1
          by decide +kernel] at hbalance
    have hcount : 7 = (plan.executors.flatMap (·.actions)).length + 1 + 2 := hbalance
    exact ⟨_, plan, Prod.ext rfl hplan, hnoted, by omega⟩
  · refine compile_accounts.2.2.2 Ring.prepared "engine" (.object 0) .nothing
      fun settings _ c hc => ?_
    exact Ring.prepared_kept (asksOnly_survey (P := fun c => c = .declared 0) [] (.object 0)
      (fun a _ ha => Ring.classOf_composite ha) c hc)

end Rulebook
