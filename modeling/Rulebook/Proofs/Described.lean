import Rulebook.Proofs.Configured
import Rulebook.Proofs.Unlocated

/-!
# Rules that are given twice

Rules can be built from specifications and read from a configuration. An entry describes a
specification (`World.DescribesRule`) if it has the same property, type and options, and constraints
that stand for those of the specification place by place (`World.Spells`): what is left out at the
end stands for none, a path for what it leads to, and a spelled out pattern for that pattern. A
single constraint may stand there by itself unless it is a list or a tuple (`World.Lists`). Such
entries are all read (`Loading.exists_readEntries`), and what they declare are counterparts of the
specifications as far as the standing strategies can tell (`World.counterpart_of_describes`), so
engines that work with the one registry or the other come to the same reports but for locations.
-/

set_option autoImplicit false

namespace Rulebook

/-- The rule types that always mean the same. -/
def builtInTypes : List String := optionalType :: nestedType :: Strategy.standing.keys

/-! ## Constraints that mean the same -/

/-- The constraints are the same, or patterns that are. -/
inductive World.SameConstraint (w : World) (ruleType : String) : Value → Value → Prop
  | refl (v : Value) : SameConstraint w ruleType v v
  | pattern {u v : Value} {node : Pattern.Node} : ruleType = "Matches" →
      Strategy.patternOf w u = .ok (some node) → Strategy.patternOf w v = .ok (some node) →
      SameConstraint w ruleType u v

theorem Declaration.constraint_eq (d : Declaration) (i : Nat) (default : Value) :
    d.constraint i default = ((d.constraints.getD i .nothing).present?).getD default := by
  rw [constraint, List.getD_eq_getElem?_getD]
  cases d.constraints[i]? <;> rfl

theorem Value.present?_getD (v : Value) : v.present?.getD .nothing = v := by
  cases v <;> rfl

/-- The standing strategies look at nothing but constraints, and at patterns for what they say. -/
theorem Strategy.standing_sameConstraint {w : World} {ruleType : String} {strategy : Strategy}
    (h : (ruleType, strategy) ∈ standing) {d d' : Declaration}
    (hd : ∀ i, w.SameConstraint ruleType (d.constraints.getD i .nothing)
      (d'.constraints.getD i .nothing)) (v : Value) (name : String) :
    strategy w v d name = strategy w v d' name := by
  by_cases hr : ruleType = "Matches"
  · subst hr
    obtain rfl : strategy = matching := by
      simpa [standing] using h
    have hpattern : patternOf w (d.constraint 0 .nothing) =
        patternOf w (d'.constraint 0 .nothing) := by
      rw [Declaration.constraint_eq, Declaration.constraint_eq, Value.present?_getD,
        Value.present?_getD]
      have hzero := hd 0
      generalize d.constraints.getD 0 .nothing = u at hzero ⊢
      generalize d'.constraints.getD 0 .nothing = u' at hzero ⊢
      cases hzero with
      | refl => rfl
      | pattern _ hu hv => rw [hu, hv]
    simp only [matching, hpattern]
  · refine standing_congr h (fun i default => ?_) w v name
    rw [Declaration.constraint_eq, Declaration.constraint_eq]
    have hi := hd i
    generalize d.constraints.getD i .nothing = u at hi ⊢
    generalize d'.constraints.getD i .nothing = u' at hi ⊢
    cases hi with
    | refl => rfl
    | pattern hmatches => exact absurd hmatches hr

namespace World

variable {w w' : World} {strategies : StrategyRegistry} {ps qs : List CompiledPattern}
  {reference key : Value} {source : Option String} {index : Nat} {entry : Entries} {c : ClassId}
  {s : RuleSpec} {d : Declaration}

/-! ## Entries that describe specifications -/

/-- The constraint `u` of an entry stands for the constraint `v` of a specification. -/
inductive Spells (w : World) (ruleType : String) : Value → Value → Prop
  | path {u v : Value} {path : String} : ruleType = "Custom" → w.heap.text? u = some path →
      w.Provides path v → Spells w ruleType u v
  | pattern {u v : Value} {source : String} {node : Pattern.Node} {flags : Pattern.Flags} :
      ruleType = "Matches" → w.heap.text? u = some source →
      Pattern.parse source = .ok (node, flags) → Strategy.patternOf w v = .ok (some node) →
      Spells w ruleType u v
  | itself {v : Value} : w.heap.text? v = none ∨ ruleType ≠ "Custom" ∧ ruleType ≠ "Matches" →
      Spells w ruleType v v

/-- The constraints that an entry lists if whatever is no list may stand there by itself, tuples
included. -/
inductive ListsBare (w : World) : Option Value → List Value → Prop
  | listed {v? : Option Value} {given : List Value} : w.Lists v? given → ListsBare w v? given
  | single {v : Value} : (∀ items, w.heap.content? v ≠ some (.list items)) →
      ListsBare w (some v) [v]

/-- The entry describes the rule that the specification makes of a property of a class, given how
entries list constraints. -/
structure DescribesRule (w : World) (lists : Option Value → List Value → Prop) (reference : Value)
    (c : ClassId) (key : Value) (entry : Entries) (s : RuleSpec) : Prop where
  key : entry.read? (.ofText "property") = some key
  ruleType : entry.read? (.ofText "type") = some s.ruleType
  owner : w.Denotes ((entry.read? (.ofText "owner")).getD reference) c
  /-- What is left out at the end stands for none. -/
  constraints : ∃ typeName given, w.heap.text? s.ruleType = some typeName ∧
    lists (entry.read? (.ofText "constraints")) given ∧
    ∀ i, w.Spells typeName (given.getD i .nothing) (s.constraints.getD i .nothing)
  message : (entry.read? (.ofText "message")).bind Value.present? = s.options.message
  each : (entry.read? (.ofText "each")).any w.heap.isTrue = s.options.each
  priority : (entry.read? (.ofText "priority")).bind Value.present? = s.options.priority
  number : ∀ v, s.options.priority = some v → w.heap.isReal v = true

/-- The configuration describes the rules that specifications make of a property of a class, given
how entries list constraints. -/
structure Describes (w : World) (lists : Option Value → List Value → Prop) (config : Entries)
    (c : ClassId) (key : Value) (specs : List RuleSpec) : Prop where
  names : config.pairs.all (fun (name, _) => (w.heap.text? name).isSome) = true
  entries : ∃ items, w.ruleItems? config = some items ∧
    List.Forall₂ (fun item s => ∃ entry, w.dict? item = some entry ∧
      w.DescribesRule lists (ruleOwner config) c key entry s) items specs

/-- The type of the rule is one of those that always mean the same. -/
def IsBuiltIn (w : World) (s : RuleSpec) : Prop :=
  ∃ ruleType ∈ builtInTypes, w.heap.text? s.ruleType = some ruleType

end World

/-- A builder other than that of rules of any type is named for the rule type that it makes. -/
theorem Builder.ofName?_cases {name : String} {b : Builder} (hne : name ≠ "Rule")
    (hb : ofName? name = some b) : name ∈ builtInTypes ∧
      (b = .variadic name ∨ (∃ argument, b = .single name argument) ∨
        b = .length ∧ name = "Length") := by
  unfold ofName? at hb
  split at hb
  case h_1 => exact absurd rfl hne
  all_goals cases hb
  case h_2 => exact ⟨by decide, .inr (.inr ⟨rfl, rfl⟩)⟩
  all_goals first
    | exact ⟨by decide, .inl rfl⟩
    | exact ⟨by decide, .inr (.inl ⟨_, rfl⟩)⟩

/-- What the builders make, but for that of rules of any type, is built in. -/
theorem Builder.isBuiltIn_of_build {b : Builder} (name : String) (hne : name ≠ "Rule")
    (hb : ofName? name = some b) {options : RuleOptions} {location : Option String} {s : RuleSpec}
    (args : List Value) (h : b.build args options location = .ok s) (w : World) :
    w.IsBuiltIn s := by
  obtain ⟨hmem, hcases⟩ := ofName?_cases hne hb
  obtain ⟨⟨ruleType, constraints⟩, happly, h⟩ := Except.bind_eq_ok.1 h
  cases h
  refine ⟨name, hmem, ?_⟩
  rcases hcases with rfl | ⟨argument, rfl⟩ | ⟨rfl, rfl⟩
  · cases happly
    rfl
  · match args with
    | [_] =>
      cases happly
      rfl
  · match args with
    | [] | [_] | [_, _] =>
      cases happly
      rfl

/-! ## Worlds that keep texts and patterns -/

namespace World

variable {w w' : World} {strategies : StrategyRegistry} {ps qs : List CompiledPattern}
  {reference key : Value} {source : Option String} {index : Nat} {entry : Entries} {c : ClassId}
  {s : RuleSpec} {d : Declaration}

/-- Texts and patterns of the one world are still the same in the other, whatever has become of
other objects. -/
structure Retains (w w' : World) : Prop where
  text : ∀ v s, w.heap.text? v = some s → w'.heap.text? v = some s
  pattern : ∀ v p, w.heap.pattern? v = some p → w'.heap.pattern? v = some p

theorem Retains.refl (w : World) : w.Retains w := ⟨fun _ _ h => h, fun _ _ h => h⟩

theorem Retains.trans {w₁ : World} (h : w.Retains w₁) (h' : w₁.Retains w') : w.Retains w' :=
  ⟨fun v s hs => h'.text v s (h.text v s hs), fun v p hp => h'.pattern v p (h.pattern v p hp)⟩

theorem retains_withPatterns (w : World) (ps : List CompiledPattern) :
    w.Retains (w.withPatterns ps) :=
  ⟨fun v _ h => (text?_withPatterns w ps v).trans h, fun _ _ h => pattern?_withPatterns h⟩

/-- The object of a pattern is no text. -/
theorem text?_of_pattern? {v : Value} {p : CompiledPattern} (h : w.heap.pattern? v = some p) :
    w.heap.text? v = none := by
  unfold Heap.pattern? at h
  split at h
  · rename_i hc
    cases v with
    | object a => simp only [Heap.text?, Heap.plain, hc]
    | _ => cases hc
  · cases h

theorem patternOf_object {v : Value} {p : CompiledPattern} (h : w.heap.pattern? v = some p) :
    Strategy.patternOf w v = .ok (some p.node) := by
  simp only [Strategy.patternOf, text?_of_pattern? h, h]
  rfl

theorem patternOf_text {v : Value} {source : String} {node : Pattern.Node} {flags : Pattern.Flags}
    (ht : w.heap.text? v = some source) (hp : Pattern.parse source = .ok (node, flags)) :
    Strategy.patternOf w v = .ok (some node) := by
  simp only [Strategy.patternOf, ht, hp]
  rfl

theorem Retains.patternOf (h : w.Retains w') {v : Value} {node : Pattern.Node}
    (hv : Strategy.patternOf w v = .ok (some node)) :
    Strategy.patternOf w' v = .ok (some node) := by
  cases ht : w.heap.text? v with
  | some s =>
    simp only [Strategy.patternOf, ht] at hv
    simpa only [Strategy.patternOf, h.text v s ht] using hv
  | none =>
    simp only [Strategy.patternOf, ht] at hv
    obtain ⟨p, hp, rfl⟩ := Option.map_eq_some_iff.1 (Except.ok.inj hv)
    exact patternOf_object (h.pattern v p hp)

/-! ## What entries that describe specifications declare -/

theorem Denotes.unique {c' : ClassId} {v : Value} (h : w.Denotes v c) (h' : w.Denotes v c') :
    c = c' :=
  Except.ok.inj ((ownerOf_eq_ok.2 h).symm.trans (ownerOf_eq_ok.2 h'))

/-- A constraint of a specification and what is read for it mean the same. -/
theorem Spells.sameConstraint {w₁ : World} {ruleType : String} {u v made : Value}
    (h : w.Spells ruleType u v) (hmade : w.Resolves w₁ ruleType u made) (hw₁ : w.Retains w₁)
    (hw' : w₁.Retains w') : w'.SameConstraint ruleType v made := by
  cases h with
  | path hr ht hprovides =>
    have hload : w.load u = .ok v := load_eq_ok.2 ⟨_, ht, hprovides⟩
    have hsome : (w.heap.text? u).isSome = true := by rw [ht]; rfl
    obtain rfl : v = made := Except.ok.inj (hload.symm.trans (hmade.load_eq hr hsome))
    exact .refl v
  | pattern hr ht hparse hv =>
    obtain ⟨node, flags, hparse', hpattern⟩ := hmade.parse_eq hr ht
    cases hparse.symm.trans hparse'
    exact .pattern hr ((hw₁.trans hw').patternOf hv) (patternOf_object (hw'.pattern _ _ hpattern))
  | itself hself =>
    rw [hmade.eq_self hself]
    exact .refl u

/-- Places beyond the end of both lists hold the defaults. -/
theorem forall₂_getD {α β : Type} {R : α → β → Prop} {as : List α} {bs : List β} {a : α} {b : β}
    (h : List.Forall₂ R as bs) (hab : R a b) (i : Nat) : R (as.getD i a) (bs.getD i b) := by
  induction h generalizing i with
  | nil => exact hab
  | cons hxy _ ih =>
    cases i with
    | zero => exact hxy
    | succ i => exact ih i

/-- What an entry declares is a counterpart of what the specification does that it describes. -/
theorem counterpart_of_describes {w₁ : World} (hs : w.DescribesRule w.Lists reference c key entry s)
    (hd : w.Declares w₁ reference source index entry d) (hbuilt : w.IsBuiltIn s)
    (hw₁ : w.Retains w₁) (hw' : w₁.Retains w')
    (hstrategies : ∀ ruleType ∈ builtInTypes,
      strategies.get? ruleType = Strategy.standing.get? ruleType) :
    (s.bind c key).Counterpart w' strategies d := by
  have hkey : key = d.key := Option.some.inj (hs.key.symm.trans hd.key)
  have htype : s.ruleType = d.ruleType := Option.some.inj (hs.ruleType.symm.trans hd.ruleType)
  have hoptions : d.options = some s.options := by
    rw [hd.options, hs.message, hs.each, hs.priority]
  refine ⟨⟨hkey, htype, ?_, ?_⟩, ?_, fun ruleType strategy htext hget v name => ?_⟩
  · rw [Declaration.priority, Declaration.priority, hoptions]
    rfl
  · rw [Declaration.each, Declaration.each, hoptions]
    rfl
  · rw [Declaration.override?, Declaration.override?, hd.message, hoptions]
    rfl
  · obtain ⟨typeName, given, hname, hlists, hspells⟩ := hs.constraints
    obtain ⟨typeName', given', hname', hlists', hresolves⟩ := hd.constraints
    obtain ⟨builtIn, hmem, hname''⟩ := hbuilt
    rw [← htype] at hname'
    cases hname.symm.trans hname'
    cases hname.symm.trans hname''
    cases (Lists.constraintsOf.1 hlists).symm.trans (Lists.constraintsOf.1 hlists')
    obtain rfl : typeName = ruleType :=
      Option.some.inj (((hw₁.trans hw').text _ _ hname).symm.trans htext)
    rw [hstrategies typeName hmem] at hget
    -- places beyond the end of what the entry lists
    have hnothing : w.Resolves w₁ typeName .nothing .nothing := .itself (.inl rfl)
    exact Strategy.standing_sameConstraint (Catalog.mem_of_get? hget) (fun i =>
      (hspells i).sameConstraint (forall₂_getD hresolves hnothing i) hw₁ hw') v name

/-! ## Reading entries that describe specifications -/

theorem Spells.exists_resolveConstraint {ruleType : String} {u v : Value}
    (h : w.Spells ruleType u v) (qs : List CompiledPattern) :
    ∃ w₁ made, (w.withPatterns qs).resolveConstraint ruleType u = .ok (w₁, made) := by
  unfold resolveConstraint
  rw [text?_withPatterns]
  cases h with
  | path hr ht hprovides =>
    have hload : (w.withPatterns qs).load u = .ok v :=
      load_withPatterns.2 (load_eq_ok.2 ⟨_, ht, hprovides⟩)
    simp only [ht, if_pos hr, hload]
    exact ⟨_, _, rfl⟩
  | pattern hr ht hparse =>
    have hne : ruleType ≠ "Custom" := fun hc => absurd (hr.symm.trans hc) (by decide)
    simp only [ht, if_neg hne, if_pos hr, makePattern, hparse]
    exact ⟨_, _, rfl⟩
  | itself hself =>
    cases ht : w.heap.text? u with
    | none => exact ⟨_, _, rfl⟩
    | some source =>
      rcases hself with hnone | ⟨hcustom, hmatches⟩
      · rw [hnone] at ht
        cases ht
      · simp only [if_neg hcustom, if_neg hmatches]
        exact ⟨_, _, rfl⟩

theorem exists_resolveConstraints {ruleType : String} {given : List Value}
    (h : ∀ u ∈ given, ∃ v, w.Spells ruleType u v) (qs : List CompiledPattern) :
    ∃ w₁ made, (w.withPatterns qs).resolveConstraints ruleType given = .ok (w₁, made) := by
  induction given generalizing qs with
  | nil => exact ⟨_, _, rfl⟩
  | cons u rest ih =>
    obtain ⟨⟨v, hv⟩, hrest⟩ := List.forall_mem_cons.1 h
    obtain ⟨w₁, made, hu⟩ := hv.exists_resolveConstraint qs
    obtain ⟨ps, rfl, -⟩ := resolveConstraint_ok hu
    obtain ⟨w₂, others, hothers⟩ := ih hrest (qs ++ ps)
    refine ⟨w₂, made :: others, ?_⟩
    rw [resolveConstraints]
    exact Except.bind_eq_ok.2 ⟨_, hu, Except.bind_eq_ok.2 ⟨_, hothers, rfl⟩⟩

theorem Denotes.ne_nothing {v : Value} (h : w.Denotes v c) : v ≠ .nothing := by
  rintro rfl
  rcases h with h | ⟨path, hpath, -⟩
  · cases h
  · cases hpath

theorem DescribesRule.exists_declarationOf (hs : w.DescribesRule w.Lists reference c key entry s)
    (hkey : w.isHashable key = true) (qs : List CompiledPattern) (source : Option String)
    (index : Nat) : ∃ w₁ d, (w.withPatterns qs).declarationOf entry reference source index key
      s.ruleType = .ok (w₁, d) := by
  obtain ⟨typeName, given, hname, hlists, hspells⟩ := hs.constraints
  have hgiven : ∀ u ∈ given, ∃ v, w.Spells typeName u v := by
    intro u hu
    obtain ⟨i, hi⟩ := List.mem_iff_getElem?.1 hu
    have hu := hspells i
    rw [List.getD_eq_getElem?_getD, hi] at hu
    exact ⟨_, hu⟩
  obtain ⟨w₁, made, hmade⟩ := exists_resolveConstraints hgiven qs
  have howner : (w.withPatterns qs).ownerOf ((entry.read? (.ofText "owner")).getD reference) =
      .ok c := ownerOf_eq_ok.2 (denotes_withPatterns.2 hs.owner)
  have hpriority : (w.withPatterns qs).priorityOf entry index key s.ruleType =
      .ok s.options.priority := by
    unfold priorityOf
    rw [hs.priority]
    cases hp : s.options.priority with
    | none => rfl
    | some v =>
      have hreal : (w.withPatterns qs).heap.isReal v = true := by
        rw [isReal_withPatterns, hs.number v hp]
      simp only [hreal, if_true]
      rfl
  refine ⟨w₁, _, declarationOf_eq_ok.2 ⟨typeName, c, s.options.priority, made, ?_, ?_,
    hs.owner.ne_nothing, howner, hpriority, ?_, rfl⟩⟩
  · rw [text?_withPatterns, hname]
  · rw [isHashable_withPatterns, hkey]
  · rw [constraintsOf_withPatterns, Lists.constraintsOf.1 hlists, hmade]

theorem isTrue_of_text? {v : Value} {text : String} (h : w.heap.text? v = some text) :
    w.heap.isTrue v = !text.isEmpty := by
  unfold Heap.text? at h
  split at h
  · rename_i hp
    cases h
    simp only [Heap.isTrue, hp]
  · cases h

theorem IsBuiltIn.isTrue (h : w.IsBuiltIn s) : w.heap.isTrue s.ruleType = true := by
  obtain ⟨ruleType, hmem, htext⟩ := h
  have hne : ∀ ruleType ∈ builtInTypes, (!ruleType.isEmpty) = true := by decide
  rw [isTrue_of_text? htext, hne ruleType hmem]

/-- An entry that describes a specification is read, and not passed over. -/
theorem DescribesRule.exists_readEntry {item : Value} (hitem : w.dict? item = some entry)
    (hs : w.DescribesRule w.Lists reference c key entry s) (hkey : w.isHashable key = true)
    (htrue : w.heap.isTrue key = true) (hbuilt : w.IsBuiltIn s) (qs : List CompiledPattern)
    (source : Option String) (index : Nat) : ∃ ps d,
      (w.withPatterns qs).readEntry item reference source index =
        .ok (.declared (w.withPatterns (qs ++ ps)) d) ∧
      w.Declares (w.withPatterns (qs ++ ps)) reference source index entry d := by
  obtain ⟨w₁, d, hd⟩ := hs.exists_declarationOf hkey qs source index
  obtain ⟨ps, rfl, hdeclares⟩ := declarationOf_ok hs.key hs.ruleType hd
  refine ⟨ps, d, ?_, hdeclares⟩
  have htruth : ((w.withPatterns qs).heap.isTrue key &&
      (w.withPatterns qs).heap.isTrue s.ruleType) = true := by
    rw [isTrue_withPatterns, isTrue_withPatterns, htrue, hbuilt.isTrue]
    rfl
  have hdict : (w.withPatterns qs).dict? item = some entry := by
    rw [dict?_withPatterns, hitem]
  simp only [readEntry, hdict, hs.key, hs.ruleType, Option.getD_some, htruth, if_true, hd]
  rfl

end World

/-- Entries that describe specifications are read one by one. -/
theorem Loading.exists_readEntries {w : World} {reference key : Value} {source : Option String}
    {c : ClassId} {items : List Value} {specs : List RuleSpec} {l : Loading}
    {qs : List CompiledPattern} {index : Nat} (hw : l.world = w.withPatterns qs)
    (hitems : List.Forall₂ (fun item s => ∃ entry, w.dict? item = some entry ∧
      w.DescribesRule w.Lists reference c key entry s) items specs)
    (hkey : w.isHashable key = true) (htrue : w.heap.isTrue key = true)
    (hbuilt : ∀ s ∈ specs, w.IsBuiltIn s) : ∃ l' ds ps,
      readEntries reference source index items l = (l', .ok ds) ∧
      l'.world = w.withPatterns (qs ++ ps) ∧
      List.Forall₂ (fun s d => w.IsBuiltIn s ∧ ∃ i entry,
        w.DescribesRule w.Lists reference c key entry s ∧
          w.Declares l'.world reference source i entry d) specs ds := by
  induction hitems generalizing l qs index with
  | nil => exact ⟨l, [], [], rfl, by rw [hw, List.append_nil], .nil⟩
  | @cons item s rest specs hitem _ ih =>
    obtain ⟨entry, hentry, hs⟩ := hitem
    obtain ⟨hbuilt, hrest⟩ := List.forall_mem_cons.1 hbuilt
    obtain ⟨ps, d, hread, hd⟩ := hs.exists_readEntry hentry hkey htrue hbuilt qs source index
    have hone : readOne reference source index l item =
        .ok ({ l with world := w.withPatterns (qs ++ ps), registry := l.registry.add d }, [d]) := by
      rw [readOne, hw, hread]
      rfl
    obtain ⟨l', ds, ps', hds, hworld, hdeclared⟩ := @ih
      { l with world := w.withPatterns (qs ++ ps), registry := l.registry.add d } (qs ++ ps)
      (index + 1) rfl hrest
    refine ⟨l', d :: ds, ps ++ ps', readEntries_cons_eq_ok.2 ⟨_, _, _, hone, hds, rfl⟩, ?_,
      .cons ⟨hbuilt, index, entry, hs, ?_⟩ hdeclared⟩
    · rw [hworld, List.append_assoc]
    · rw [hworld, World.withPatterns_append]
      exact hd.withPatterns ps'

/-- A configuration that describes specifications is read. -/
theorem Operation.exists_configure {ws : Workspace} {c : ClassId} {key : Value}
    {specs : List RuleSpec} {config : Entries} (registry : String)
    (h : ws.world.Describes ws.world.Lists config c key specs)
    (hkey : ws.world.isHashable key = true)
    (htrue : ws.world.heap.isTrue key = true) (hbuilt : ∀ s ∈ specs, ws.world.IsBuiltIn s) :
    ∃ ds ps, (configure registry config ws).1 = .ok ds ∧
      (configure registry config ws).2.world = ws.world.withPatterns ps ∧
      List.Forall₂ (fun s d => ws.world.IsBuiltIn s ∧ ∃ i entry,
        ws.world.DescribesRule ws.world.Lists (World.ruleOwner config) c key entry s ∧
          ws.world.Declares (ws.world.withPatterns ps) (World.ruleOwner config)
            (ws.world.ruleSource? config) i entry d) specs ds := by
  obtain ⟨items, hitems, hentries⟩ := h.entries
  have hw : (ws.reading registry).world = ws.world.withPatterns [] :=
    (World.withPatterns_nil _).symm
  obtain ⟨next, ds, ps, hnext, hworld, hdescribed⟩ := @Loading.exists_readEntries ws.world
    (World.ruleOwner config) key (ws.world.ruleSource? config) c items specs
    (ws.reading registry) [] 0 hw hentries hkey htrue hbuilt
  rw [List.nil_append] at hworld
  rw [hworld] at hdescribed
  have hread : (ws.reading registry).readNamed config =
      ({ next with log := next.log ++ [.registered ds.length next.registry.name] }, .ok ds) :=
    Loading.readNamed_eq_ok.2 ⟨h.names, items, next, hitems, hnext, rfl⟩
  refine ⟨ds, ps, ?_, ?_, hdescribed⟩
  · rw [configure, loading_eq, hread]
  · rw [configure, loading_eq, hread]
    exact hworld

/-! ## Registries -/

/-- Declaring rules for a class. -/
theorem Operation.declare_eq (registry : String) (c : ClassId) (key : Value)
    (specs : List RuleSpec) (ws : Workspace) :
    declare registry (.ofClass c) key specs ws = (.ok (), { ws with
      registries := ws.registries.put registry
        ((ws.registry registry).addAll (specs.map fun s => s.bind c key)) }) := rfl

/-- Counterparts of all declarations of all classes. -/
def Registry.Counterpart (w : World) (strategies : StrategyRegistry) (r r' : Registry) : Prop :=
  ∀ c, List.Forall₂ (Declaration.Counterpart w strategies) (r.rulesOf c) (r'.rulesOf c)

/-- Registries with the same rules still correspond with counterparts added. -/
theorem Registry.counterpart_addAll {w : World} {strategies : StrategyRegistry} {r r' : Registry}
    {ds ds' : List Declaration} (hrules : ∀ c, r.rulesOf c = r'.rulesOf c)
    (h : List.Forall₂ (fun d d' => d.owner = d'.owner ∧ d.Counterpart w strategies d') ds ds') :
    (r.addAll ds).Counterpart w strategies (r'.addAll ds') := by
  intro c
  rw [rulesOf_addAll, rulesOf_addAll, hrules]
  refine List.rel_append (List.forall₂_same.2 fun d _ => .refl d) ?_
  have hfilter : List.Forall₂ (fun d d' => d.owner = d'.owner ∧ d.Counterpart w strategies d')
      (ds.filter (·.owner = c)) (ds'.filter (·.owner = c)) :=
    List.rel_filter (fun d d' hd => by
      have howner : d.owner = d'.owner := hd.1
      simp [howner]) h
  exact hfilter.imp fun _ _ hd => hd.2

/-! ## Engines -/

namespace Workspace

/-- The engine takes its rules from the registry, it has the standing strategies of the rule types
that always mean the same, and the plans that it keeps are those that it would make. -/
structure Runs (ws : Workspace) (engine registry : String) : Prop where
  rules : (ws.engine engine).rules = registry
  strategies : ∀ ruleType ∈ builtInTypes,
    (ws.strategyRegistry (ws.engine engine).strategies).get? ruleType =
      Strategy.standing.get? ruleType
  plans : ∀ c plan, (ws.engine engine).plans.get? c = some plan →
    (ws.world.compile (ws.strategyRegistry (ws.engine engine).strategies) c
      ((ws.registry registry).rulesOf c)).2 = .ok plan

/-- Engines that work with the one registry or the other, and with the same strategies, come to the
same reports on any value but for locations, or fail alike. -/
def Agree (ws : Workspace) (registry registry' : String) : Prop :=
  ∀ engine engine', ws.Runs engine registry → ws.Runs engine' registry' →
    (ws.engine engine).strategies = (ws.engine engine').strategies → ∀ v options,
    (Operation.validate engine v options ws).1.map Report.unlocatedAll =
      (Operation.validate engine' v options ws).1.map Report.unlocatedAll

theorem Runs.supply_eq {ws : Workspace} {engine registry : String} (h : ws.Runs engine registry)
    (c : ClassId) : ws.supply engine c =
      (ws.world.compile (ws.strategyRegistry (ws.engine engine).strategies) c
        ((ws.registry registry).rulesOf c)).2 := by
  unfold supply Setup.supply
  cases hp : (ws.engine engine).plans.get? c with
  | some plan => exact (h.plans c plan hp).symm
  | none =>
    rw [← h.rules]
    rfl

/-- Registries with counterparts make no difference but for locations. -/
theorem agree_of_counterpart {ws : Workspace} {registry registry' : String}
    (h : ∀ strategies : StrategyRegistry, (∀ ruleType ∈ builtInTypes,
        strategies.get? ruleType = Strategy.standing.get? ruleType) →
      (ws.registry registry).Counterpart ws.world strategies (ws.registry registry')) :
    ws.Agree registry registry' := by
  intro engine engine' hruns hruns' hsame v options
  have hcounterpart := h _ hruns.strategies
  have hsupply : ∀ c, Alike (Plan.Peer ws.world (ws.strategyRegistry (ws.engine engine).strategies)
      (Declaration.Counterpart ws.world (ws.strategyRegistry (ws.engine engine).strategies)))
      (ws.supply engine c) (ws.supply engine' c) := by
    intro c
    rw [hruns.supply_eq, hruns'.supply_eq, ← hsame]
    exact World.compile_peers (fun d d' hd => hd.peer) (hcounterpart c)
  rw [Operation.validate_fst, Operation.validate_fst]
  cases ws.world.settingsOf options with
  | error fault => rfl
  | ok settings =>
    have hsurvey := World.survey_unlocated hsupply settings.abortEarly [] v
    dsimp only
    generalize (ws.world.survey settings.abortEarly (ws.supply engine) [] v).outcome = x
      at hsurvey ⊢
    generalize (ws.world.survey settings.abortEarly (ws.supply engine') [] v).outcome = y
      at hsurvey ⊢
    cases hsurvey with
    | error fault => rfl
    | ok h => exact congrArg Except.ok h

/-- The same rules are given twice: as specifications for one registry, and as a configuration for
another one that has the same rules so far. How its entries list constraints is given. -/
structure GivenTwice (ws : Workspace) (lists : Option Value → List Value → Prop)
    (built configured : String) (c : ClassId) (key : Value) (specs : List RuleSpec)
    (config : Entries) : Prop where
  distinct : built ≠ configured
  before : ∀ c, (ws.registry built).rulesOf c = (ws.registry configured).rulesOf c
  hashable : ws.world.isHashable key = true
  builtIn : ∀ s ∈ specs, ws.world.IsBuiltIn s
  described : ws.world.Describes lists config c key specs

end Workspace

/-- Declaring the specifications in the one registry and reading the configuration into the other
both succeed, and it makes no difference which of them an engine works with: in every later
workspace in which they have not changed, whatever has become of objects other than texts and
patterns, engines agree but for locations. -/
def Workspace.Interchangeable (ws : Workspace) (built configured : String) (c : ClassId)
    (key : Value) (specs : List RuleSpec) (config : Entries) : Prop :=
  let declared := Operation.declare built (.ofClass c) key specs ws
  let read := Operation.configure configured config declared.2
  declared.1 = .ok () ∧ (∃ ds, read.1 = .ok ds) ∧
    ∀ later : Workspace, read.2.world.Retains later.world →
      later.registry built = read.2.registry built →
      later.registry configured = read.2.registry configured → later.Agree built configured

/-- Rules that are built and rules that are configured come to the same, if the property that they
are about counts as true. -/
theorem Workspace.interchangeable_of_givenTwice {ws : Workspace} {built configured : String}
    {c : ClassId} {key : Value} {specs : List RuleSpec} {config : Entries}
    (h : ws.GivenTwice ws.world.Lists built configured c key specs config)
    (htrue : ws.world.heap.isTrue key = true) :
    ws.Interchangeable built configured c key specs config := by
  unfold Interchangeable
  intro declared read
  have hdeclared : ∀ name, declared.2.registry name =
      if built = name then (ws.registry built).addAll (specs.map fun s => s.bind c key)
      else ws.registry name := fun name => ws.registry_put built name _
  obtain ⟨ds, ps, hread, hworld, hdescribed⟩ := @Operation.exists_configure declared.2 c key specs
    config configured h.described h.hashable htrue h.builtIn
  have hbuilt : read.2.registry built =
      (ws.registry built).addAll (specs.map fun s => s.bind c key) := by
    rw [Operation.registry_configure_other h.distinct.symm, hdeclared, if_pos rfl]
  have hconfigured : read.2.registry configured = (ws.registry configured).addAll ds := by
    rw [Operation.registry_configure_ok hread, hdeclared, if_neg h.distinct]
  refine ⟨rfl, ⟨ds, hread⟩, fun later hretains hsame hsame' => ?_⟩
  refine agree_of_counterpart fun strategies hstrategies => ?_
  rw [hsame, hsame', hbuilt, hconfigured]
  refine Registry.counterpart_addAll h.before ?_
  rw [List.forall₂_map_left_iff]
  refine hdescribed.imp fun s d hsd => ?_
  obtain ⟨hs, i, entry, hdescribes, hdeclares⟩ := hsd
  refine ⟨hdescribes.owner.unique hdeclares.owner, ?_⟩
  exact World.counterpart_of_describes hdescribes hdeclares hs
    (World.retains_withPatterns ws.world ps) (hworld ▸ hretains) hstrategies

/-- Right after declaring and reading, engines agree. -/
theorem Workspace.Interchangeable.agree {ws : Workspace} {built configured : String} {c : ClassId}
    {key : Value} {specs : List RuleSpec} {config : Entries}
    (h : ws.Interchangeable built configured c key specs config) :
    (Operation.configure configured config
      (Operation.declare built (.ofClass c) key specs ws).2).2.Agree built configured := by
  obtain ⟨-, -, hlater⟩ := h
  exact hlater _ (.refl _) rfl rfl

/-! ## The ring with rules that are given twice -/

namespace Ring

/-- The object of an entry. -/
def entryObject (entry : Entries) : Object := ⟨.builtin .mapping, .mapping entry, [], []⟩

/-- The object of the list of the entries, which come right behind it. -/
def listObject (entries : List Entries) : Object :=
  ⟨.builtin .list, .list (entries.mapIdx fun i _ => .object (3 + i)).toArray, [], []⟩

/-- The nodes, the list of the entries, the entries and other objects, with an engine for each of
two registries. -/
def twofold (entries : List Entries) (others : List Object) : Workspace where
  world := { world with
    heap := world.heap ++ (listObject entries :: (entries.map entryObject ++ others)).toArray }
  registries := []
  strategyRegistries := []
  engines := [("first", ⟨"built", "strategies", []⟩), ("second", ⟨"configured", "strategies", []⟩)]
  log := []

/-- The configuration of the list of entries. -/
def nodeConfig : Entries :=
  [(.ofText "owner", (.text "owner", .ofClass (.declared 0))),
    (.ofText "rules", (.text "rules", .object 2))]

/-- An entry about a property, with further items. -/
def nodeEntry (key : Value) (ruleType : String) (others : Entries) : Entries :=
  (.ofText "property", (.text "property", key)) ::
    (.ofText "type", (.text "type", .text ruleType)) :: others

/-- A specification without options. -/
def nodeSpec (ruleType : String) (constraints : List Value) : RuleSpec :=
  ⟨.text ruleType, constraints, ⟨none, false, none⟩, none⟩

/-- The workspace when the rules have been declared and the configuration has been read. -/
def twofoldAfter (key : Value) (specs : List RuleSpec) (entries : List Entries)
    (others : List Object) : Workspace :=
  (Operation.configure "configured" nodeConfig
    (Operation.declare "built" (.ofClass (.declared 0)) key specs (twofold entries others)).2).2

theorem engines_twofold (key : Value) (specs : List RuleSpec) (entries : List Entries)
    (others : List Object) :
    (twofoldAfter key specs entries others).engines = (twofold [] []).engines := by
  rw [twofoldAfter, Operation.configure, Operation.loading_eq, Operation.declare_eq]
  rfl

theorem runs_twofold (key : Value) (specs : List RuleSpec) (entries : List Entries)
    (others : List Object) :
    (twofoldAfter key specs entries others).Runs "first" "built" ∧
      (twofoldAfter key specs entries others).Runs "second" "configured" := by
  have hengines := engines_twofold key specs entries others
  have hstrategies : (twofoldAfter key specs entries others).strategyRegistries = [] := by
    rw [twofoldAfter, Operation.configure, Operation.loading_eq, Operation.declare_eq]
    rfl
  generalize twofoldAfter key specs entries others = ws at hengines hstrategies ⊢
  have hfirst : ws.engine "first" = ⟨"built", "strategies", []⟩ := by
    rw [Workspace.engine, hengines]
    rfl
  have hsecond : ws.engine "second" = ⟨"configured", "strategies", []⟩ := by
    rw [Workspace.engine, hengines]
    rfl
  have hregistry : ws.strategyRegistry "strategies" = .initial "strategies" true := by
    rw [Workspace.strategyRegistry, hstrategies]
    rfl
  refine ⟨⟨by rw [hfirst], fun ruleType _ => ?_, fun c plan hp => ?_⟩,
    ⟨by rw [hsecond], fun ruleType _ => ?_, fun c plan hp => ?_⟩⟩
  · rw [hfirst, hregistry]
    rfl
  · rw [hfirst] at hp
    cases hp
  · rw [hsecond, hregistry]
    rfl
  · rw [hsecond] at hp
    cases hp

/-- A pattern that is spelled out, and a length without its second bound. -/
def labelEntries : List Entries :=
  [nodeEntry (.text "label") "Matches"
      [(.ofText "constraints", (.text "constraints", .text "^[a-z]+$")),
        (.ofText "message", (.text "message", .text "One word, please"))],
    nodeEntry (.text "label") "Length" [(.ofText "constraints", (.text "constraints", .int 3))]]

/-- The same rules as they are built. -/
def labelSpecs : List RuleSpec :=
  [⟨.text "Matches", [.text "^[a-z]+$"], ⟨some (.text "One word, please"), false, none⟩, none⟩,
    nodeSpec "Length" [.int 3, .nothing]]

theorem parse_label : ∃ node flags, Pattern.parse "^[a-z]+$" = .ok (node, flags) := by
  have hsome : (Pattern.parse "^[a-z]+$").toOption.isSome = true := by decide +kernel
  obtain ⟨⟨node, flags⟩, hparse⟩ := Option.isSome_iff_exists.1 hsome
  exact ⟨node, flags, Except.toOption_eq_some.1 hparse⟩

theorem givenTwice_label : (twofold labelEntries []).GivenTwice
    (twofold labelEntries []).world.Lists "built" "configured" (.declared 0) (.text "label")
    labelSpecs nodeConfig where
  distinct := by decide
  before _ := rfl
  hashable := rfl
  builtIn := List.forall_mem_cons.2
    ⟨Builder.isBuiltIn_of_build "Matches" (by decide) rfl [.text "^[a-z]+$"] rfl _,
      List.forall_mem_singleton.2
        (Builder.isBuiltIn_of_build "Length" (by decide) rfl [.int 3] rfl _)⟩
  described := {
    names := rfl
    entries := by
      obtain ⟨node, flags, hparse⟩ := parse_label
      refine ⟨[.object 3, .object 4], rfl, .cons ⟨_, World.dict?_of_object? rfl, ?_⟩
        (.cons ⟨_, World.dict?_of_object? rfl, ?_⟩ .nil)⟩
      · refine ⟨rfl, rfl, .inl rfl, ⟨"Matches", [.text "^[a-z]+$"], rfl,
          .single_of_none rfl, fun i => ?_⟩, rfl, rfl, rfl, nofun⟩
        match i with
        | 0 => exact .pattern rfl rfl hparse (World.patternOf_text rfl hparse)
        | i + 1 => exact .itself (.inl rfl)
      · refine ⟨rfl, rfl, .inl rfl, ⟨"Length", [.int 3], rfl, .single_of_none rfl,
          fun i => ?_⟩, rfl, rfl, rfl, nofun⟩
        match i with
        | 0 => exact .itself (.inl rfl)
        | 1 => exact .itself (.inl rfl)
        | i + 2 => exact .itself (.inl rfl) }

end Ring

theorem Workspace.interchangeable_of_givenTwice_label :
    (Ring.twofold Ring.labelEntries []).GivenTwice (Ring.twofold Ring.labelEntries []).world.Lists
      "built" "configured" (.declared 0) (.text "label") Ring.labelSpecs Ring.nodeConfig ∧
    (Ring.twofold Ring.labelEntries []).world.heap.isTrue (.text "label") = true ∧
    (Ring.twofold Ring.labelEntries []).Interchangeable "built" "configured" (.declared 0)
      (.text "label") Ring.labelSpecs Ring.nodeConfig ∧
    ∃ ws : Workspace, ws.Agree "built" "configured" ∧
      ws.Runs "first" "built" ∧ ws.Runs "second" "configured" := by
  have htrue : (Ring.twofold Ring.labelEntries []).world.heap.isTrue (.text "label") = true := rfl
  have h := interchangeable_of_givenTwice Ring.givenTwice_label htrue
  have hagree : (Ring.twofoldAfter (.text "label") Ring.labelSpecs Ring.labelEntries []).Agree
      "built" "configured" := h.agree
  obtain ⟨hfirst, hsecond⟩ :=
    Ring.runs_twofold (.text "label") Ring.labelSpecs Ring.labelEntries []
  exact ⟨Ring.givenTwice_label, htrue, h, _, hagree, hfirst, hsecond⟩

/-! ## Keys that count as nothing, and tuples by themselves -/

namespace Ring

/-- One rule on the property zero. -/
def zeroEntries : List Entries := [nodeEntry (.int 0) "IsString" []]

theorem givenTwice_zero : (twofold zeroEntries []).GivenTwice
    (twofold zeroEntries []).world.Lists "built" "configured" (.declared 0) (.int 0)
    [nodeSpec "IsString" []] nodeConfig where
  distinct := by decide
  before _ := rfl
  hashable := rfl
  builtIn := List.forall_mem_singleton.2 ⟨"IsString", by decide, rfl⟩
  described := {
    names := rfl
    entries := by
      refine ⟨[.object 3], rfl, .cons ⟨_, World.dict?_of_object? rfl, ?_⟩ .nil⟩
      exact ⟨rfl, rfl, .inl rfl, ⟨"IsString", [], rfl, .absent, fun _ => .itself (.inl rfl)⟩,
        rfl, rfl, rfl, nofun⟩ }

/-- A tuple of the number zero. -/
def zeroTuple : Object := ⟨.builtin .tuple, .tuple #[.int 0], [], []⟩

/-- A rule with that tuple for its only constraint. -/
def tupleEntries : List Entries :=
  [nodeEntry (.text "label") "Min" [(.ofText "constraints", (.text "constraints", .object 4))]]

theorem givenTwice_tuple : (twofold tupleEntries [zeroTuple]).GivenTwice
    (twofold tupleEntries [zeroTuple]).world.ListsBare "built" "configured" (.declared 0)
    (.text "label") [nodeSpec "Min" [.object 4]] nodeConfig where
  distinct := by decide
  before _ := rfl
  hashable := rfl
  builtIn := List.forall_mem_singleton.2 ⟨"Min", by decide, rfl⟩
  described := {
    names := rfl
    entries := by
      refine ⟨[.object 3], rfl, .cons ⟨_, World.dict?_of_object? rfl, ?_⟩ .nil⟩
      refine ⟨rfl, rfl, .inl rfl, ⟨"Min", [.object 4], rfl, .single nofun, fun i => ?_⟩,
        rfl, rfl, rfl, nofun⟩
      match i with
      | 0 => exact .itself (.inl rfl)
      | i + 1 => exact .itself (.inl rfl) }

/-- What engines that agree report of the first node. -/
theorem reports_eq_of_agree {key : Value} {specs : List RuleSpec} {entries : List Entries}
    {others : List Object}
    (h : (twofoldAfter key specs entries others).Agree "built" "configured") :
    let report (engine : String) :=
      (Operation.validate engine (.object 0) .nothing (twofoldAfter key specs entries others)).1
    (report "first").map Report.unlocatedAll = (report "second").map Report.unlocatedAll := by
  obtain ⟨hfirst, hsecond⟩ := runs_twofold key specs entries others
  have hsame : ((twofoldAfter key specs entries others).engine "first").strategies =
      ((twofoldAfter key specs entries others).engine "second").strategies := by
    rw [Workspace.engine, Workspace.engine, engines_twofold]
    rfl
  exact h "first" "second" hfirst hsecond hsame (.object 0) .nothing

end Ring

/-- Entries about a property that does not count as true are passed over, but specifications are
not; and a tuple that is the only constraint of a specification lists its elements in an entry, so
it cannot stand there by itself. -/
theorem Workspace.not_interchangeable_of_givenTwice :
    (¬∀ (ws : Workspace) (built configured : String) (c : ClassId) (key : Value)
      (specs : List RuleSpec) (config : Entries),
      ws.GivenTwice ws.world.Lists built configured c key specs config →
        ws.Interchangeable built configured c key specs config) ∧
    ¬∀ (ws : Workspace) (built configured : String) (c : ClassId) (key : Value)
      (specs : List RuleSpec) (config : Entries),
      ws.GivenTwice ws.world.ListsBare built configured c key specs config →
        ws.world.heap.isTrue key = true →
          ws.Interchangeable built configured c key specs config := by
  refine ⟨fun h => ?_, fun h => ?_⟩
  · have hagree : (Ring.twofoldAfter (.int 0) [Ring.nodeSpec "IsString" []] Ring.zeroEntries
        []).Agree "built" "configured" := (h _ _ _ _ _ _ _ Ring.givenTwice_zero).agree
    have hlength := congrArg (fun r => r.toOption.map List.length)
      (Ring.reports_eq_of_agree hagree)
    revert hlength
    decide +kernel
  · have hagree : (Ring.twofoldAfter (.text "label") [Ring.nodeSpec "Min" [.object 4]]
        Ring.tupleEntries [Ring.zeroTuple]).Agree "built" "configured" :=
      (h _ _ _ _ _ _ _ Ring.givenTwice_tuple rfl).agree
    have hlength := congrArg (fun r => r.toOption.map List.length)
      (Ring.reports_eq_of_agree hagree)
    revert hlength
    decide +kernel

end Rulebook
