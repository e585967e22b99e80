import Rulebook.Proofs.Hashability
import Rulebook.Proofs.Importing
import Rulebook.Proofs.Loading

/-!
# Configurations that are read to their end

A reading that ends well has passed over the entries that are no dictionaries or lack a property or
a type (`World.skipNote?`), noting each of them, and has made a declaration of every other entry, in
order. What a declaration has from its entry is told by `World.Declares`, independently of how the
entry is read: texts among the constraints of two rule types stand for something else
(`World.Resolves`), and the place of an entry is its place among all of them.

Reading makes objects of patterns and leaves the world as it is otherwise (`World.withPatterns`). An
entry that is read after others cannot tell the difference, so what it declares is told from the
world before the reading.
-/

set_option autoImplicit false

namespace Rulebook

namespace World

/-! ## Worlds with further patterns -/

/-- The object of a pattern. -/
def patternObject (p : CompiledPattern) : Object := ⟨.builtin .pattern, .pattern p, [], []⟩

/-- The world with objects for further patterns. -/
def withPatterns (w : World) (ps : List CompiledPattern) : World :=
  { w with heap := w.heap ++ (ps.map patternObject).toArray }

variable {w w' : World} {ps qs : List CompiledPattern} {v : Value}

theorem withPatterns_nil (w : World) : w.withPatterns [] = w := by
  simp [withPatterns]

theorem withPatterns_append (w : World) (ps qs : List CompiledPattern) :
    w.withPatterns (ps ++ qs) = (w.withPatterns ps).withPatterns qs := by
  simp [withPatterns, Array.append_assoc]

theorem grows_withPatterns (w : World) (ps : List CompiledPattern) :
    w.Grows (w.withPatterns ps) := by
  refine ⟨fun v o ho => ?_, fun _ => rfl⟩
  cases v with
  | object a =>
    obtain ⟨ha, -⟩ := Array.getElem?_eq_some_iff.1 ho
    have hold : (w.withPatterns ps).heap[a]? = w.heap[a]? := Array.getElem?_append_left ha
    exact hold.trans ho
  | _ => cases ho

/-- Where there was no object, there is that of a pattern at most. -/
theorem object?_withPatterns (w : World) (ps : List CompiledPattern) (v : Value) :
    (w.withPatterns ps).heap.object? v = w.heap.object? v ∨ w.heap.object? v = none ∧
      ∃ p, (w.withPatterns ps).heap.object? v = some (patternObject p) := by
  cases h : w.heap.object? v with
  | some o => exact .inl ((w.grows_withPatterns ps).objects v o h)
  | none =>
    cases v with
    | object a =>
      have hle : w.heap.size ≤ a := Array.getElem?_eq_none_iff.1 h
      have hnew : (w.withPatterns ps).heap[a]? = (ps[a - w.heap.size]?).map patternObject := by
        rw [withPatterns, Array.getElem?_append_right hle, List.getElem?_toArray, List.getElem?_map]
      cases hp : ps[a - w.heap.size]? with
      | none => exact .inl (by rw [Heap.object?, hnew, hp]; rfl)
      | some p => exact .inr ⟨rfl, p, by rw [Heap.object?, hnew, hp]; rfl⟩
    | _ => exact .inl rfl

theorem pattern?_withPatterns {p : CompiledPattern} (h : w.heap.pattern? v = some p) :
    (w.withPatterns ps).heap.pattern? v = some p := by
  unfold Heap.pattern? at h ⊢
  split at h
  · rename_i hc
    rw [(w.grows_withPatterns ps).content? hc]
    exact h
  · cases h

/-- Making the object of a pattern. -/
theorem makeContent_pattern (w : World) (p : CompiledPattern) :
    w.makeContent .pattern (.pattern p) = (w.withPatterns [p], .object w.heap.size) := by
  simp [makeContent, make, Heap.make, withPatterns, patternObject]

theorem pattern?_withPatterns_self (w : World) (p : CompiledPattern) :
    (w.withPatterns [p]).heap.pattern? (.object w.heap.size) = some p := by
  have ho : (w.withPatterns [p]).heap[w.heap.size]? = some (patternObject p) := by
    simp [withPatterns]
  simp only [Heap.pattern?, Heap.content?, Heap.object?, ho]
  rfl

section
variable (w ps)

theorem plain_withPatterns (v : Value) : (w.withPatterns ps).heap.plain v = w.heap.plain v := by
  unfold Heap.plain Heap.content?
  rcases object?_withPatterns w ps v with h | ⟨h, p, hp⟩
  · rw [h]
  · rw [h, hp]
    rfl

theorem text?_withPatterns (v : Value) : (w.withPatterns ps).heap.text? v = w.heap.text? v := by
  rw [Heap.text?, Heap.text?, plain_withPatterns]

theorem isReal_withPatterns (v : Value) :
    (w.withPatterns ps).heap.isReal v = w.heap.isReal v := by
  rw [Heap.isReal, Heap.isReal, Heap.real?, Heap.real?, plain_withPatterns]

theorem mapping?_withPatterns (v : Value) :
    (w.withPatterns ps).heap.mapping? v = w.heap.mapping? v := by
  unfold Heap.mapping? Heap.content?
  rcases object?_withPatterns w ps v with h | ⟨h, p, hp⟩
  · rw [h]
  · rw [h, hp]
    rfl

theorem classOf_withPatterns {v : Value}
    (h : (w.withPatterns ps).heap.object? v = w.heap.object? v) :
    (w.withPatterns ps).classOf v = w.classOf v := by
  cases v with
  | object a =>
    have ho : (w.withPatterns ps).heap[a]? = w.heap[a]? := h
    simp only [classOf, Heap.classOf, ho]
  | _ => rfl

theorem dict?_withPatterns (v : Value) : (w.withPatterns ps).dict? v = w.dict? v := by
  rw [dict?, dict?, mapping?_withPatterns]
  rcases object?_withPatterns w ps v with h | ⟨h, -⟩
  · rw [isDict, isDict, classOf_withPatterns w ps h]
    rfl
  · have hm : w.heap.mapping? v = none := by
      rw [Heap.mapping?, Heap.content?, h]
      rfl
    rw [hm, ite_self, ite_self]

theorem isTrue_withPatterns (v : Value) :
    (w.withPatterns ps).heap.isTrue v = w.heap.isTrue v := by
  unfold Heap.isTrue
  rw [plain_withPatterns]
  cases w.heap.plain v with
  | object a =>
    rcases object?_withPatterns w ps (.object a) with h | ⟨h, p, hp⟩
    · simp only [show (w.withPatterns ps).heap[a]? = w.heap[a]? from h]
    · simp only [show (w.withPatterns ps).heap[a]? = some (patternObject p) from hp,
        show w.heap[a]? = none from h]
      rfl
  | _ => rfl

theorem isHashable_withPatterns (v : Value) :
    (w.withPatterns ps).isHashable v = w.isHashable v := by
  rw [isHashable, isHashable, plain_withPatterns, Heap.content?, Heap.content?]
  rcases object?_withPatterns w ps v with h | ⟨h, p, hp⟩
  · rw [h, classOf_withPatterns w ps h]
    rfl
  · cases v with
    | object a =>
      have ho : w.heap[a]? = none := h
      have hnew : (w.withPatterns ps).heap[a]? = some (patternObject p) := hp
      rw [h, hp]
      simp only [classOf, Heap.classOf, ho, hnew]
      rfl
    | _ => rfl

theorem constraintsOf_withPatterns (entry : Entries) :
    (w.withPatterns ps).constraintsOf entry = w.constraintsOf entry := by
  unfold constraintsOf Heap.content?
  cases entry.read? (.ofText "constraints") with
  | none => rfl
  | some v =>
    rcases object?_withPatterns w ps v with h | ⟨h, p, hp⟩
    · simp only [h]
    · simp only [h, hp]
      rfl

end

theorem load_withPatterns {path : Value} :
    (w.withPatterns ps).load path = .ok v ↔ w.load path = .ok v := by
  simp only [load_eq_ok, text?_withPatterns]
  rfl

/-- The entries of an object that is a dictionary. -/
theorem dict?_of_object? {entries fields : Entries} {slots : Catalog String Value}
    (h : w.heap.object? v = some ⟨.builtin .mapping, .mapping entries, fields, slots⟩) :
    w.dict? v = some entries := by
  cases v with
  | object a =>
    have hclass : w.classOf (.object a) = .builtin .mapping := by
      have ho : w.heap[a]? = some _ := h
      simp only [classOf, Heap.classOf, ho]
    have hdict : w.isDict (.object a) = true := by
      rw [isDict, hclass]
      exact (by decide : (Builtin.mapping.ancestry.map ClassId.builtin).contains
        (.builtin .mapping) = true)
    rw [dict?, if_pos hdict, Heap.mapping?, Heap.content?, h]
    rfl
  | _ => cases h

/-! ## What entries ask for -/

/-- The reference stands for the class: it is the class, or a path that leads to it. -/
def Denotes (w : World) (reference : Value) (c : ClassId) : Prop :=
  reference = .ofClass c ∨
    ∃ path, w.heap.text? reference = some path ∧ w.Provides path (.ofClass c)

theorem denotes_withPatterns {reference : Value} {c : ClassId} :
    (w.withPatterns ps).Denotes reference c ↔ w.Denotes reference c := by
  simp only [Denotes, text?_withPatterns]
  rfl

/-- The constraints that an entry lists. -/
inductive Lists (w : World) : Option Value → List Value → Prop
  | absent : Lists w none []
  | list {v : Value} {items : Array Value} :
      w.heap.content? v = some (.list items) → Lists w (some v) items.toList
  | tuple {v : Value} {items : Array Value} :
      w.heap.content? v = some (.tuple items) → Lists w (some v) items.toList
  | single {v : Value} : (∀ items, w.heap.content? v ≠ some (.list items)) →
      (∀ items, w.heap.content? v ≠ some (.tuple items)) → Lists w (some v) [v]

theorem Lists.single_of_none {v : Value} (h : w.heap.content? v = none) :
    w.Lists (some v) [v] := by
  refine .single (fun items hc => ?_) fun items hc => ?_
  · rw [h] at hc
    cases hc
  · rw [h] at hc
    cases hc

/-- What a constraint of an entry stands for: what a path leads to, a pattern that is spelled out,
or itself. Patterns are objects of the world `w'` after the reading. -/
inductive Resolves (w w' : World) (ruleType : String) : Value → Value → Prop
  | loaded {v u : Value} {path : String} : ruleType = "Custom" → w.heap.text? v = some path →
      w.Provides path u → Resolves w w' ruleType v u
  | compiled {v pattern : Value} {source : String} {node : Pattern.Node} {flags : Pattern.Flags} :
      ruleType = "Matches" → w.heap.text? v = some source →
      Pattern.parse source = .ok (node, flags) →
      w'.heap.pattern? pattern = some ⟨source, node, flags⟩ → Resolves w w' ruleType v pattern
  | itself {v : Value} : w.heap.text? v = none ∨ ruleType ≠ "Custom" ∧ ruleType ≠ "Matches" →
      Resolves w w' ruleType v v

namespace Resolves

variable {ruleType source : String} {v u : Value}

/-- Paths to checks are followed. -/
theorem load_eq (h : w.Resolves w' ruleType v u) (hr : ruleType = "Custom")
    (hv : (w.heap.text? v).isSome = true) : w.load v = .ok u := by
  cases h with
  | loaded _ hpath hprovides => exact load_eq_ok.2 ⟨_, hpath, hprovides⟩
  | compiled hmatches => exact absurd (hr.symm.trans hmatches) (by decide)
  | itself hself =>
    rcases hself with hnone | ⟨hne, -⟩
    · rw [hnone] at hv
      cases hv
    · exact absurd hr hne

/-- Patterns that are spelled out are read. -/
theorem parse_eq (h : w.Resolves w' ruleType v u) (hr : ruleType = "Matches")
    (hv : w.heap.text? v = some source) : ∃ node flags,
      Pattern.parse source = .ok (node, flags) ∧
        w'.heap.pattern? u = some ⟨source, node, flags⟩ := by
  cases h with
  | loaded hcustom => exact absurd (hcustom.symm.trans hr) (by decide)
  | compiled _ hsource hparse hu =>
    cases hv.symm.trans hsource
    exact ⟨_, _, hparse, hu⟩
  | itself hself =>
    rcases hself with hnone | ⟨-, hne⟩
    · rw [hnone] at hv
      cases hv
    · exact absurd hr hne

/-- All else stands for itself. -/
theorem eq_self (h : w.Resolves w' ruleType v u)
    (hv : w.heap.text? v = none ∨ ruleType ≠ "Custom" ∧ ruleType ≠ "Matches") : u = v := by
  cases h with
  | loaded hr ht =>
    rcases hv with hnone | ⟨hne, -⟩
    · rw [hnone] at ht
      cases ht
    · exact absurd hr hne
  | compiled hr ht =>
    rcases hv with hnone | ⟨-, hne⟩
    · rw [hnone] at ht
      cases ht
    · exact absurd hr hne
  | itself => rfl

end Resolves

/-- The declaration is the one that an entry at a place asks for, read after the world `w` with a
class and a source that hold for all entries. -/
structure Declares (w w' : World) (reference : Value) (source : Option String) (index : Nat)
    (entry : Entries) (d : Declaration) : Prop where
  key : entry.read? (.ofText "property") = some d.key
  ruleType : entry.read? (.ofText "type") = some d.ruleType
  /-- The class of the entry itself comes first. -/
  owner : w.Denotes ((entry.read? (.ofText "owner")).getD reference) d.owner
  constraints : ∃ typeName given, w.heap.text? d.ruleType = some typeName ∧
    w.Lists (entry.read? (.ofText "constraints")) given ∧
    List.Forall₂ (w.Resolves w' typeName) given d.constraints
  message : d.message = none
  options : d.options = some
    { message := (entry.read? (.ofText "message")).bind Value.present?
      each := (entry.read? (.ofText "each")).any w.heap.isTrue
      priority := (entry.read? (.ofText "priority")).bind Value.present? }
  location : d.location = source.map fun s => s ++ "#rules[" ++ toString index ++ "]"

/-- The warning about an entry that is passed over. -/
def skipNote? (w : World) (x : Value × Nat) : Option Record :=
  match w.dict? x.1 with
  | none => some (.malformedEntry x.2)
  | some entry =>
    if (entry.read? (.ofText "property")).any w.heap.isTrue ∧
        (entry.read? (.ofText "type")).any w.heap.isTrue then none
    else some (.incompleteEntry x.2)

theorem isTrue_getD (w : World) (v? : Option Value) :
    w.heap.isTrue (v?.getD .nothing) = v?.any w.heap.isTrue := by
  cases v? <;> rfl

/-- The entries that are not passed over. -/
theorem skipNote?_eq_none {x : Value × Nat} : w.skipNote? x = none ↔
    ∃ entry key ruleType, w.dict? x.1 = some entry ∧
      entry.read? (.ofText "property") = some key ∧ w.heap.isTrue key = true ∧
      entry.read? (.ofText "type") = some ruleType ∧ w.heap.isTrue ruleType = true := by
  unfold skipNote?
  cases w.dict? x.1 with
  | none => simp
  | some entry =>
    simp only [Option.any_eq_true, ite_eq_left_iff, reduceCtorEq, imp_false, not_not,
      Option.some.injEq]
    constructor
    · rintro ⟨⟨key, hkey, hk⟩, ruleType, htype, ht⟩
      exact ⟨entry, key, ruleType, rfl, hkey, hk, htype, ht⟩
    · rintro ⟨_, key, ruleType, rfl, hkey, hk, htype, ht⟩
      exact ⟨⟨key, hkey, hk⟩, ruleType, htype, ht⟩

theorem skipNote?_withPatterns (x : Value × Nat) :
    (w.withPatterns ps).skipNote? x = w.skipNote? x := by
  have htrue : (w.withPatterns ps).heap.isTrue = w.heap.isTrue :=
    funext fun v => isTrue_withPatterns w ps v
  rw [skipNote?, skipNote?, dict?_withPatterns, htrue]

theorem Lists.constraintsOf {entry : Entries} {given : List Value} :
    w.Lists (entry.read? (.ofText "constraints")) given ↔ w.constraintsOf entry = given := by
  unfold World.constraintsOf
  cases entry.read? (.ofText "constraints") with
  | none => exact ⟨fun h => by cases h; rfl, fun h => h ▸ .absent⟩
  | some v =>
    constructor
    · intro h
      cases h with
      | list hc => simp only [hc]
      | tuple hc => simp only [hc]
      | single hlist htuple =>
        dsimp only
        split
        · exact absurd ‹_› (hlist _)
        · exact absurd ‹_› (htuple _)
        · rfl
    · dsimp only
      split
      · exact fun h => h ▸ .list ‹_›
      · exact fun h => h ▸ .tuple ‹_›
      · rename_i hlist htuple
        exact fun h => h ▸ .single hlist htuple

theorem Resolves.withPatterns {ruleType : String} {v u : Value}
    (h : w.Resolves w' ruleType v u) (ps : List CompiledPattern) :
    w.Resolves (w'.withPatterns ps) ruleType v u := by
  cases h with
  | loaded hr ht hl => exact .loaded hr ht hl
  | compiled hr ht hp hu => exact .compiled hr ht hp (pattern?_withPatterns hu)
  | itself hv => exact .itself hv

theorem Declares.withPatterns {reference : Value} {source : Option String} {index : Nat}
    {entry : Entries} {d : Declaration} (h : w.Declares w' reference source index entry d)
    (ps : List CompiledPattern) :
    w.Declares (w'.withPatterns ps) reference source index entry d := by
  obtain ⟨typeName, given, htype, hlists, hresolves⟩ := h.constraints
  exact { h with constraints :=
    ⟨typeName, given, htype, hlists, hresolves.imp fun _ _ hv => hv.withPatterns ps⟩ }

/-! ## One entry -/

theorem ownerOf_eq_ok {reference : Value} {c : ClassId} :
    w.ownerOf reference = .ok c ↔ w.Denotes reference c := by
  unfold Denotes ownerOf
  cases reference with
  | ofClass c' =>
    simp [pure, Except.pure, bind, Except.bind, Heap.text?, Heap.plain, Heap.content?, Heap.object?]
  | _ =>
    rw [← load_eq_ok]
    cases w.load _ with
    | error failure => simp [bind, Except.bind]
    | ok v => cases v <;> simp [pure, Except.pure, bind, Except.bind]

/-- Reading a constraint makes the object of a pattern at most. -/
theorem resolveConstraint_ok {ruleType : String} {u : Value} {w₁ : World}
    (h : (w.withPatterns qs).resolveConstraint ruleType v = .ok (w₁, u)) :
    ∃ ps, w₁ = w.withPatterns (qs ++ ps) ∧ w.Resolves w₁ ruleType v u := by
  unfold resolveConstraint at h
  rw [text?_withPatterns] at h
  split at h
  · rename_i ht
    cases h
    exact ⟨[], by rw [List.append_nil], .itself (.inl ht)⟩
  · rename_i s ht
    split at h
    · rename_i hr
      obtain ⟨path, hload, hpath⟩ := Except.bind_eq_ok.1 h
      cases hpath
      obtain ⟨path, htext, hprovides⟩ := load_eq_ok.1 (load_withPatterns.1 hload)
      exact ⟨[], by rw [List.append_nil], .loaded hr htext hprovides⟩
    · rename_i hcustom
      split at h
      · rename_i hr
        unfold makePattern at h
        split at h
        · rename_i node flags hp
          rw [makeContent_pattern] at h
          cases h
          exact ⟨[⟨s, node, flags⟩], (withPatterns_append ..).symm,
            .compiled hr ht hp (pattern?_withPatterns_self ..)⟩
        · cases h
        · cases h
        · cases h
      · rename_i hmatches
        cases h
        exact ⟨[], by rw [List.append_nil], .itself (.inr ⟨hcustom, hmatches⟩)⟩

theorem resolveConstraints_ok {ruleType : String} {given made : List Value} {w₁ : World}
    (h : (w.withPatterns qs).resolveConstraints ruleType given = .ok (w₁, made)) :
    ∃ ps, w₁ = w.withPatterns (qs ++ ps) ∧ List.Forall₂ (w.Resolves w₁ ruleType) given made := by
  induction given generalizing qs made with
  | nil =>
    cases h
    exact ⟨[], by rw [List.append_nil], .nil⟩
  | cons v rest ih =>
    rw [resolveConstraints] at h
    obtain ⟨⟨w₂, u⟩, hv, h⟩ := Except.bind_eq_ok.1 h
    obtain ⟨⟨w₃, others⟩, hrest, h⟩ := Except.bind_eq_ok.1 h
    cases h
    obtain ⟨ps, rfl, hu⟩ := resolveConstraint_ok hv
    obtain ⟨ps', rfl, hothers⟩ := ih hrest
    refine ⟨ps ++ ps', by rw [List.append_assoc], .cons ?_ hothers⟩
    rw [withPatterns_append]
    exact hu.withPatterns ps'

theorem priorityOf_ok {entry : Entries} {index : Nat} {key ruleType : Value}
    {priority : Option Value} (h : w.priorityOf entry index key ruleType = .ok priority) :
    priority = (entry.read? (.ofText "priority")).bind Value.present? := by
  unfold priorityOf at h
  split at h
  · rename_i hp
    cases h
    exact hp.symm
  · rename_i v hp
    split at h
    · cases h
      exact hp.symm
    · cases h

/-- What it takes for an entry with a property and a type to make a declaration. -/
theorem declarationOf_eq_ok {entry : Entries} {reference : Value} {source : Option String}
    {index : Nat} {key ruleType : Value} {d : Declaration} {w₁ : World} :
    w.declarationOf entry reference source index key ruleType = .ok (w₁, d) ↔
      ∃ typeName owner priority made, w.heap.text? ruleType = some typeName ∧
        w.isHashable key = true ∧ (entry.read? (.ofText "owner")).getD reference ≠ .nothing ∧
        w.ownerOf ((entry.read? (.ofText "owner")).getD reference) = .ok owner ∧
        w.priorityOf entry index key ruleType = .ok priority ∧
        w.resolveConstraints typeName (w.constraintsOf entry) = .ok (w₁, made) ∧
        d = ⟨owner, key, ruleType, made, none,
          some ⟨(entry.read? (.ofText "message")).bind Value.present?,
            ((entry.read? (.ofText "each")).map w₁.heap.isTrue).getD false, priority⟩,
          source.map fun s => s ++ "#rules[" ++ toString index ++ "]"⟩ := by
  constructor
  · intro h
    unfold declarationOf at h
    split at h
    · rename_i typeName ht
      dsimp only at h
      split at h
      · cases h
      · rename_i hkey
        split at h
        · cases h
        · rename_i howner
          obtain ⟨owner, hdenotes, h⟩ := Except.bind_eq_ok.1 h
          obtain ⟨priority, hpriority, h⟩ := Except.bind_eq_ok.1 h
          obtain ⟨⟨w₂, made⟩, hmade, h⟩ := Except.bind_eq_ok.1 h
          cases h
          have hkey : w.isHashable key = true := by simpa using hkey
          exact ⟨typeName, owner, priority, made, ht, hkey, howner, hdenotes, hpriority, hmade,
            rfl⟩
    · cases h
  · rintro ⟨typeName, owner, priority, made, ht, hkey, howner, hdenotes, hpriority, hmade, rfl⟩
    simp only [declarationOf, ht, hkey, howner, hdenotes, hpriority, hmade]
    rfl

theorem declarationOf_ok {entry : Entries} {reference : Value} {source : Option String}
    {index : Nat} {key ruleType : Value} {d : Declaration} {w₁ : World}
    (hkey : entry.read? (.ofText "property") = some key)
    (htype : entry.read? (.ofText "type") = some ruleType)
    (h : (w.withPatterns qs).declarationOf entry reference source index key ruleType =
      .ok (w₁, d)) :
    ∃ ps, w₁ = w.withPatterns (qs ++ ps) ∧ w.Declares w₁ reference source index entry d := by
  obtain ⟨typeName, owner, priority, made, ht, -, -, howner, hpriority, hmade, rfl⟩ :=
    declarationOf_eq_ok.1 h
  obtain ⟨ps, rfl, hresolves⟩ := resolveConstraints_ok hmade
  rw [text?_withPatterns] at ht
  rw [constraintsOf_withPatterns] at hresolves
  have hdenotes : w.Denotes ((entry.read? (.ofText "owner")).getD reference) owner :=
    denotes_withPatterns.1 (ownerOf_eq_ok.1 howner)
  refine ⟨ps, rfl, hkey, htype, hdenotes, ⟨typeName, _, ht, Lists.constraintsOf.2 rfl, hresolves⟩,
    rfl, ?_, rfl⟩
  rw [priorityOf_ok hpriority]
  cases entry.read? (.ofText "each") with
  | none => rfl
  | some v =>
    simp only [Option.map_some, Option.getD_some, Option.any_some, isTrue_withPatterns]

theorem readEntry_ok {entry reference : Value} {source : Option String} {index : Nat}
    {outcome : EntryOutcome}
    (h : (w.withPatterns qs).readEntry entry reference source index = .ok outcome) :
    (∃ record, outcome = .skipped record ∧ w.skipNote? (entry, index) = some record) ∨
      ∃ ps d e, outcome = .declared (w.withPatterns (qs ++ ps)) d ∧
        w.skipNote? (entry, index) = none ∧ w.dict? entry = some e ∧
        w.Declares (w.withPatterns (qs ++ ps)) reference source index e d := by
  rw [← @skipNote?_withPatterns w qs, ← dict?_withPatterns w qs]
  unfold skipNote?
  unfold readEntry at h
  dsimp only
  cases hm : (w.withPatterns qs).dict? entry with
  | none =>
    rw [hm] at h
    cases h
    exact .inl ⟨_, rfl, rfl⟩
  | some e =>
    rw [hm] at h
    simp only [isTrue_getD] at h
    by_cases hboth : (e.read? (.ofText "property")).any (w.withPatterns qs).heap.isTrue = true ∧
        (e.read? (.ofText "type")).any (w.withPatterns qs).heap.isTrue = true
    · obtain ⟨hproperty, htype⟩ := hboth
      obtain ⟨key, hkey, -⟩ := (Option.any_eq_true ..).1 hproperty
      obtain ⟨ruleType, hruleType, -⟩ := (Option.any_eq_true ..).1 htype
      rw [if_pos (by rw [hproperty, htype]; rfl)] at h
      obtain ⟨⟨w₁, d⟩, hd, h⟩ := Except.bind_eq_ok.1 h
      cases h
      rw [hkey, hruleType] at hd
      obtain ⟨ps, rfl, hdeclares⟩ := declarationOf_ok hkey hruleType hd
      exact .inr ⟨ps, d, e, rfl, if_pos ⟨hproperty, htype⟩, rfl, hdeclares⟩
    · rw [if_neg (by rwa [Bool.and_eq_true])] at h
      cases h
      exact .inl ⟨_, rfl, if_neg hboth⟩

/-- What an entry at a place declares, told from the value that the entry is. -/
def DeclaresAt (w w' : World) (reference : Value) (source : Option String) (x : Value × Nat)
    (d : Declaration) : Prop :=
  ∃ entry, w.dict? x.1 = some entry ∧ w.Declares w' reference source x.2 entry d

end World

/-! ## All entries -/

@[simp] theorem Registry.name_addAll (r : Registry) (ds : List Declaration) :
    (r.addAll ds).name = r.name := by
  induction ds generalizing r with
  | nil => rfl
  | cons d rest ih => exact ih (r.add d)

namespace Loading

variable {reference : Value} {source : Option String} {w : World} {l l' : Loading}
  {qs : List CompiledPattern} {items : List Value} {ds : List Declaration}

/-- Entries that are read to their end: the warnings about some, and the declarations of the
others. -/
theorem readEntries_ok {index : Nat} (hw : l.world = w.withPatterns qs)
    (h : readEntries reference source index items l = (l', .ok ds)) :
    ∃ ps, l'.world = w.withPatterns (qs ++ ps) ∧
      l'.log = l.log ++ (items.zipIdx index).filterMap w.skipNote? ∧
      List.Forall₂ (w.DeclaresAt l'.world reference source)
        ((items.zipIdx index).filter fun x => w.skipNote? x = none) ds := by
  -- the patterns made so far vary from entry to entry, the world `w` that is told from does not
  induction items generalizing index l qs ds with
  | nil =>
    cases h
    exact ⟨[], by rw [hw, List.append_nil], (List.append_nil _).symm, .nil⟩
  | cons entry rest ih =>
    obtain ⟨next, first, others, hone, hrest, rfl⟩ := readEntries_cons_eq_ok.1 h
    obtain ⟨outcome, hread, hnext⟩ := Except.map_eq_ok.1 hone
    rw [hw] at hread
    rw [List.zipIdx_cons]
    rcases World.readEntry_ok hread with ⟨record, rfl, hnote⟩ | ⟨ps, d, e, rfl, hnote, he, hd⟩
    · cases hnext
      obtain ⟨ps, hworld, hlog, hdeclared⟩ := ih (l := { l with log := l.log ++ [record] }) hw hrest
      refine ⟨ps, hworld, ?_, ?_⟩
      · rw [hlog, List.filterMap_cons_some hnote, List.append_assoc]
        rfl
      · rw [List.filter_cons_of_neg (by simp [hnote])]
        exact hdeclared
    · cases hnext
      obtain ⟨ps', hworld, hlog, hdeclared⟩ := ih rfl hrest
      refine ⟨ps ++ ps', by rw [hworld, List.append_assoc], ?_, ?_⟩
      · rw [hlog, List.filterMap_cons_none hnote]
      · rw [List.filter_cons_of_pos (by simp [hnote])]
        rw [hworld, World.withPatterns_append] at hdeclared ⊢
        exact .cons ⟨e, he, hd.withPatterns ps'⟩ hdeclared

/-- A configuration is read to its end if its names are text and all entries are. -/
theorem readNamed_eq_ok {config : Entries} : l.readNamed config = (l', .ok ds) ↔
    config.pairs.all (fun (name, _) => (l.world.heap.text? name).isSome) = true ∧
      ∃ items next, l.world.ruleItems? config = some items ∧
        readEntries (World.ruleOwner config) (l.world.ruleSource? config) 0 items l =
          (next, .ok ds) ∧
        l' = { next with log := next.log ++ [.registered ds.length next.registry.name] } := by
  constructor
  · intro h
    rw [readNamed, read_eq] at h
    split at h
    · rename_i hnames
      split at h
      · cases h
      · rename_i items hitems
        split at h
        · cases h
        · rename_i next ds hread
          cases h
          exact ⟨hnames, items, next, hitems, hread, rfl⟩
    · cases h
  · rintro ⟨hnames, items, next, hitems, hread, rfl⟩
    rw [readNamed, if_pos hnames, read_eq]
    simp only [hitems, hread]

end Loading

/-- A configuration that is read to its end passes over the entries that are no dictionaries or
whose property or type does not count as true, each with one warning, and makes one declaration of
every other entry, in their order, as it asks for. Every class has its declarations from before and
then those that are new, and nothing else changes but for objects of patterns that are made. -/
theorem Operation.configure_registers {registry : String} {config : Entries} {ws ws' : Workspace}
    {ds : List Declaration} (h : configure registry config ws = (.ok ds, ws')) :
    ∃ items patterns, ws.world.ruleItems? config = some items ∧
      ws' = { ws with
        world := ws.world.withPatterns patterns
        registries := ws.registries.put registry ((ws.registry registry).addAll ds)
        log := ws.log ++ (items.zipIdx.filterMap ws.world.skipNote? ++
          [.registered ds.length (ws.registry registry).name]) } ∧
      (∀ x ∈ items.zipIdx, ws.world.skipNote? x = none ↔
        ∃ entry key ruleType, ws.world.dict? x.1 = some entry ∧
          entry.read? (.ofText "property") = some key ∧ ws.world.heap.isTrue key = true ∧
          entry.read? (.ofText "type") = some ruleType ∧ ws.world.heap.isTrue ruleType = true) ∧
      List.Forall₂ (ws.world.DeclaresAt ws'.world (World.ruleOwner config)
          (ws.world.ruleSource? config))
        (items.zipIdx.filter fun x => ws.world.skipNote? x = none) ds ∧
      ∀ c, (ws'.registry registry).rulesOf c =
        (ws.registry registry).rulesOf c ++ ds.filter (·.owner = c) := by
  rw [configure, loading_eq] at h
  cases hread : (ws.reading registry).readNamed config with
  | mk l' outcome =>
    rw [hread] at h
    cases h
    obtain ⟨-, items, next, hitems, hnext, rfl⟩ := Loading.readNamed_eq_ok.1 hread
    have hw : (ws.reading registry).world = ws.world.withPatterns [] :=
      (World.withPatterns_nil _).symm
    obtain ⟨patterns, hworld, hlog, hdeclared⟩ := Loading.readEntries_ok hw hnext
    have hregistry : next.registry = (ws.registry registry).addAll ds :=
      Loading.registry_readEntries hnext
    refine ⟨items, patterns, hitems, ?_, fun x _ => World.skipNote?_eq_none, hdeclared,
      fun c => ?_⟩
    · rw [hworld, hlog, hregistry, Registry.name_addAll]
      rfl
    · rw [← Registry.rulesOf_addAll, ← hregistry]
      simp only [Workspace.registry, Catalog.put, Catalog.get?_alter, if_true]
      rfl

theorem Operation.exists_of_toOption {α : Type} {operation : Operation α} {ws : Workspace} {a : α}
    (h : (operation ws).1.toOption = some a) : ∃ ws', operation ws = (.ok a, ws') :=
  ⟨(operation ws).2, Prod.ext (Except.toOption_eq_some.1 h) rfl⟩

/-! ## A mixed configuration

An entry without a rule type, a pattern that is spelled out, a number, and the path of a check.
-/

namespace Mixed

/-- The entries, the constraints of the last one, and the list of all. -/
def heap : Heap :=
  #[⟨.builtin .mapping, .mapping [(.ofText "property", (.text "property", .text "name"))], [], []⟩,
    CutShort.entry "name" "Matches"
      [(.ofText "constraints", (.text "constraints", .text "^[a-z]+$"))],
    CutShort.entry "age" "Custom" [(.ofText "constraints", (.text "constraints", .object 3))],
    ⟨.builtin .list, .list #[.text "checks.is_even"], [], []⟩,
    ⟨.builtin .list, .list #[.object 0, .object 1, .int 7, .object 2], [], []⟩]

def workspace : Workspace :=
  { Workspace.initial with
    world := { World.initial with
      modules := [("checks", ⟨false, [("is_even", .function "is_even")]⟩)]
      heap } }

def config : Entries :=
  [(.ofText "owner", (.text "owner", .ofClass (.builtin .object))),
    (.ofText "source", (.text "source", .text "rules.yaml")),
    (.ofText "rules", (.text "rules", .object 4))]

theorem exists_configure :
    ∃ ds ws', Operation.configure "rules" config workspace = (.ok ds, ws') := by
  have hsome : (Operation.configure "rules" config workspace).1.toOption.isSome = true := by
    decide +kernel
  obtain ⟨ds, hds⟩ := Option.isSome_iff_exists.1 hsome
  exact ⟨ds, Operation.exists_of_toOption hds⟩

/-- The entries with their places. -/
def entries : List (Value × Nat) := (Array.toList #[.object 0, .object 1, .int 7, .object 2]).zipIdx

/-- The second and the last entry are not passed over. -/
theorem filter_entries : (entries.filter fun x => workspace.world.skipNote? x = none) =
    [(.object 1, 1), (.object 2, 3)] := by
  decide +kernel

theorem load_check :
    (workspace.world.load (.text "checks.is_even")).toOption = some (.function "is_even") := by
  decide +kernel

theorem filterMap_entries : entries.filterMap workspace.world.skipNote? =
    [.incompleteEntry 0, .malformedEntry 2] := by
  decide +kernel

end Mixed

theorem Operation.configure_registers_mixed : ∃ d d' ws',
    configure "rules" Mixed.config Mixed.workspace = (.ok [d, d'], ws') ∧
    d.key = .text "name" ∧ d.location = some "rules.yaml#rules[1]" ∧
    d'.key = .text "age" ∧ d'.location = some "rules.yaml#rules[3]" ∧
    d'.constraints = [.function "is_even"] ∧
    ws'.log = [.incompleteEntry 0, .malformedEntry 2, .registered 2 "rules"] := by
  obtain ⟨ds, ws', hconfigure⟩ := Mixed.exists_configure
  obtain ⟨items, patterns, hitems, hworkspace, -, hdeclared, -⟩ :=
    configure_registers hconfigure
  cases hitems
  have hkept : List.Forall₂ (Mixed.workspace.world.DeclaresAt ws'.world
      (World.ruleOwner Mixed.config) (Mixed.workspace.world.ruleSource? Mixed.config))
      [(.object 1, 1), (.object 2, 3)] ds := Mixed.filter_entries ▸ hdeclared
  cases hkept with
  | @cons _ d _ _ hd hkept =>
    cases hkept with
    | @cons _ d' _ _ hd' hkept =>
      cases hkept
      obtain ⟨entry, hentry, hd⟩ := hd
      obtain ⟨entry', hentry', hd'⟩ := hd'
      cases hentry
      cases hentry'
      have hkey : some (.text "name") = some d.key := hd.key
      have hkey' : some (.text "age") = some d'.key := hd'.key
      refine ⟨d, d', ws', hconfigure, (Option.some.inj hkey).symm, ?_, (Option.some.inj hkey').symm,
        ?_, ?_, ?_⟩
      · rw [hd.location]
        decide +kernel
      · rw [hd'.location]
        decide +kernel
      · obtain ⟨typeName, given, htype, hlists, hresolves⟩ := hd'.constraints
        have htype' : some (.text "Custom") = some d'.ruleType := hd'.ruleType
        rw [← Option.some.inj htype'] at htype
        obtain rfl : "Custom" = typeName := Option.some.inj htype
        obtain rfl : [.text "checks.is_even"] = given := World.Lists.constraintsOf.1 hlists
        generalize d'.constraints = made at hresolves ⊢
        cases hresolves with
        | cons h hnil =>
          cases hnil
          have hload := Mixed.load_check
          rw [h.load_eq rfl rfl] at hload
          rw [Option.some.inj hload]
      · rw [hworkspace]
        exact congrArg (· ++ [Record.registered 2 "rules"]) Mixed.filterMap_entries

/-! ## Mappings of another kind, and a source without a name -/

/-- The value is a mapping of any kind whose property and type count as true. -/
def World.MapsRule (w : World) (v : Value) : Prop :=
  ∃ entry key ruleType, w.heap.mapping? v = some entry ∧
    entry.read? (.ofText "property") = some key ∧ w.heap.isTrue key = true ∧
    entry.read? (.ofText "type") = some ruleType ∧ w.heap.isTrue ruleType = true

namespace Unusual

/-- A mapping that is no dictionary, an entry, and a list of the one and of the other. -/
def heap : Heap :=
  #[{ CutShort.entry "name" "IsString" [] with classId := .builtin .proxy },
    CutShort.entry "name" "IsString" [],
    ⟨.builtin .list, .list #[.object 0], [], []⟩, ⟨.builtin .list, .list #[.object 1], [], []⟩]

def workspace : Workspace :=
  { Workspace.initial with world := { World.initial with heap } }

def config (rules : Address) : Entries :=
  [(.ofText "owner", (.text "owner", .ofClass (.builtin .object))),
    (.ofText "source", (.text "source", .text "")),
    (.ofText "rules", (.text "rules", .object rules))]

/-- The locations of what is read from a list of entries. -/
def locations? (rules : Address) : Option (List (Option String)) :=
  (Operation.configure "rules" (config rules) workspace).1.toOption.map fun ds =>
    ds.map (·.location)

theorem exists_configure {rules : Address} {ls : List (Option String)}
    (h : locations? rules = some ls) : ∃ ds ws',
      Operation.configure "rules" (config rules) workspace = (.ok ds, ws') ∧
        ds.map (·.location) = ls := by
  obtain ⟨ds, hds, rfl⟩ := Option.map_eq_some_iff.1 h
  obtain ⟨ws', hconfigure⟩ := Operation.exists_of_toOption hds
  exact ⟨ds, ws', hconfigure, rfl⟩

end Unusual

/-- A mapping that is no dictionary is passed over however complete it is, and a source that does
not count as true gives no locations. -/
theorem Operation.not_configure_registers :
    (¬∀ registry config ws ds ws' items, configure registry config ws = (.ok ds, ws') →
      ws.world.ruleItems? config = some items → (∀ v ∈ items, ws.world.MapsRule v) →
        ds.length = items.length) ∧
    ¬∀ registry config ws ds ws' source, configure registry config ws = (.ok ds, ws') →
      config.read? (.ofText "source") = some source → ∀ d ∈ ds, ∃ i : Nat,
        d.location = some (ws.world.plainText source ++ "#rules[" ++ toString i ++ "]") := by
  refine ⟨fun h => ?_, fun h => ?_⟩
  · have hnone : Unusual.locations? 2 = some [] := by decide +kernel
    obtain ⟨ds, ws', hconfigure, hds⟩ := Unusual.exists_configure hnone
    have hmaps : ∀ v ∈ [Value.object 0], Unusual.workspace.world.MapsRule v :=
      List.forall_mem_singleton.2 ⟨_, .text "name", .text "IsString", rfl, rfl, rfl, rfl, rfl⟩
    have hlength := h _ _ _ _ _ _ hconfigure rfl hmaps
    rw [List.map_eq_nil_iff.1 hds] at hlength
    cases hlength
  · have hone : Unusual.locations? 3 = some [none] := by decide +kernel
    obtain ⟨ds, ws', hconfigure, hds⟩ := Unusual.exists_configure hone
    obtain ⟨d, hd, hlocation⟩ := List.mem_map.1 (hds ▸ List.mem_singleton_self none)
    obtain ⟨i, hi⟩ := h _ _ _ _ _ _ hconfigure rfl d hd
    rw [hlocation] at hi
    cases hi

end Rulebook
