import Rulebook.Proofs.Operations

/-!
# Reading rules is not undone

A configuration is read entry by entry, and every declaration is registered as soon as it is made.
A reading fails exactly if an entry does after those before it have been read
(`Loading.readEntries_eq_error`), and what these declare stays (`Operation.configure_stops`). So the
registry is what it was before a failed reading only if no declaration had been made.
-/

set_option autoImplicit false

namespace Rulebook

namespace World

/-- The entries of a configuration, if they are in a list. -/
def ruleItems? (w : World) (config : Entries) : Option (List Value) :=
  match config.read? (.ofText "rules") with
  | none => some []
  | some v =>
    match w.heap.content? v with
    | some (.list items) => some items.toList
    | _ => none

/-- The class that the entries of a configuration are about unless they name one themselves. -/
def ruleOwner (config : Entries) : Value := (config.read? (.ofText "owner")).getD .nothing

/-- Where a configuration says that it comes from. -/
def ruleSource? (w : World) (config : Entries) : Option String :=
  ((config.read? (.ofText "source")).filter w.heap.isTrue).map w.plainText

/-- The configuration in a rule file, if the file is there and its document is a mapping. -/
def fileConfig? (w : World) (path : String) (document : Option Value) : Option Entries :=
  (document.bind w.dict?).map fun entries =>
    if (entries.read? (.ofText "source")).isSome then entries
    else entries.write (.ofText "source") (.text "source") (.text (tidyPath path))

end World

namespace Loading

/-- Reads one entry: what has been read then, and the declaration if it makes one. -/
def readOne (owner : Value) (source : Option String) (index : Nat) (l : Loading) (entry : Value) :
    Except Failure (Loading × List Declaration) :=
  (l.world.readEntry entry owner source index).map fun
    | .skipped record => ({ l with log := l.log ++ [record] }, [])
    | .declared w d => ({ l with world := w, registry := l.registry.add d }, [d])

variable {owner : Value} {source : Option String} {index : Nat} {l l' : Loading}
  {entry : Value} {items : List Value} {ds : List Declaration} {failure : Failure}

theorem readOne_eq_error : readOne owner source index l entry = .error failure ↔
    l.world.readEntry entry owner source index = .error failure := by
  unfold readOne
  cases l.world.readEntry entry owner source index <;> simp [Except.map]

theorem registry_readOne (h : readOne owner source index l entry = .ok (l', ds)) :
    l'.registry = l.registry.addAll ds := by
  unfold readOne at h
  cases hr : l.world.readEntry entry owner source index with
  | error failure => rw [hr] at h; cases h
  | ok outcome => cases outcome <;> (rw [hr] at h; cases h; rfl)

theorem readEntries_cons (entry : Value) (rest : List Value) :
    readEntries owner source index (entry :: rest) l =
      match readOne owner source index l entry with
      | .error failure => (l, .error failure)
      | .ok (next, ds) =>
        ((readEntries owner source (index + 1) rest next).1,
          (readEntries owner source (index + 1) rest next).2.map (ds ++ ·)) := by
  rw [readEntries, readOne]
  cases l.world.readEntry entry owner source index with
  | error failure => rfl
  | ok outcome =>
    cases outcome with
    | declared w d => rfl
    | skipped record =>
      simp only [Except.map, List.nil_append]
      cases readEntries owner source (index + 1) rest { l with log := l.log ++ [record] } with
      | mk next outcome => cases outcome <;> rfl

theorem readEntries_cons_eq_ok {rest : List Value} :
    readEntries owner source index (entry :: rest) l = (l', .ok ds) ↔ ∃ next first others,
      readOne owner source index l entry = .ok (next, first) ∧
      readEntries owner source (index + 1) rest next = (l', .ok others) ∧ ds = first ++ others := by
  rw [readEntries_cons]
  cases readOne owner source index l entry with
  | error failure => simp
  | ok p =>
    obtain ⟨next, first⟩ := p
    cases hrest : readEntries owner source (index + 1) rest next with
    | mk l₁ outcome => cases outcome <;> simp [Except.map, hrest, eq_comm]

theorem readEntries_cons_eq_error {rest : List Value} :
    readEntries owner source index (entry :: rest) l = (l', .error failure) ↔
      (readOne owner source index l entry = .error failure ∧ l' = l) ∨ ∃ next first,
        readOne owner source index l entry = .ok (next, first) ∧
        readEntries owner source (index + 1) rest next = (l', .error failure) := by
  rw [readEntries_cons]
  cases readOne owner source index l entry with
  | error failure => simp [and_comm, eq_comm]
  | ok p =>
    obtain ⟨next, first⟩ := p
    cases hrest : readEntries owner source (index + 1) rest next with
    | mk l₁ outcome => cases outcome <;> simp [Except.map, hrest]

/-- A reading that ends well has registered what it declares. -/
theorem registry_readEntries (h : readEntries owner source index items l = (l', .ok ds)) :
    l'.registry = l.registry.addAll ds := by
  induction items generalizing index l ds with
  | nil =>
    cases h
    rfl
  | cons entry rest ih =>
    obtain ⟨next, first, others, hone, hrest, rfl⟩ := readEntries_cons_eq_ok.1 h
    rw [ih hrest, registry_readOne hone]
    exact (List.foldl_append ..).symm

/-- The entry makes no sense, and those before it have been read, which has brought the reading from
`l` to `l'` and has made the declarations `ds`. -/
structure StopsAt (l : Loading) (owner : Value) (source : Option String) (index : Nat)
    (before : List Value) (entry : Value) (failure : Failure) (l' : Loading)
    (ds : List Declaration) : Prop where
  read : readEntries owner source index before l = (l', .ok ds)
  fails : l'.world.readEntry entry owner source (index + before.length) = .error failure

theorem stopsAt_cons {first : Value} {before : List Value} :
    (∃ ds, StopsAt l owner source index (first :: before) entry failure l' ds) ↔
      ∃ next ds others, readOne owner source index l first = .ok (next, ds) ∧
        StopsAt next owner source (index + 1) before entry failure l' others := by
  have hplace : index + (first :: before).length = index + 1 + before.length := by
    rw [List.length_cons]
    omega
  constructor
  · rintro ⟨_, hbefore, hentry⟩
    obtain ⟨next, ds, others, hone, hrest, -⟩ := readEntries_cons_eq_ok.1 hbefore
    exact ⟨next, ds, others, hone, hrest, hplace ▸ hentry⟩
  · rintro ⟨next, ds, others, hone, hrest, hentry⟩
    exact ⟨_, readEntries_cons_eq_ok.2 ⟨next, ds, others, hone, hrest, rfl⟩, hplace ▸ hentry⟩

/-- A reading fails exactly if an entry does, after those before it have been read. -/
theorem readEntries_eq_error : readEntries owner source index items l = (l', .error failure) ↔
    ∃ before entry after, items = before ++ entry :: after ∧
      ∃ ds, StopsAt l owner source index before entry failure l' ds := by
  constructor
  · intro h
    induction items generalizing index l with
    | nil => cases h
    | cons entry rest ih =>
      rcases readEntries_cons_eq_error.1 h with ⟨hone, rfl⟩ | ⟨next, first, hone, hrest⟩
      · exact ⟨[], entry, rest, rfl, [], rfl, readOne_eq_error.1 hone⟩
      · obtain ⟨before, entry', after, rfl, others, hstops⟩ := ih hrest
        exact ⟨entry :: before, entry', after, rfl,
          stopsAt_cons.2 ⟨next, first, others, hone, hstops⟩⟩
  · rintro ⟨before, entry, after, rfl, hstops⟩
    induction before generalizing index l with
    | nil =>
      obtain ⟨ds, hbefore, hentry⟩ := hstops
      cases hbefore
      exact readEntries_cons_eq_error.2 (.inl ⟨readOne_eq_error.2 hentry, rfl⟩)
    | cons first rest ih =>
      obtain ⟨next, ds, others, hone, hstops⟩ := stopsAt_cons.1 hstops
      exact readEntries_cons_eq_error.2 (.inr ⟨next, ds, hone, ih ⟨others, hstops⟩⟩)

/-! ## Configurations -/

theorem read_eq (config : Entries) : l.read config =
    match l.world.ruleItems? config with
    | none => (l, .error (.misconfigured (.rulesNotList
        (l.world.nameOfClassOf ((config.read? (.ofText "rules")).getD .nothing)))))
    | some items =>
      match readEntries (World.ruleOwner config) (l.world.ruleSource? config) 0 items l with
      | (next, .error failure) => (next, .error failure)
      | (next, .ok ds) =>
        ({ next with log := next.log ++ [.registered ds.length next.registry.name] }, .ok ds) :=
  rfl

theorem readNamed_ok {config : Entries} (h : l.readNamed config = (l', .ok ds)) :
    l'.registry = l.registry.addAll ds := by
  rw [readNamed, read_eq] at h
  split at h
  · split at h
    · cases h
    · split at h
      · cases h
      · rename_i hread
        have hregistry := registry_readEntries hread
        cases h
        exact hregistry
  · cases h

/-- A configuration is refused as a whole, or one of its entries makes no sense. -/
theorem readNamed_error {config : Entries} (h : l.readNamed config = (l', .error failure)) :
    l' = l ∨ ∃ before entry after ds,
      l.world.ruleItems? config = some (before ++ entry :: after) ∧
        l.StopsAt (World.ruleOwner config) (l.world.ruleSource? config) 0 before entry failure
          l' ds := by
  rw [readNamed, read_eq] at h
  split at h
  · split at h
    · cases h
      exact .inl rfl
    · rename_i items hitems
      split at h
      · rename_i hread
        cases h
        obtain ⟨before, entry, after, rfl, ds, hstops⟩ := readEntries_eq_error.1 hread
        exact .inr ⟨before, entry, after, ds, hitems, hstops⟩
      · cases h
  · cases h
    exact .inl rfl

theorem readFile_of_config {path : String} {document : Option Value} {config : Entries}
    (h : l.world.fileConfig? path document = some config) :
    l.readFile path document = l.readNamed config := by
  obtain ⟨entries, hentries, rfl⟩ := Option.map_eq_some_iff.1 h
  obtain ⟨v, rfl, hv⟩ := Option.bind_eq_some_iff.1 hentries
  simp only [readFile, hv]

theorem readFile_of_no_config {path : String} {document : Option Value}
    (h : l.world.fileConfig? path document = none) :
    ∃ failure, l.readFile path document = (l, .error failure) := by
  cases document with
  | none => exact ⟨_, rfl⟩
  | some v =>
    have hv : l.world.dict? v = none := Option.map_eq_none_iff.1 h
    exact ⟨_, by simp only [readFile, hv]; rfl⟩

end Loading

/-! ## Registries -/

theorem Registry.addAll_keeps_iff {r : Registry} {ds : List Declaration} :
    (∀ c, (r.addAll ds).rulesOf c = r.rulesOf c) ↔ ds = [] := by
  constructor
  · intro h
    cases ds with
    | nil => rfl
    | cons d rest =>
      have hd := h d.owner
      rw [rulesOf_addAll, List.filter_cons_of_pos (by simp)] at hd
      exact absurd (List.append_right_eq_self.1 hd) (List.cons_ne_nil _ _)
  · rintro rfl c
    rfl

/-- Where reading into a registry begins. -/
def Workspace.reading (ws : Workspace) (registry : String) : Loading :=
  ⟨ws.world, ws.registry registry, []⟩

namespace Operation

theorem loading_eq (registry : String)
    (body : Loading → Loading × Except Failure (List Declaration)) (ws : Workspace) :
    let r := body (ws.reading registry)
    loading registry body ws = (r.2, { ws with
      world := r.1.world
      registries := ws.registries.put registry r.1.registry
      log := ws.log ++ r.1.log }) := by
  intro r
  change lift r.2 _ = _
  cases r.2 <;> rfl

theorem loading_of_body {registry : String} {ws : Workspace} {l' : Loading}
    (body : Loading → Loading × Except Failure (List Declaration))
    {outcome : Except Failure (List Declaration)} (h : body (ws.reading registry) = (l', outcome)) :
    (loading registry body ws).1 = outcome ∧ ∀ name, (loading registry body ws).2.registry name =
      if registry = name then l'.registry else ws.registry name := by
  rw [loading_eq, h]
  refine ⟨rfl, fun name => ?_⟩
  simp only [Workspace.registry, Catalog.put, Catalog.get?_alter]
  split <;> rfl

section
variable {registry : String} {ws : Workspace} {config : Entries}

theorem registry_configure_ok {ds : List Declaration}
    (h : (configure registry config ws).1 = .ok ds) :
    (configure registry config ws).2.registry registry = (ws.registry registry).addAll ds := by
  cases hread : (ws.reading registry).readNamed config with
  | mk l' outcome =>
    obtain ⟨hout, hregistry⟩ := loading_of_body (fun l => l.readNamed config) hread
    obtain rfl : outcome = .ok ds := hout.symm.trans h
    exact (hregistry registry).trans ((if_pos rfl).trans (Loading.readNamed_ok hread))

theorem registry_configure_error {failure : Failure}
    (h : (configure registry config ws).1 = .error failure) :
    ∃ ds, (configure registry config ws).2.registry registry = (ws.registry registry).addAll ds ∧
      (ds = [] ∨ ∃ before entry after l',
        ws.world.ruleItems? config = some (before ++ entry :: after) ∧
          (ws.reading registry).StopsAt (World.ruleOwner config) (ws.world.ruleSource? config) 0
            before entry failure l' ds) := by
  cases hread : (ws.reading registry).readNamed config with
  | mk l' outcome =>
    obtain ⟨hout, hregistry⟩ := loading_of_body (fun l => l.readNamed config) hread
    obtain rfl : outcome = .error failure := hout.symm.trans h
    have hafter := (hregistry registry).trans (if_pos rfl)
    rcases Loading.readNamed_error hread with rfl | ⟨before, entry, after, ds, hitems, hstops⟩
    · exact ⟨[], hafter, .inl rfl⟩
    · have hadded := Loading.registry_readEntries hstops.read
      exact ⟨ds, hafter.trans hadded, .inr ⟨before, entry, after, l', hitems, hstops⟩⟩

theorem registry_configure_other {name : String} (h : registry ≠ name) :
    (configure registry config ws).2.registry name = ws.registry name :=
  ((loading_of_body (fun l => l.readNamed config) rfl).2 name).trans (if_neg h)

theorem configureFrom_of_config {path : String} {document : Option Value}
    (h : ws.world.fileConfig? path document = some config) :
    configureFrom registry path document ws = configure registry config ws := by
  have hread : (ws.reading registry).readFile path document =
      (ws.reading registry).readNamed config := Loading.readFile_of_config h
  rw [configureFrom, configure, loading_eq, loading_eq, hread]

theorem configureFrom_of_no_config {path : String} {document : Option Value}
    (h : ws.world.fileConfig? path document = none) :
    ∃ failure, (configureFrom registry path document ws).1 = .error failure ∧
      ∀ name, (configureFrom registry path document ws).2.registry name = ws.registry name := by
  obtain ⟨failure, hread⟩ := @Loading.readFile_of_no_config (ws.reading registry) path document h
  obtain ⟨hout, hregistry⟩ := loading_of_body (fun l => l.readFile path document) hread
  refine ⟨failure, hout, fun name => (hregistry name).trans ?_⟩
  by_cases hname : registry = name
  · rw [if_pos hname, ← hname]
    rfl
  · rw [if_neg hname]

end

/-- What is registered stays, whatever comes of the reading. A configuration that is read to its end
has registered all that it declares. One that is not has registered the declarations of the entries
before the one that makes no sense, so that the registry is what it was for every class only if
there are none. With a rule file it is the same, once its document has been read. -/
theorem configure_stops (registry : String) (ws : Workspace) :
    (∀ config,
      let r := configure registry config ws
      (∀ name, registry ≠ name → r.2.registry name = ws.registry name) ∧
      (∀ ds, r.1 = .ok ds → r.2.registry registry = (ws.registry registry).addAll ds) ∧
      ∀ failure, r.1 = .error failure → ∃ ds,
        r.2.registry registry = (ws.registry registry).addAll ds ∧
        ((∀ c, (r.2.registry registry).rulesOf c = (ws.registry registry).rulesOf c) ↔ ds = []) ∧
        (ds = [] ∨ ∃ before entry after l',
          ws.world.ruleItems? config = some (before ++ entry :: after) ∧
            (ws.reading registry).StopsAt (World.ruleOwner config) (ws.world.ruleSource? config) 0
              before entry failure l' ds)) ∧
    ∀ path document,
      (∀ config, ws.world.fileConfig? path document = some config →
        configureFrom registry path document ws = configure registry config ws) ∧
      (ws.world.fileConfig? path document = none →
        ∃ failure, (configureFrom registry path document ws).1 = .error failure ∧ ∀ name,
          (configureFrom registry path document ws).2.registry name = ws.registry name) := by
  refine ⟨fun config => ⟨fun name => registry_configure_other, fun ds => registry_configure_ok,
    fun failure h => ?_⟩, fun path document => ⟨fun config => configureFrom_of_config,
      configureFrom_of_no_config⟩⟩
  obtain ⟨ds, hafter, hds⟩ := registry_configure_error h
  refine ⟨ds, hafter, ?_, hds⟩
  rw [hafter]
  exact Registry.addAll_keeps_iff

end Operation

/-! ## A reading that is cut short

A rule that makes sense, and one whose priority is no number.
-/

namespace CutShort

/-- An entry about a property, with further items. -/
def entry (property ruleType : String) (others : Entries) : Object :=
  ⟨.builtin .mapping, .mapping ((.ofText "property", (.text "property", .text property)) ::
    (.ofText "type", (.text "type", .text ruleType)) :: others), [], []⟩

def workspace : Workspace :=
  { Workspace.initial with
    world := { World.initial with
      heap := #[entry "email" "IsEmail" [],
        entry "age" "IsInt" [(.ofText "priority", (.text "priority", .text "high"))],
        ⟨.builtin .list, .list #[.object 0, .object 1], [], []⟩] } }

def config : Entries :=
  [(.ofText "owner", (.text "owner", .ofClass (.builtin .object))),
    (.ofText "rules", (.text "rules", .object 2))]

theorem configure_fails :
    ((Operation.configure "rules" config workspace).1).toOption.isNone = true := by
  decide +kernel

theorem rulesOf_after :
    ((Operation.configure "rules" config workspace).2.registry "rules").rulesOf (.builtin .object) ≠
      (workspace.registry "rules").rulesOf (.builtin .object) := by
  have hone : (((Operation.configure "rules" config workspace).2.registry "rules").rulesOf
      (.builtin .object)).length = 1 := by decide +kernel
  intro h
  rw [h] at hone
  cases hone

theorem exists_failure :
    ∃ failure, (Operation.configure "rules" config workspace).1 = .error failure := by
  cases h : (Operation.configure "rules" config workspace).1 with
  | error failure => exact ⟨failure, rfl⟩
  | ok ds =>
    have hfails := configure_fails
    rw [h] at hfails
    cases hfails

end CutShort

/-- A reading that fails may leave the registry with more than it held. -/
theorem Operation.configure_not_atomic :
    ¬∀ registry config ws failure, (configure registry config ws).1 = .error failure →
      ∀ c, ((configure registry config ws).2.registry registry).rulesOf c =
        (ws.registry registry).rulesOf c := by
  intro h
  obtain ⟨failure, hfails⟩ := CutShort.exists_failure
  exact CutShort.rulesOf_after (h "rules" CutShort.config CutShort.workspace failure hfails _)

theorem Operation.configure_stops_short :
    ∃ failure ds before entry after l',
      (configure "rules" CutShort.config CutShort.workspace).1 = .error failure ∧
      (configure "rules" CutShort.config CutShort.workspace).2.registry "rules" =
        (CutShort.workspace.registry "rules").addAll ds ∧ ds ≠ [] ∧
      CutShort.workspace.world.ruleItems? CutShort.config = some (before ++ entry :: after) ∧
      (CutShort.workspace.reading "rules").StopsAt (World.ruleOwner CutShort.config)
        (CutShort.workspace.world.ruleSource? CutShort.config) 0 before entry failure l' ds := by
  obtain ⟨failure, hfails⟩ := CutShort.exists_failure
  obtain ⟨ds, hafter, hkeeps, hds⟩ :=
    ((configure_stops "rules" CutShort.workspace).1 CutShort.config).2.2 failure hfails
  have hne : ds ≠ [] := fun hnil => CutShort.rulesOf_after (hkeeps.2 hnil _)
  obtain ⟨before, entry, after, l', hitems, hstops⟩ := hds.resolve_left hne
  exact ⟨failure, ds, before, entry, after, l', hfails, hafter, hne, hitems, hstops⟩

end Rulebook
