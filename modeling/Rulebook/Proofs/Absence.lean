import Rulebook.Proofs.Arrangement
import Rulebook.Proofs.Inspection

/-!
# Declarations that let a property be absent

A declaration that lets its property be absent is no action and has no place among those that are.
So a property compiles to the same executor with such declarations and without them, but for the
permission (`World.compileProperty_loosened`), and the permission is asked for only where the value
is absent (`World.optional_absent`). Their priority is never looked at: it need not be a number, and
may be one that is too large.
-/

set_option autoImplicit false

namespace Rulebook

namespace World

/-- The second list is the first one with more declarations in it, anywhere, that let their property
be absent. -/
inductive Loosened (w : World) : List Declaration → List Declaration → Prop
  | nil : Loosened w [] []
  | keep (d : Declaration) {ds ds' : List Declaration} :
      Loosened w ds ds' → Loosened w (d :: ds) (d :: ds')
  | insert {d : Declaration} {ds ds' : List Declaration} :
      w.isOptional d = true → Loosened w ds ds' → Loosened w ds (d :: ds')

variable {w : World} {strategies : StrategyRegistry} {owner : ClassId} {name : String}
  {ds ds' : List Declaration}

theorem Loosened.sublist (h : w.Loosened ds ds') : ds.Sublist ds' := by
  induction h with
  | nil => exact .slnil
  | keep d _ ih => exact ih.cons_cons d
  | insert _ _ ih => exact ih.cons _

/-- The declarations that become actions are the same. -/
theorem Loosened.typed (h : w.Loosened ds ds') :
    (w.typed owner name ds').1.filter (fun x => x.1 ≠ optionalType) =
      (w.typed owner name ds).1.filter fun x => x.1 ≠ optionalType := by
  simp only [typed_eq]
  induction h with
  | nil => rfl
  | keep d _ ih =>
    rw [List.filterMap_cons, List.filterMap_cons]
    cases w.heap.text? d.ruleType with
    | none => exact ih
    | some ruleType => simp only [Option.map_some, List.filter_cons, ih]
  | insert hd _ ih =>
    rw [List.filterMap_cons, of_decide_eq_true hd]
    simpa using ih

/-- Compiling a property comes to the same, but for the permission to be absent. -/
theorem compileProperty_loosened (h : w.Loosened ds ds') (key : Value) :
    (w.compileProperty strategies owner key ds').2 =
      (w.compileProperty strategies owner key ds).2.map fun e =>
        { e with isOptional := ds'.any w.isOptional } := by
  rw [compileProperty_snd, compileProperty_snd]
  dsimp only
  rw [h.typed, typed_optional]
  cases (w.ranks owner (w.displayKey key)
    ((w.typed owner (w.displayKey key) ds).1.filter fun x => x.1 ≠ optionalType)).2 <;> rfl

theorem key_compileProperty {key : Value} {e : Executor}
    (h : (w.compileProperty strategies owner key ds).2 = .ok e) : e.key = key := by
  rw [compileProperty_snd] at h
  obtain ⟨ranked, -, rfl⟩ := Except.map_eq_ok.1 h
  rfl

/-! ## One property -/

theorem group_of_one_key {k : Key} (hkeys : ∀ d ∈ ds, w.key? d.key = .ok k) (shown : Value)
    (before : List Declaration) :
    (w.group owner ds [(k, shown, before)]).2 = .ok [(k, shown, before ++ ds)] := by
  induction ds generalizing before with
  | nil => rw [List.append_nil]; rfl
  | cons d rest ih =>
    obtain ⟨hd, hrest⟩ := List.forall_mem_cons.1 hkeys
    rw [group, if_pos (isHashable_of_key? hd), hd, List.append_cons]
    simp only [Catalog.alter, if_true]
    exact ih hrest (before ++ [d])

/-- Declarations of one property compile to one executor. -/
theorem compile_of_one_key {k : Key} {d : Declaration}
    (hkeys : ∀ x ∈ d :: ds, w.key? x.key = .ok k) :
    (w.compile strategies owner (d :: ds)).2 =
      (w.compileProperty strategies owner d.key (d :: ds)).2.map fun e => ⟨owner, [e]⟩ := by
  obtain ⟨hd, hrest⟩ := List.forall_mem_cons.1 hkeys
  have hgroup : (w.group owner (d :: ds) []).2 = .ok [(k, d.key, d :: ds)] := by
    rw [group, if_pos (isHashable_of_key? hd), hd]
    exact group_of_one_key hrest d.key [d]
  rw [compile_snd, hgroup]
  simp only [Except.bind, List.map_cons, List.map_nil, compileProperties_cons]
  cases (w.compileProperty strategies owner d.key (d :: ds)).2 <;> rfl

end World

/-! ## Executing -/

namespace Executor

variable {s : Setup} {o : Value} {e : Executor}

/-- Nobody asks whether a property that is there may be absent. -/
theorem execute_of_present (inspect : Value → Validation (List Report)) (isOptional : Bool)
    (hv : Heap.isAbsent (s.world.resolve o e.key).1 = false) :
    execute s inspect o { e with isOptional } = e.execute s inspect o := by
  simp only [execute, hv, Bool.and_false]

/-- An absent property passes if it may be absent, and nothing else is done about it. -/
theorem execute_of_absent (inspect : Value → Validation (List Report)) (run : Run)
    (he : e.isOptional = true) (hv : Heap.isAbsent (s.world.resolve o e.key).1 = true) :
    e.execute s inspect o run =
      (.ok none, { run with log := run.log ++ (s.world.resolve o e.key).2 }) := by
  simp only [execute, he, hv, Bool.and_self, if_true]
  rfl

end Executor

namespace World

/-- Declarations that let a property be absent, put anywhere among its declarations, change nothing
where its value is there: the plan is made or fails as before, the location is the same, and so is
all that the executor does. Where the value is absent, none of the actions is taken. -/
theorem optional_absent {w : World} {strategies : StrategyRegistry} {owner : ClassId}
    {ds ds' : List Declaration} {k : Key} (hkeys : ∀ d ∈ ds', w.key? d.key = .ok k)
    (hfirst : ds ≠ [] → ds'.head?.map (·.key) = ds.head?.map (·.key)) (h : w.Loosened ds ds')
    (hoptional : ∃ d ∈ ds', w.isOptional d = true) :
    (∀ fault, (w.compile strategies owner ds').2 = .error fault ↔
      (w.compile strategies owner ds).2 = .error fault) ∧
    ∀ plan', (w.compile strategies owner ds').2 = .ok plan' → ∃ e', plan' = ⟨owner, [e']⟩ ∧
      ds'.head?.map (·.key) = some e'.key ∧
      (ds ≠ [] → ∃ e, (w.compile strategies owner ds).2 = .ok ⟨owner, [e]⟩ ∧
        e'.location = e.location ∧
        ∀ (s : Setup) (inspect : Value → Validation (List Report)) (o : Value),
          Heap.isAbsent (s.world.resolve o e'.key).1 = false →
            e'.execute s inspect o = e.execute s inspect o) ∧
      ∀ (s : Setup) (inspect : Value → Validation (List Report)) (o : Value) (run : Run),
        Heap.isAbsent (s.world.resolve o e'.key).1 = true →
          e'.questions s.world o = [] ∧ e'.execute s inspect o run =
            (.ok none, { run with log := run.log ++ (s.world.resolve o e'.key).2 }) := by
  obtain ⟨d', rest', rfl⟩ := List.exists_cons_of_ne_nil
    (fun hnil : ds' = [] => by subst hnil; obtain ⟨d, hd, -⟩ := hoptional; cases hd)
  -- what the property compiles to without the permission
  generalize hc : (w.compileProperty strategies owner d'.key ds).2 = c
  have hcompile' : (w.compile strategies owner (d' :: rest')).2 =
      c.map fun e => ⟨owner, [{ e with isOptional := true }]⟩ := by
    rw [compile_of_one_key hkeys, compileProperty_loosened h, hc, List.any_eq_true.2 hoptional]
    cases c <;> rfl
  have hcompile (hds : ds ≠ []) :
      (w.compile strategies owner ds).2 = c.map fun e => ⟨owner, [e]⟩ := by
    obtain ⟨d, rest, rfl⟩ := List.exists_cons_of_ne_nil hds
    have hd : d'.key = d.key := Option.some.inj (hfirst hds)
    rw [compile_of_one_key fun x hx => hkeys x (h.sublist.subset hx), ← hc, hd]
  refine ⟨fun fault => ?_, fun plan' hplan' => ?_⟩
  · rw [hcompile', Except.map_eq_error]
    by_cases hds : ds = []
    · subst hds
      subst hc
      simp [compileProperty, typed, ranks, compile, group, compileProperties]
    · rw [hcompile hds, Except.map_eq_error]
  · rw [hcompile'] at hplan'
    cases c with
    | error fault => cases hplan'
    | ok e =>
      cases hplan'
      have hkey : e.key = d'.key := key_compileProperty hc
      refine ⟨_, rfl, congrArg some hkey.symm, fun hds => ⟨e, hcompile hds, rfl, ?_⟩,
        fun s inspect o run hv => ⟨?_, ?_⟩⟩
      · intro s inspect o hv
        exact Executor.execute_of_present inspect true hv
      · simp only [Executor.questions, hv, Bool.and_self, if_true]
      · exact Executor.execute_of_absent inspect run rfl hv

end World

namespace Loose

/-! The label of a node may be absent, which is said in front of its rule and after it. -/

/-- The priority is too large for a double. -/
def before : Declaration :=
  { Ring.rule "label" "IsOptional" with
    options := some ⟨none, true, some (.int (10 ^ 400))⟩, location := some "before" }

/-- The priority is no number. -/
def after : Declaration :=
  { Ring.rule "label" "IsOptional" with
    message := some (.text "never"), options := some ⟨none, false, some (.text "high")⟩ }

def rules : List Declaration :=
  [{ Ring.rule "label" "IsString" with location := some "node" },
    Ring.rule "label" "ValidateNested"]

def loosened : List Declaration :=
  [before, { Ring.rule "label" "IsString" with location := some "node" }, after,
    Ring.rule "label" "ValidateNested"]

theorem loosened_rules : Ring.world.Loosened rules loosened :=
  .insert rfl (.keep _ (.insert rfl (.keep _ .nil)))

end Loose

theorem World.optional_absent_label : ∃ e e' : Executor,
    (Ring.world.compile (.initial "strategies" true) (.declared 0) Loose.rules).2 =
      .ok ⟨.declared 0, [e]⟩ ∧
    (Ring.world.compile (.initial "strategies" true) (.declared 0) Loose.loosened).2 =
      .ok ⟨.declared 0, [e']⟩ ∧
    e'.location = e.location ∧
    e'.execute Ring.setup Ring.setup.validate (.object 0) =
      e.execute Ring.setup Ring.setup.validate (.object 0) ∧
    e'.execute Ring.setup Ring.setup.validate .nothing ⟨[], [], []⟩ = (.ok none, ⟨[], [], []⟩) := by
  obtain ⟨plan', hplan'⟩ := (@compile_ok_iff Ring.world (.initial "strategies" true) (.declared 0)
    Loose.loosened).2 (by decide +kernel)
  obtain ⟨-, h⟩ := @World.optional_absent Ring.world (.initial "strategies" true) (.declared 0)
    Loose.rules Loose.loosened (.ofText "label") (by decide +kernel) (fun _ => rfl)
    Loose.loosened_rules ⟨Loose.before, .head _, rfl⟩
  obtain ⟨e', rfl, hkey, hpresent, habsent⟩ := h plan' hplan'
  obtain ⟨e, he, hlocation, hexecute⟩ := hpresent (List.cons_ne_nil _ _)
  have hkey : Value.text "label" = e'.key := Option.some.inj hkey
  refine ⟨e, e', he, hplan', hlocation, hexecute _ _ _ ?_, ?_⟩
  · rw [← hkey]
    decide +kernel
  · rw [(habsent _ _ _ _ (by rw [← hkey]; decide +kernel)).2, ← hkey]
    rfl

end Rulebook
