import Rulebook.Proofs.Operations

/-!
# Rules in annotations

The rules in the annotations of a class are registered all together or not at all. The annotations
may fail to be read, and one that was left as text may fail to be evaluated, wherever it stands and
for any reason: then nothing is registered, and the failure is about the class, or about the first
field for which that is so (`World.Blames`).
Otherwise the class gets one declaration for each rule, field by field and within a field in the
order of its markers (`World.Annotates`), after those that it has, and nothing else changes.

How an annotation is evaluated is left open: all of this holds whatever an evaluation comes to.
-/

set_option autoImplicit false

namespace Rulebook

/-- The markers beside the type of a field: those that are there, or those that an annotation that
was left as text is evaluated to. -/
inductive Hint.Carries (evaluate : Hint → Except Fault (List Marker)) : Hint → List Marker → Prop
  | given {hint : Hint} (h : hint.typeName = none) : Carries evaluate hint hint.markers
  | evaluated {hint : Hint} {markers : List Marker} (h : hint.typeName ≠ none)
      (he : evaluate hint = .ok markers) : Carries evaluate hint markers

/-- An annotation that was left as text cannot be evaluated. -/
def Hint.Fails (evaluate : Hint → Except Fault (List Marker)) (hint : Hint) (fault : Fault) :
    Prop :=
  hint.typeName ≠ none ∧ evaluate hint = .error fault

/-- The declaration that a marker makes for a field of a class: a rule makes one, for the property
of the same name, and anything else makes none. -/
def Marker.declares (c : ClassId) (field : String) : Marker → Option Declaration
  | rule s => some ⟨c, .text field, s.ruleType, s.constraints, none, some s.options, s.location⟩
  | note _ => none

namespace World

/-- The declarations that the annotations of a class make, field by field. -/
inductive Annotates (evaluate : Hint → Except Fault (List Marker)) (c : ClassId) :
    Catalog String Hint → List Declaration → Prop
  | nil : Annotates evaluate c [] []
  | field {field : String} {hint : Hint} {markers : List Marker} {rest : Catalog String Hint}
      {ds : List Declaration} (h : hint.Carries evaluate markers)
      (hrest : Annotates evaluate c rest ds) :
      Annotates evaluate c ((field, hint) :: rest)
        (markers.filterMap (Marker.declares c field) ++ ds)

/-- What a failure to read annotations is about: something that is no class, a class whose
annotations cannot be read, or the first field of a class whose annotation fails. -/
inductive Blames (w : World) (evaluate : ClassId → Hint → Except Fault (List Marker)) :
    Value → Misconfiguration → Prop
  | target {target : Value} (h : ∀ c, target ≠ .ofClass c) :
      Blames w evaluate target (.notAnnotated (w.nameOfClassOf target))
  | annotations {c : ClassId} {fault : Fault} (h : w.annotationsOf c = .error fault) :
      Blames w evaluate (.ofClass c) (.unreadableAnnotations (w.className c) fault)
  | field {c : ClassId} {before after : Catalog String Hint} {field : String} {hint : Hint}
      {fault : Fault} (hsplit : w.annotationsOf c = .ok (before ++ (field, hint) :: after))
      (hbefore : ∀ e ∈ before, ∃ markers, e.2.Carries (evaluate c) markers)
      (hfails : hint.Fails (evaluate c) fault) :
      Blames w evaluate (.ofClass c) (.unreadableHint (w.className c) field fault)

/-- The target is a class, and all its annotations can be read and evaluated. -/
def IsReadable (w : World) (evaluate : ClassId → Hint → Except Fault (List Marker))
    (target : Value) : Prop :=
  ∃ c hints, target = .ofClass c ∧ w.annotationsOf c = .ok hints ∧
    ∀ e ∈ hints, ∀ fault, ¬e.2.Fails (evaluate c) fault

end World

/-! ## Reading annotations -/

theorem Hint.understand_cases (evaluate : Hint → Except Fault (List Marker)) (hint : Hint) :
    (∃ markers, hint.understand evaluate = .ok markers ∧ hint.Carries evaluate markers) ∨
      ∃ fault, hint.understand evaluate = .error fault ∧ hint.Fails evaluate fault := by
  unfold understand
  cases hname : hint.typeName with
  | none => exact .inl ⟨hint.markers, rfl, .given hname⟩
  | some name =>
    have hne : hint.typeName ≠ none := by simp [hname]
    simp only [Option.isSome_some, if_true]
    cases he : evaluate hint with
    | ok markers => exact .inl ⟨markers, rfl, .evaluated hne he⟩
    | error fault => exact .inr ⟨fault, rfl, hne, he⟩

/-- An annotation with markers does not fail. -/
theorem Hint.Carries.not_fails {evaluate : Hint → Except Fault (List Marker)} {hint : Hint}
    {markers : List Marker} (h : hint.Carries evaluate markers) (fault : Fault) :
    ¬hint.Fails evaluate fault := by
  rintro ⟨hne, hfails⟩
  cases h with
  | given hname => exact hne hname
  | evaluated _ he => rw [he] at hfails; cases hfails

theorem filterMap_fieldMarkers (c : ClassId) (field : String) (markers : List Marker) :
    (markers.map fun m => (field, m)).filterMap
        (fun (field, marker) => marker.rule?.map fun s => s.bind c (.text field)) =
      markers.filterMap (Marker.declares c field) := by
  rw [List.filterMap_map]
  congr 1
  funext m
  cases m <;> rfl

namespace World

variable {evaluate : Hint → Except Fault (List Marker)}

theorem fieldMarkers_cases (c : ClassId) (owner : String) (hints : Catalog String Hint) :
    (∃ before field hint after fault, hints = before ++ (field, hint) :: after ∧
        (∀ e ∈ before, ∃ markers, e.2.Carries evaluate markers) ∧ hint.Fails evaluate fault ∧
        fieldMarkers owner evaluate hints =
          .error (.misconfigured (.unreadableHint owner field fault))) ∨
      ∃ markers, fieldMarkers owner evaluate hints = .ok markers ∧
        Annotates evaluate c hints (markers.filterMap fun (field, marker) =>
          marker.rule?.map fun s => s.bind c (.text field)) := by
  induction hints with
  | nil => exact .inr ⟨[], rfl, .nil⟩
  | cons e rest ih =>
    obtain ⟨field, hint⟩ := e
    rcases hint.understand_cases evaluate with ⟨markers, hread, hcarries⟩ | ⟨fault, hread, hfails⟩
    · rcases ih with ⟨before, field', hint', after, fault, hsplit, hbefore, hfails, hrest⟩ |
          ⟨others, hrest, hothers⟩
      · refine .inl ⟨(field, hint) :: before, field', hint', after, fault, by rw [hsplit]; rfl,
          List.forall_mem_cons.2 ⟨⟨markers, hcarries⟩, hbefore⟩, hfails, ?_⟩
        simp [fieldMarkers, hread, hrest, bind, Except.bind, pure, Except.pure]
      · refine .inr ⟨markers.map (fun m => (field, m)) ++ others, ?_, ?_⟩
        · simp [fieldMarkers, hread, hrest, bind, Except.bind, pure, Except.pure]
        · rw [List.filterMap_append, filterMap_fieldMarkers]
          exact .field hcarries hothers
    · refine .inl ⟨[], field, hint, rest, fault, rfl, List.forall_mem_nil _, hfails, ?_⟩
      simp [fieldMarkers, hread, bind, Except.bind, throw, throwThe, MonadExceptOf.throw]

theorem Annotates.carries {c : ClassId} {hints : Catalog String Hint} {ds : List Declaration}
    (h : Annotates evaluate c hints ds) : ∀ e ∈ hints, ∃ markers, e.2.Carries evaluate markers := by
  induction h with
  | nil => exact fun _ he => nomatch he
  | field h _ ih => exact List.forall_mem_cons.2 ⟨⟨_, h⟩, ih⟩

/-- All that annotations make belongs to the class. -/
theorem Annotates.owner {c : ClassId} {hints : Catalog String Hint} {ds : List Declaration}
    (h : Annotates evaluate c hints ds) : ∀ d ∈ ds, d.owner = c := by
  induction h with
  | nil =>
    intro d hd
    cases hd
  | field _ _ ih =>
    intro d hd
    rcases List.mem_append.1 hd with hd | hd
    · obtain ⟨m, -, hm⟩ := List.mem_filterMap.1 hd
      cases m with
      | rule s => cases hm; rfl
      | note v => cases hm
    · exact ih d hd

/-- Reading the annotations of a target fails because of something, or it is a class whose
annotations make the declarations that are read. -/
theorem annotated_cases (w : World) (evaluate : ClassId → Hint → Except Fault (List Marker))
    (target : Value) :
    (∃ m, w.Blames evaluate target m ∧ w.annotated evaluate target = .error (.misconfigured m)) ∨
      ∃ c hints ds, target = .ofClass c ∧ w.annotationsOf c = .ok hints ∧
        Annotates (evaluate c) c hints ds ∧ w.annotated evaluate target = .ok ds := by
  by_cases hclass : ∃ c, target = .ofClass c
  · obtain ⟨c, rfl⟩ := hclass
    cases hannotations : w.annotationsOf c with
    | error fault =>
      refine .inl ⟨_, .annotations hannotations, ?_⟩
      simp only [annotated, hannotations]
      rfl
    | ok hints =>
      rcases @fieldMarkers_cases (evaluate c) c (w.className c) hints with
        ⟨before, field, hint, after, fault, rfl, hbefore, hfails, hread⟩ | ⟨markers, hread, hds⟩
      · refine .inl ⟨_, .field hannotations hbefore hfails, ?_⟩
        simp [annotated, hannotations, hread, bind, Except.bind, pure, Except.pure]
      · refine .inr ⟨c, hints, _, rfl, hannotations, hds, ?_⟩
        simp [annotated, hannotations, hread, bind, Except.bind, pure, Except.pure]
  · have hne (c : ClassId) : target ≠ .ofClass c := fun h => hclass ⟨c, h⟩
    refine .inl ⟨_, .target hne, ?_⟩
    cases target with
    | ofClass c => exact absurd rfl (hne c)
    | _ => rfl

theorem Blames.not_isReadable {w : World} {evaluate : ClassId → Hint → Except Fault (List Marker)}
    {target : Value} {m : Misconfiguration} (h : w.Blames evaluate target m) :
    ¬w.IsReadable evaluate target := by
  rintro ⟨c, hints, rfl, hannotations, hreads⟩
  cases h with
  | target hne => exact hne c rfl
  | annotations h => rw [hannotations] at h; cases h
  | @field _ before after field hint fault hsplit _ hfails =>
    rw [hannotations] at hsplit
    cases hsplit
    exact hreads (field, hint) (by simp) fault hfails

end World

/-! ## Registering what annotations make -/

namespace Operation

theorem validated_eq (evaluate : World → ClassId → Hint → Except Fault (List Marker))
    (registry : String) (target : Value) (ws : Workspace) :
    validated evaluate registry target ws =
      match ws.world.annotated (evaluate ws.world) target with
      | .ok ds => (.ok target, { ws with
          registries := ws.registries.put registry ((ws.registry registry).addAll ds) })
      | .error failure => (.error failure, ws) := by
  rw [validated, get_bind]
  cases ws.world.annotated (evaluate ws.world) target <;> rfl

/-- The rules in annotations are registered all together or not at all. If the target is no class,
its own annotations cannot be read or one of them that was left as text cannot be evaluated, nothing
at all changes and the failure names the class or the first field that cannot. Otherwise the target
is handed back, its declarations are those it had and one for each rule in its own annotations, in
their order, and no other class and no other registry gets any. -/
theorem validated_atomic (evaluate : World → ClassId → Hint → Except Fault (List Marker))
    (registry : String) (target : Value) (ws : Workspace) :
    (¬ws.world.IsReadable (evaluate ws.world) target →
      ∃ m, ws.world.Blames (evaluate ws.world) target m ∧
        validated evaluate registry target ws = (.error (.misconfigured m), ws)) ∧
    (ws.world.IsReadable (evaluate ws.world) target →
      ∃ c hints ds ws', target = .ofClass c ∧ ws.world.annotationsOf c = .ok hints ∧
        World.Annotates (evaluate ws.world c) c hints ds ∧
        validated evaluate registry target ws = (.ok target, ws') ∧
        (ws'.registry registry).rulesOf c = (ws.registry registry).rulesOf c ++ ds ∧
        (∀ c', c' ≠ c → (ws'.registry registry).rulesOf c' = (ws.registry registry).rulesOf c') ∧
        ∀ name, name ≠ registry → ws'.registry name = ws.registry name) := by
  rw [validated_eq]
  rcases ws.world.annotated_cases (evaluate ws.world) target with
    ⟨m, hblames, hread⟩ | ⟨c, hints, ds, rfl, hannotations, hds, hread⟩
  · rw [hread]
    exact ⟨fun _ => ⟨m, hblames, rfl⟩, fun hreadable => absurd hreadable hblames.not_isReadable⟩
  · have hreadable : ws.world.IsReadable (evaluate ws.world) (.ofClass c) := by
      refine ⟨c, hints, rfl, hannotations, fun e he fault => ?_⟩
      obtain ⟨markers, hcarries⟩ := hds.carries e he
      exact hcarries.not_fails fault
    have hown : ds.filter (·.owner = c) = ds :=
      List.filter_eq_self.2 fun d hd => decide_eq_true (hds.owner d hd)
    have hother {c' : ClassId} (hc' : c' ≠ c) : ds.filter (·.owner = c') = [] := by
      rw [List.filter_eq_nil_iff]
      intro d hd
      simp [hds.owner d hd, hc'.symm]
    rw [hread]
    refine ⟨fun hno => absurd hreadable hno,
      fun _ => ⟨c, hints, ds, _, rfl, hannotations, hds, rfl, ?_, ?_, ?_⟩⟩
    · rw [Workspace.registry_put, if_pos rfl, Registry.rulesOf_addAll, hown]
    · intro c' hc'
      rw [Workspace.registry_put, if_pos rfl, Registry.rulesOf_addAll, hother hc', List.append_nil]
    · intro name hname
      rw [Workspace.registry_put, if_neg hname.symm]

end Operation

/-! ## A class that can be read, and one that cannot -/

namespace Family

/-- A rule without constraints and options. -/
def spec (ruleType : String) : RuleSpec := ⟨.text ruleType, [], ⟨none, false, none⟩, none⟩

/-- A field with a remark and a rule, one without either, and one whose type is the class itself. -/
def person : Catalog String Hint :=
  [("name", ⟨none, [.note (.text "in full"), .rule (spec "IsString")]⟩), ("age", ⟨none, []⟩),
    ("parent", ⟨some "Person", [.rule (spec "IsOptional"), .rule (spec "ValidateNested")]⟩)]

/-- A field with a rule, and one whose type is not known. -/
def guest : Catalog String Hint :=
  [("name", ⟨none, [.rule (spec "IsString")]⟩),
    ("host", ⟨some "Stranger", [.rule (spec "IsArray")]⟩)]

def personClass : ClassDef :=
  ⟨"Person", "people", [.declared 0, .builtin .object], none, [], [], none, .ok person⟩

def guestClass : ClassDef :=
  ⟨"Guest", "people", [.declared 1, .declared 0, .builtin .object], none, [], [], none, .ok guest⟩

def workspace : Workspace :=
  { Workspace.initial with
    world := { World.initial with classes := #[personClass, guestClass] } }

/-- The name of a type means something if a class is called so. -/
def evaluate (w : World) (_ : ClassId) (hint : Hint) : Except Fault (List Marker) :=
  match hint.typeName with
  | none => .ok hint.markers
  | some name =>
    if w.classes.any fun d => d.name = name then .ok hint.markers else .error (.unknownName name)

theorem isReadable_person :
    workspace.world.IsReadable (evaluate workspace.world) (.ofClass (.declared 0)) := by
  have hknown : (workspace.world.classes.any fun d => d.name = "Person") = true := by
    decide +kernel
  refine ⟨.declared 0, person, rfl, rfl, fun e he fault => ?_⟩
  rintro ⟨hname, hfails⟩
  simp only [person, List.mem_cons, List.not_mem_nil, or_false] at he
  rcases he with rfl | rfl | rfl
  · exact hname rfl
  · exact hname rfl
  · simp only [evaluate, hknown] at hfails
    cases hfails

theorem not_isReadable_guest :
    ¬workspace.world.IsReadable (evaluate workspace.world) (.ofClass (.declared 1)) := by
  have hunknown : (workspace.world.classes.any fun d => d.name = "Stranger") = false := by
    decide +kernel
  rintro ⟨c, hints, hc, hannotations, hreads⟩
  cases hc
  cases hannotations
  refine hreads ("host", ⟨some "Stranger", [.rule (spec "IsArray")]⟩) (.tail _ (.head _))
    (.unknownName "Stranger") ⟨nofun, ?_⟩
  simp only [evaluate, hunknown]
  rfl

end Family

theorem Operation.validated_atomic_family :
    ¬Family.workspace.world.IsReadable (Family.evaluate Family.workspace.world)
      (.ofClass (.declared 1)) ∧
    (∃ m, validated Family.evaluate "rules" (.ofClass (.declared 1)) Family.workspace =
      (.error (.misconfigured m), Family.workspace)) ∧
    Family.workspace.world.IsReadable (Family.evaluate Family.workspace.world)
      (.ofClass (.declared 0)) ∧
    ∃ ds ws',
      World.Annotates (Family.evaluate Family.workspace.world (.declared 0)) (.declared 0)
        Family.person ds ∧
      validated Family.evaluate "rules" (.ofClass (.declared 0)) Family.workspace =
        (.ok (.ofClass (.declared 0)), ws') ∧
      (ws'.registry "rules").rulesOf (.declared 0) = ds := by
  obtain ⟨m, -, hfails⟩ := (validated_atomic Family.evaluate "rules" (.ofClass (.declared 1))
    Family.workspace).1 Family.not_isReadable_guest
  obtain ⟨c, hints, ds, ws', hc, hannotations, hds, hreads, hrules, -⟩ := (validated_atomic
    Family.evaluate "rules" (.ofClass (.declared 0)) Family.workspace).2 Family.isReadable_person
  cases hc
  cases hannotations
  exact ⟨Family.not_isReadable_guest, ⟨m, hfails⟩, Family.isReadable_person, ds, ws', hds, hreads,
    hrules⟩

end Rulebook
