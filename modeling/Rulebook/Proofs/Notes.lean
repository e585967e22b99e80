import Rulebook.Proofs.Operations

/-!
# What a validation notes down

A validation adds records for two reasons: something failed while it ran, or a plan was made for it.
Where the plans of all classes that it asks for are kept, there is only the first reason
(`Operation.log_validate_kept`), as the course of a validation notes down failures alone
(`World.survey_notesOnly`).
-/

set_option autoImplicit false

namespace Rulebook

namespace Record

/-- The record says that a declaration was dropped. -/
def isDrop : Record → Bool
  | malformedKey .. | malformedType .. | unknownType .. => true
  | _ => false

/-- The record is about the making of a plan. -/
def isOfCompilation : Record → Bool
  | compiled .. | malformedPriority .. => true
  | r => r.isDrop

/-- What a record about a declaration names: what is wrong with it, as it is shown, and where the
declaration stands. -/
def names : Record → List String
  | malformedKey shown owner => [shown, owner]
  | malformedType shown owner property => [shown, owner, property]
  | unknownType ruleType owner property => [ruleType, owner, property]
  | malformedPriority shown ruleType owner property => [shown, ruleType, owner, property]
  | _ => []

/-- The record is a warning that names what it is about and ends with a consequence. -/
structure Warns (r : Record) (consequence : String) : Prop where
  level : r.level = .warning
  ending : ∃ s, r.text = s ++ consequence
  named : ∀ name ∈ r.names, name.toList <:+: r.text.toList

/-- Whatever is among the parts of a text stands in it. -/
theorem infix_of_parts {text : String} {names : List String} (parts : List String)
    (htext : text.toList = parts.flatMap String.toList) (hnames : names ⊆ parts) :
    ∀ name ∈ names, name.toList <:+: text.toList := by
  intro name hname
  obtain ⟨before, after, rfl⟩ := List.append_of_mem (hnames hname)
  rw [htext, List.flatMap_append, List.flatMap_cons]
  exact List.infix_append' ..

/-- A declaration that is dropped is warned about in these words. -/
theorem warns_of_isDrop {r : Record} (h : r.isDrop = true) : r.Warns ", rule ignored" := by
  cases r with
  | unknownType ruleType owner property =>
    let start := "Unknown rule type '" ++ ruleType ++ "' on " ++ owner ++ "." ++ property
    have htext : (unknownType ruleType owner property).text = start ++ ", rule ignored" := rfl
    refine ⟨rfl, ⟨start, htext⟩, infix_of_parts ["Unknown rule type '", ruleType, "' on ",
      owner, ".", property, ", rule ignored"] ?_ (by simp [names])⟩
    simp [htext, start]
  | malformedType shown owner property =>
    let start := "Rule type " ++ shown ++ " on " ++ owner ++ "." ++ property
    have htext : (malformedType shown owner property).text =
      start ++ " is not a string, rule ignored" := rfl
    have hend : " is not a string, rule ignored" = " is not a string" ++ ", rule ignored" := by
      decide
    refine ⟨rfl, ⟨start ++ " is not a string", by rw [htext, hend, ← String.append_assoc]⟩,
      infix_of_parts ["Rule type ", shown, " on ", owner, ".", property,
        " is not a string, rule ignored"] ?_ (by simp [names])⟩
    simp [htext, start]
  | malformedKey shown owner =>
    let start := "Property key " ++ shown ++ " on " ++ owner
    have htext : (malformedKey shown owner).text = start ++ " is not hashable, rule ignored" := rfl
    have hend : " is not hashable, rule ignored" = " is not hashable" ++ ", rule ignored" := by
      decide
    refine ⟨rfl, ⟨start ++ " is not hashable", by rw [htext, hend, ← String.append_assoc]⟩,
      infix_of_parts ["Property key ", shown, " on ", owner,
        " is not hashable, rule ignored"] ?_ (by simp [names])⟩
    simp [htext, start]
  | _ => cases h

/-- A priority that is counted as zero is warned about in these words. -/
theorem warns_malformedPriority (shown ruleType owner property : String) :
    (malformedPriority shown ruleType owner property).Warns ", using 0" := by
  let start := "Priority " ++ shown ++ " of '" ++ ruleType ++ "' on " ++ owner ++ "." ++ property
  have htext : (malformedPriority shown ruleType owner property).text =
    start ++ " is not a number, using 0" := rfl
  have hend : " is not a number, using 0" = " is not a number" ++ ", using 0" := by decide
  refine ⟨rfl, ⟨start ++ " is not a number", by rw [htext, hend, ← String.append_assoc]⟩,
    infix_of_parts ["Priority ", shown, " of '", ruleType, "' on ", owner, ".", property,
      " is not a number, using 0"] ?_ (by simp [names])⟩
  simp [htext, start]

end Record

/-- The records that events add. -/
def Event.records (events : List Event) : List Record :=
  events.flatMap fun
    | asked _ => []
    | noted records => records

/-- Where all plans are kept already, the log grows by what is noted during the run alone. -/
theorem Setup.log_replay (s : Setup) {run : Run} {events : List Event}
    (h : ∀ c ∈ Event.classes events, (run.plans.get? c).isSome = true) :
    (s.replay run events).log = run.log ++ Event.records events := by
  induction events generalizing run with
  | nil => simp [Event.records]
  | cons e rest ih =>
    rw [replay_cons]
    cases e with
    | asked c =>
      obtain ⟨hc, hrest⟩ := List.forall_mem_cons.1 h
      obtain ⟨plan, hplan⟩ := Option.isSome_iff_exists.1 hc
      have hsame : s.apply run (.asked c) = run := by simp only [apply, hplan]
      rw [hsame, ih hrest]
      rfl
    | noted records =>
      have hrest : (s.replay (s.apply run (.noted records)) rest).log =
          (s.apply run (.noted records)).log ++ Event.records rest := ih h
      rw [hrest]
      exact List.append_assoc ..

namespace Course

variable {α β : Type}

/-- All records that are added are of a kind. -/
def NotesOnly (P : Record → Prop) (t : Course α) : Prop := ∀ r ∈ Event.records t.events, P r

variable {P : Record → Prop}

theorem NotesOnly.pure (a : α) : (pure a : Course α).NotesOnly P := List.forall_mem_nil _

theorem NotesOnly.plan (supply : Supply) (c : ClassId) : (plan supply c).NotesOnly P :=
  List.forall_mem_nil _

theorem NotesOnly.note {records : List Record} (h : ∀ r ∈ records, P r) :
    (note records).NotesOnly P := by
  intro r hr
  exact h r (by simpa [Event.records, Course.note] using hr)

theorem NotesOnly.bind {t : Course α} {f : α → Course β} (h : t.NotesOnly P)
    (hf : ∀ a, (f a).NotesOnly P) : (t >>= f).NotesOnly P := by
  obtain ⟨events, outcome⟩ := t
  cases outcome with
  | error fault => exact h
  | ok a =>
    intro r hr
    change r ∈ Event.records (events ++ (f a).events) at hr
    rw [Event.records, List.flatMap_append] at hr
    exact (List.mem_append.1 hr).elim (h r) (hf a r)

theorem NotesOnly.gather {first : Bool} {look : α → Course (Option β)}
    (h : ∀ a, (look a).NotesOnly P) (as : List α) : (gather first look as).NotesOnly P := by
  induction as with
  | nil => exact .pure []
  | cons a rest ih =>
    refine (h a).bind fun o => ?_
    cases o with
    | none => exact ih
    | some b =>
      cases first with
      | true => exact .pure [b]
      | false => exact ih.bind fun _ => .pure _

end Course

theorem Question.answer_notesOnly {w : World} {name : String} {q : Question}
    {nested : Value → Course (List Report)}
    (h : ∀ v, (nested v).NotesOnly fun r => r.isOfCompilation = false) :
    (q.answer w name nested).NotesOnly fun r => r.isOfCompilation = false := by
  unfold answer
  split
  · refine .bind (.note fun r hr => ?_) fun _ => .pure _
    cases hv : Verdict.ask w _ _ name q.subject with
    | breaks text =>
      rw [hv, Verdict.records, List.mem_singleton] at hr
      rw [hr]
      rfl
    | _ => rw [hv] at hr; cases hr
  · split
    · exact (h _).bind fun _ => .pure _
    · exact .pure _

/-- A validation that makes no plans notes down failures only. -/
theorem World.survey_notesOnly (w : World) (first : Bool) (supply : Supply) (path : List Address)
    (v : Value) : (w.survey first supply path v).NotesOnly fun r => r.isOfCompilation = false := by
  induction path, v using enter_induction with
  | skip path v hs => rw [survey_of_skips hs]; exact .pure []
  | enter path a hc ha ih =>
    rw [survey_enter hc ha]
    refine (Course.NotesOnly.plan _ _).bind fun plan => .gather (fun e => ?_) _
    refine .bind (.note fun r hr => ?_) fun _ => ?_
    · unfold resolve at hr
      split at hr
      · cases hr
      · rw [List.mem_singleton] at hr
        rw [hr]
        rfl
    · refine .bind ?_ fun _ => .pure _
      exact .bind (.gather (fun q => Question.answer_notesOnly ih) _) fun _ => .pure _

/-- A validation that finds the plans of all classes that it asks for made already adds nothing to
the log that is about plans. -/
theorem Operation.log_validate_kept {engine : String} {v options : Value} {ws : Workspace}
    (h : ∀ settings, ws.world.settingsOf options = .ok settings → ∀ c ∈ Event.classes
      (ws.world.survey settings.abortEarly (ws.supply engine) [] v).events,
        ((ws.engine engine).plans.get? c).isSome = true) :
    ∃ records, (validate engine v options ws).2.log = ws.log ++ records ∧
      ∀ r ∈ records, r.isOfCompilation = false := by
  rw [validate_eq]
  cases ho : ws.world.settingsOf options with
  | error fault => exact ⟨[], (List.append_nil _).symm, List.forall_mem_nil _⟩
  | ok settings =>
    have hlog := @Setup.log_replay (ws.setup (ws.engine engine) settings)
      ⟨(ws.engine engine).plans, [], []⟩ _ (h settings ho)
    have hrun := (ws.setup (ws.engine engine) settings).validate_eq v
      ⟨(ws.engine engine).plans, [], []⟩
    refine ⟨_, ?_, ws.world.survey_notesOnly settings.abortEarly (ws.supply engine) [] v⟩
    dsimp only
    rw [running_eq]
    dsimp only at hrun ⊢
    rw [hrun]
    exact congrArg (ws.log ++ ·) hlog

end Rulebook
