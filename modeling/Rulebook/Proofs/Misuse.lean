import Rulebook.Strategy.Basic

/-!
# Constraints that make no sense

A standing strategy whose constraints make no sense complains like any other, as long as it looks at
them before it uses them. Those with a bound for a length or for a size do not: they compare with it
at once, and a comparison with something that is no number has no answer. `World.Misuses` lists what
the standing strategies break down with; apart from callers' predicates there is nothing else
(`Strategy.standing_answers`, `Strategy.not_standing_answers`).

What is absent is complained about by all of them, before constraints matter.
-/

set_option autoImplicit false

namespace Rulebook

/-! ## Bounds of lengths -/

/-- A number of a kind that has an order. Truth values count as numbers here. -/
def Value.isOrdered : Value → Bool
  | .bool _ | .int _ | .float _ | .fraction _ | .decimal _ => true
  | _ => false

namespace World

variable {w : World} {c : Comparison} {bound : Value} {fault : Fault}

/-- Why lengths cannot be compared with the bound: it is no number of a kind that has an order, or a
decimal that is not a number. -/
inductive Incomparable (w : World) (c : Comparison) (bound : Value) : Fault → Prop
  | unordered : (w.heap.plain bound).isOrdered = false →
      Incomparable w c bound
        (.unordered c (w.operandName (.builtin .int)) (w.operandName (w.classOf bound)))
  | undefined {negative signalling : Bool} {payload : String} {tag : Nat} :
      w.heap.plain bound = .decimal (.nan negative signalling payload tag) →
      Incomparable w c bound .undefinedDecimal

theorem compareLength_eq_error {n : Nat} :
    w.compareLength c n bound = .error fault ↔ w.Incomparable c bound fault := by
  constructor
  · intro h
    unfold compareLength at h
    split at h
    case h_5 hplain => cases h; exact .undefined hplain
    case h_7 =>
      cases h
      refine .unordered ?_
      cases hplain : w.heap.plain bound <;> simp_all [Value.isOrdered]
    all_goals cases h
  · rintro (hplain | hplain)
    · unfold compareLength
      split <;> rename_i heq <;> simp [heq, Value.isOrdered] at hplain
      rfl
    · simp only [compareLength, hplain]
      rfl

theorem isUnbounded_eq_error : w.isUnbounded bound = .error fault ↔ fault = .undefinedDecimal ∧
    ∃ negative payload tag, w.heap.plain bound = .decimal (.nan negative true payload tag) := by
  constructor
  · intro h
    unfold isUnbounded at h
    split at h
    case h_2 hplain => cases h; exact ⟨rfl, _, _, _, hplain⟩
    all_goals cases h
  · rintro ⟨rfl, negative, payload, tag, hplain⟩
    simp only [isUnbounded, hplain]
    rfl

/-- A bound that lengths can be compared with can also be asked whether it is infinite. -/
theorem isUnbounded_ne_error {n : Nat} {holds : Bool} (h : w.compareLength c n bound = .ok holds) :
    w.isUnbounded bound ≠ .error fault := by
  intro herror
  obtain ⟨-, negative, payload, tag, hplain⟩ := isUnbounded_eq_error.1 herror
  have hfault : w.compareLength c n bound = .error .undefinedDecimal :=
    compareLength_eq_error.2 (.undefined hplain)
  rw [h] at hfault
  cases hfault

/-! ## Misuse -/

/-- Why the length of a value cannot be checked: the value is text, and a bound makes no sense that
has to be looked at. -/
inductive MisusesLength (w : World) (v low high : Value) : Fault → Prop
  | low {s : String} {fault : Fault} : w.heap.text? v = some s → w.Incomparable .lt low fault →
      MisusesLength w v low high fault
  /-- The upper bound matters for text that is long enough. -/
  | high {s : String} {fault : Fault} : w.heap.text? v = some s →
      w.compareLength .lt s.length low = .ok false → w.Incomparable .gt high fault →
      MisusesLength w v low high fault
  /-- The complaint about text that is too short depends on whether the upper bound is infinite,
  which a signalling decimal refuses to tell. -/
  | wording {s : String} {negative : Bool} {payload : String} {tag : Nat} :
      w.heap.text? v = some s → w.compareLength .lt s.length low = .ok true →
      w.heap.plain high = .decimal (.nan negative true payload tag) →
      MisusesLength w v low high .undefinedDecimal

/-- Why the size of a value cannot be checked: the value is a sequence, and its elements cannot be
counted, or the bound makes no sense. -/
inductive MisusesSize (w : World) (v : Value) (c : Comparison) (bound : Value) : Fault → Prop
  | uncounted {n : Nat} {get : Nat → Value} : w.heap.sequence? v = some (n, get) →
      Strategy.uncountable ≤ n → MisusesSize w v c bound .lengthTooLarge
  | bound {n : Nat} {get : Nat → Value} {fault : Fault} : w.heap.sequence? v = some (n, get) →
      n < Strategy.uncountable → w.Incomparable c bound fault → MisusesSize w v c bound fault

/-- Why a value cannot be matched: the value is text, and the pattern is spelled out, not malformed,
and beyond all bounds. -/
inductive MisusesPattern (w : World) (v pattern : Value) : Fault → Prop
  | repetition {s source : String} : w.heap.text? v = some s → w.heap.text? pattern = some source →
      Pattern.parse source = .error .repetitionTooLarge →
      MisusesPattern w v pattern .repetitionTooLarge
  | flags {s source : String} : w.heap.text? v = some s → w.heap.text? pattern = some source →
      Pattern.parse source = .error .incompatibleFlags →
      MisusesPattern w v pattern .incompatibleFlags

/-- What the standing strategies break down with instead of answering, by rule type. -/
def Misuses (w : World) (v : Value) (d : Declaration) (fault : Fault) : (ruleType : String) → Prop
  | "Length" =>
    w.MisusesLength v (d.constraint 0 (.int 0)) (d.constraint 1 (.float (.infinite false))) fault
  | "ArrayMinSize" => w.MisusesSize v .ge (d.constraint 0 (.int 0)) fault
  | "ArrayMaxSize" => w.MisusesSize v .le (d.constraint 0 (.float (.infinite false))) fault
  | "Matches" => w.MisusesPattern v (d.constraint 0 .nothing) fault
  | _ => False

/-- All patterns that are spelled out among the constraints can be read or are malformed. -/
def HasReadablePatterns (w : World) (d : Declaration) : Prop :=
  ∀ c ∈ d.constraints, ∀ source, w.heap.text? c = some source →
    (∃ p, Pattern.parse source = .ok p) ∨
      ∃ cause position, Pattern.parse source = .error (.malformed cause position)

end World

/-! ## Faults of the standing strategies -/

theorem Except.bind_eq_error {ε α β : Type} {x : Except ε α} {f : α → Except ε β} {e : ε} :
    (x >>= f) = .error e ↔ x = .error e ∨ ∃ a, x = .ok a ∧ f a = .error e := by
  cases x <;> simp [bind, Except.bind]

namespace Strategy

variable {w : World} {v : Value} {d : Declaration} {property : String} {fault : Fault}

theorem pure_ne_error {α : Type} {a : α} : (pure a : Except Fault α) ≠ .error fault := nofun

theorem bounded_ne_error {relation : Real → Real → Bool} {words : String} :
    bounded relation words w v d property ≠ .error fault := by
  simp only [bounded]
  split <;> exact pure_ne_error

theorem length_eq_error : length w v d property = .error fault ↔
    w.MisusesLength v (d.constraint 0 (.int 0)) (d.constraint 1 (.float (.infinite false)))
      fault := by
  simp only [length]
  generalize d.constraint 0 (.int 0) = low
  generalize d.constraint 1 (.float (.infinite false)) = high
  constructor
  · intro h
    cases hv : w.heap.text? v with
    | none => simp only [hv] at h; cases h
    | some s =>
      simp only [hv, Except.bind_eq_error] at h
      obtain hlow | ⟨short, hlow, h⟩ := h
      · exact .low hv (World.compareLength_eq_error.1 hlow)
      cases short with
      | true =>
        simp only [if_true, pure_bind, Bool.not_true, Bool.false_eq_true, if_false,
          Except.bind_eq_error] at h
        obtain hword | ⟨unbounded, -, h⟩ := h
        · obtain ⟨rfl, negative, payload, tag, hplain⟩ := World.isUnbounded_eq_error.1 hword
          exact .wording hv hlow hplain
        · split at h <;> cases h
      | false =>
        simp only [Bool.false_eq_true, if_false, Except.bind_eq_error] at h
        obtain hhigh | ⟨outside, hhigh, h⟩ := h
        · exact .high hv hlow (World.compareLength_eq_error.1 hhigh)
        · split at h
          · cases h
          · obtain hword | ⟨unbounded, -, h⟩ := Except.bind_eq_error.1 h
            · exact absurd hword (World.isUnbounded_ne_error hhigh)
            · split at h <;> cases h
  · rintro (⟨hv, hlow⟩ | ⟨hv, hlow, hhigh⟩ | ⟨hv, hlow, hhigh⟩)
    · simp [hv, World.compareLength_eq_error.2 hlow, bind, Except.bind]
    · simp [hv, hlow, World.compareLength_eq_error.2 hhigh, bind, Except.bind]
    · have hword := World.isUnbounded_eq_error.2 ⟨rfl, _, _, _, hhigh⟩
      simp [hv, hlow, hword, bind, Except.bind, pure, Except.pure]

theorem sized_eq_error {c : Comparison} {default : Value} {words : String} :
    sized c default words w v d property = .error fault ↔
      w.MisusesSize v c (d.constraint 0 default) fault := by
  simp only [sized]
  constructor
  · intro h
    cases hv : w.heap.sequence? v with
    | none => simp only [hv] at h; cases h
    | some p =>
      obtain ⟨n, get⟩ := p
      simp only [hv] at h
      by_cases hn : uncountable ≤ n
      · rw [if_pos hn] at h
        cases h
        exact .uncounted hv hn
      · rw [if_neg hn] at h
        obtain hbound | ⟨holds, -, h⟩ := Except.bind_eq_error.1 h
        · exact .bound hv (Nat.lt_of_not_le hn) (World.compareLength_eq_error.1 hbound)
        · cases h
  · rintro (⟨hv, hn⟩ | ⟨hv, hn, hbound⟩)
    · simp only [hv, if_pos hn]
      rfl
    · simp only [hv, if_neg (Nat.not_le_of_lt hn), World.compareLength_eq_error.2 hbound]
      rfl

theorem matching_eq_error : matching w v d property = .error fault ↔
    w.MisusesPattern v (d.constraint 0 .nothing) fault := by
  simp only [matching]
  generalize d.constraint 0 .nothing = pattern
  constructor
  · intro h
    cases hv : w.heap.text? v with
    | none => simp only [hv] at h; cases h
    | some s =>
      simp only [hv] at h
      obtain hread | ⟨node, -, h⟩ := Except.bind_eq_error.1 h
      · unfold patternOf at hread
        split at hread
        · rename_i source hsource
          split at hread
          case h_3 hparse => cases hread; exact .repetition hv hsource hparse
          case h_4 hparse => cases hread; exact .flags hv hsource hparse
          all_goals cases hread
        · cases hread
      · cases node <;> cases h
  · rintro (⟨hv, hsource, hparse⟩ | ⟨hv, hsource, hparse⟩) <;>
    · simp only [hv, patternOf, hsource, hparse]
      rfl

section
variable {ruleType : String} {strategy : Strategy} (h : (ruleType, strategy) ∈ standing)
  (hcustom : ruleType ≠ "Custom")
include h hcustom

/-- What holds of the standing strategies one by one holds of them all, callers' predicates
apart. -/
theorem standing_cases {motive : String → Strategy → Prop}
    (string : motive "IsString" isString) (number : motive "IsNumber" isNumber)
    (boolean : motive "IsBoolean" isBoolean) (array : motive "IsArray" isArray)
    (positive : motive "IsPositive" isPositive) (int : motive "IsInt" isInt)
    (least : motive "Min" least) (most : motive "Max" most) (length : motive "Length" length)
    (matching : motive "Matches" matching) (email : motive "IsEmail" isEmail)
    (leastSize : motive "ArrayMinSize" leastSize) (mostSize : motive "ArrayMaxSize" mostSize) :
    motive ruleType strategy := by
  simp only [standing, List.mem_cons, Prod.mk.injEq, List.not_mem_nil, or_false] at h
  rcases h with ⟨rfl, rfl⟩ | ⟨rfl, rfl⟩ | ⟨rfl, rfl⟩ | ⟨rfl, rfl⟩ | ⟨rfl, rfl⟩ | ⟨rfl, rfl⟩ |
    ⟨rfl, rfl⟩ | ⟨rfl, rfl⟩ | ⟨rfl, rfl⟩ | ⟨rfl, rfl⟩ | ⟨rfl, rfl⟩ | ⟨rfl, rfl⟩ | ⟨rfl, rfl⟩ |
    ⟨rfl, -⟩
  all_goals first
    | assumption
    | exact absurd rfl hcustom

theorem standing_eq_error :
    strategy w v d property = .error fault ↔ w.Misuses v d fault ruleType := by
  apply standing_cases h hcustom (motive := fun ruleType strategy =>
    strategy w v d property = .error fault ↔ w.Misuses v d fault ruleType)
  case least | most => exact iff_of_false bounded_ne_error not_false
  case length => exact length_eq_error
  case matching => exact matching_eq_error
  case leastSize | mostSize => exact sized_eq_error
  -- the others look at the value alone
  all_goals exact iff_of_false pure_ne_error not_false

/-- What is absent is no number, no text and no sequence, which is seen before any constraint but a
real bound is looked at. -/
theorem standing_absent (hv : Heap.isAbsent v = true) :
    ∃ complaint, strategy w v d property = .ok (some complaint) := by
  have hbounded {relation : Real → Real → Bool} {words : String} (hv : w.heap.real? v = none) :
      ∃ complaint, bounded relation words w v d property = .ok (some complaint) := by
    simp only [bounded, hv]
    split <;> exact ⟨_, rfl⟩
  cases v with
  | nothing | missing =>
    apply standing_cases h hcustom (motive := fun _ strategy =>
      ∃ complaint, strategy w _ d property = .ok (some complaint))
    case least | most => exact hbounded rfl
    all_goals exact ⟨_, rfl⟩
  | _ => cases hv

end

/-- A standing strategy other than that of callers' predicates lets a value pass or complains about
it, unless it is misused; and it complains about what is absent, whatever the constraints. -/
theorem standing_answers {ruleType : String} {strategy : Strategy}
    (h : (ruleType, strategy) ∈ standing) (hcustom : ruleType ≠ "Custom") (w : World) (v : Value)
    (d : Declaration) (property : String) :
    (∀ fault, strategy w v d property = .error fault ↔ w.Misuses v d fault ruleType) ∧
    (Heap.isAbsent v = true → ∃ complaint, strategy w v d property = .ok (some complaint)) :=
  ⟨fun _ => standing_eq_error h hcustom, standing_absent h hcustom⟩

/-- A declaration that spells its least length out. -/
def tenInLetters : Declaration :=
  ⟨.builtin .object, .text "field", .text "Length", [.text "ten"], none, none, none⟩

theorem mem_standing_length : ("Length", length) ∈ standing := by
  simp [standing]

theorem standing_answers_length :
    length World.initial (.text "ab") tenInLetters "field" =
      .error (.unordered .lt "int" "str") ∧
    ∃ complaint,
      length World.initial .missing tenInLetters "field" = .ok (some complaint) := by
  have hanswers (v : Value) := standing_answers mem_standing_length (by decide) World.initial v
    tenInLetters "field"
  exact ⟨((hanswers (.text "ab")).1 _).2 (.low rfl (.unordered rfl)),
    (hanswers .missing).2 rfl⟩

/-- Constraints that make no sense are not always complained about: a length is compared with a text
that is no number. -/
theorem not_standing_answers : ¬∀ (w : World) (ruleType : String) (strategy : Strategy),
    (ruleType, strategy) ∈ standing → ruleType ≠ "Custom" → ∀ (v : Value) (d : Declaration)
      (property : String), w.HasReadablePatterns d →
        ∃ answer, strategy w v d property = .ok answer := by
  intro hall
  have hreadable : World.initial.HasReadablePatterns tenInLetters := by
    intro c hc source hsource
    obtain rfl := List.mem_singleton.1 hc
    cases hsource
    have hparse : (Pattern.parse "ten").toOption.isSome = true := by decide +kernel
    cases h : Pattern.parse "ten" with
    | ok p => exact .inl ⟨p, rfl⟩
    | error fault => rw [h] at hparse; cases hparse
  obtain ⟨answer, hanswer⟩ := hall _ _ _ mem_standing_length (by decide) (.text "ab") tenInLetters
    "field" hreadable
  have hfault : length World.initial (.text "ab") tenInLetters "field" =
      .error (.unordered .lt "int" "str") :=
    length_eq_error.2 (.low rfl (.unordered rfl))
  rw [hfault] at hanswer
  cases hanswer

end Strategy

end Rulebook
