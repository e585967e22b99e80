import Mathlib.Order.WithBot
import Rulebook.Proofs.Integrality

/-!
# Bounds

Five rules compare a number with a bound: the value itself, the length of a text, the size of a
sequence. Real numbers of all kinds are compared by their exact values among the rational numbers
with two infinities (`Real.value?`, `Real.AtMost`), in which there is no place for what is not a
number.

The bounds are included, and four of the rules let nothing pass when the bound is not a number. The
fifth asks whether a text is too short or too long instead of whether it is long and short enough,
so that a bound that is not a number bounds nothing there (`Strategy.bounds_exact`,
`Strategy.length_not_exact`).
-/

set_option autoImplicit false

namespace Rulebook

/-! ## The order -/

namespace Extended

/-- The place among the rational numbers with two infinities. -/
def value : Extended → WithBot (WithTop Rat)
  | .bottom => ⊥
  | .rat q => ((q : WithTop Rat) : WithBot (WithTop Rat))
  | .top => ⊤

theorem le_iff_value_le {a b : Extended} : a.le b = true ↔ a.value ≤ b.value := by
  cases a <;> cases b <;> simp [le, value]

theorem holdsLe_iff {a b : Option Extended} :
    holdsLe a b = true ↔ ∃ x ∈ a, ∃ y ∈ b, x.value ≤ y.value := by
  cases a <;> cases b <;> simp [holdsLe, le_iff_value_le]

theorem not_holdsLt_iff {a b : Option Extended} :
    holdsLt a b = false ↔ ∀ x ∈ a, ∀ y ∈ b, y.value ≤ x.value := by
  cases a <;> cases b <;> simp [holdsLt, lt, le_iff_value_le]

end Extended

namespace Real

/-- The exact value of a number among the rational numbers with two infinities; none when it is not
a number. -/
def value? : Real → Option (WithBot (WithTop Rat))
  | .whole n => some (((n : Rat) : WithTop Rat) : WithBot (WithTop Rat))
  | .float (.finite negative m e) =>
    let magnitude : Rat := m * 2 ^ e
    some (((if negative then -magnitude else magnitude : Rat) : WithTop Rat) :
      WithBot (WithTop Rat))
  | .float (.infinite negative) => some (if negative then ⊥ else ⊤)
  | .float (.nan _) => none
  | .fraction q => some ((q : WithTop Rat) : WithBot (WithTop Rat))

theorem map_value_extended? (r : Real) : r.extended?.map Extended.value = r.value? := by
  cases r with
  | whole n => rfl
  | fraction q => rfl
  | float d =>
    cases d with
    | finite negative m e =>
      simp only [extended?, Extended.ofDouble?, Double.toRat?, Double.scaled_eq, value?]
      rfl
    | infinite negative => cases negative <;> rfl
    | nan tag => rfl

/-- The number is not something that is not a number. -/
def IsNumber (r : Real) : Prop := r.value?.isSome

/-- Both are numbers, and the value of the first is at most that of the second. -/
def AtMost (a b : Real) : Prop := ∃ x ∈ a.value?, ∃ y ∈ b.value?, x ≤ y

theorem le_iff {a b : Real} : a.le b = true ↔ a.AtMost b := by
  simp [le, AtMost, Extended.holdsLe_iff, ← map_value_extended?]

/-- What is not below another number is at least as large, provided that both are numbers. -/
theorem not_lt_iff {a b : Real} : a.lt b = false ↔ (a.IsNumber → b.IsNumber → b.AtMost a) := by
  rw [lt, Extended.not_holdsLt_iff]
  simp only [IsNumber, AtMost, ← map_value_extended?]
  cases a.extended? <;> cases b.extended? <;> simp

theorem isNumber_whole (n : Int) : (whole n).IsNumber := rfl

theorem atMost_infinite (n : Int) : (whole n).AtMost (.float (.infinite false)) :=
  ⟨_, rfl, _, rfl, le_top⟩

end Real

/-! ## Bounds that are given -/

namespace Declaration

variable {h : Heap} {d : Declaration} {i : Nat} {b : Option Real}

/-- The number that is given as a bound at a place of the constraints; none where there is no
constraint, or the one that stands for none. -/
inductive Gives (h : Heap) (d : Declaration) (i : Nat) : Option Real → Prop
  | missing : d.constraints[i]? = none → Gives h d i none
  | nothing : d.constraints[i]? = some .nothing → Gives h d i none
  | number {v : Value} {r : Real} : d.constraints[i]? = some v → h.real? v = some r →
      Gives h d i (some r)

/-- The bound that a strategy sees: the given one, or else the default. -/
theorem Gives.real?_constraint (hb : d.Gives h i b) {default : Value} {r : Real}
    (hdefault : h.real? default = some r) :
    h.real? (d.constraint i default) = some (b.getD r) := by
  cases hb with
  | missing hnone => simpa [constraint, hnone] using hdefault
  | nothing hnothing => simpa [constraint, hnothing, Value.present?] using hdefault
  | @number v r' hsome hv =>
    have hpresent : Value.present? v = some v := by
      cases v with
      | nothing => cases hv
      | _ => rfl
    simpa [constraint, hsome, hpresent] using hv

end Declaration

namespace World

variable {w : World} {bound : Value} {r : Real}

/-- Lengths are compared with bounds as whole numbers are. -/
theorem compareLength_of_real (hr : w.heap.real? bound = some r) (c : Comparison) (n : Nat) :
    w.compareLength c n bound = .ok (holds c (Real.whole n).extended? r.extended?) := by
  simp only [Heap.real?] at hr
  split at hr <;> cases hr <;> simp only [compareLength, *] <;> rfl

theorem isUnbounded_of_real (hr : w.heap.real? bound = some r) :
    ∃ unbounded, w.isUnbounded bound = .ok unbounded := by
  simp only [Heap.real?] at hr
  split at hr <;> cases hr <;> simp only [isUnbounded, *] <;> exact ⟨_, rfl⟩

end World

/-! ## Strategies with bounds -/

namespace Strategy

variable {w : World} {v : Value} {d : Declaration} {property : String} {low : Real}

/-- The strategy lets the value pass under the one condition, and complains about it under the
other. -/
def Answers (strategy : Strategy) (w : World) (v : Value) (d : Declaration) (property : String)
    (passes complains : Prop) : Prop :=
  (strategy w v d property = .ok none ↔ passes) ∧
    ((∃ complaint, strategy w v d property = .ok (some complaint)) ↔ complains)

/-- The strategy lets the value pass under the condition, and complains about it otherwise. -/
def Decides (strategy : Strategy) (w : World) (v : Value) (d : Declaration) (property : String)
    (passes : Prop) : Prop :=
  strategy.Answers w v d property passes ¬passes

theorem decides_complainUnless {strategy : Strategy} {holds : Bool} {complaint : String}
    (h : strategy w v d property = pure (complainUnless holds complaint)) :
    strategy.Decides w v d property (holds = true) := by
  rw [Decides, Answers, h]
  cases holds <;> simp [complainUnless, pure, Except.pure]

theorem bounded_decides {relation : Real → Real → Bool} {words : String}
    (hlow : w.heap.real? (d.constraint 0 (.int 0)) = some low) :
    (bounded relation words).Decides w v d property
      (∃ r, w.heap.real? v = some r ∧ relation r low = true) := by
  cases hv : w.heap.real? v with
  | none =>
    have heq : bounded relation words w v d property = pure (complainUnless false
        (property ++ words ++ w.plainText (d.constraint 0 (.int 0)))) := by
      simp only [bounded, hlow, hv]
    simpa using decides_complainUnless heq
  | some r =>
    have heq : bounded relation words w v d property = pure (complainUnless (relation r low)
        (property ++ words ++ w.plainText (d.constraint 0 (.int 0)))) := by
      simp only [bounded, hlow, hv]
    simpa using decides_complainUnless heq

theorem length_decides {high : Real} (hlow : w.heap.real? (d.constraint 0 (.int 0)) = some low)
    (hhigh : w.heap.real? (d.constraint 1 (.float (.infinite false))) = some high) :
    length.Decides w v d property (∃ s, w.heap.text? v = some s ∧
      (Real.whole s.length).lt low = false ∧ high.lt (.whole s.length) = false) := by
  cases hv : w.heap.text? v with
  | none => simp [Decides, Answers, length, hv, pure, Except.pure]
  | some s =>
    obtain ⟨unbounded, hunbounded⟩ := World.isUnbounded_of_real hhigh
    have hshort : w.compareLength .lt s.length (d.constraint 0 (.int 0)) =
        .ok ((Real.whole s.length).lt low) := World.compareLength_of_real hlow _ _
    have hlong : w.compareLength .gt s.length (d.constraint 1 (.float (.infinite false))) =
        .ok (high.lt (.whole s.length)) := World.compareLength_of_real hhigh _ _
    cases hl : (Real.whole s.length).lt low <;> cases hh : high.lt (.whole s.length) <;>
      cases unbounded <;>
      simp [Decides, Answers, length, hv, hshort, hlong, hl, hh, hunbounded, pure, Except.pure,
        bind, Except.bind]

/-- Sequences too long to be counted are neither let pass nor complained about. -/
theorem sized_answers {c : Comparison} {default : Value} {words : String} {bound : Real}
    (hbound : w.heap.real? (d.constraint 0 default) = some bound) :
    (sized c default words).Answers w v d property
      (∃ n get, w.heap.sequence? v = some (n, get) ∧ n < uncountable ∧
        World.holds c (Real.whole n).extended? bound.extended? = true)
      (∀ n get, w.heap.sequence? v = some (n, get) → n < uncountable ∧
        ¬World.holds c (Real.whole n).extended? bound.extended? = true) := by
  cases hv : w.heap.sequence? v with
  | none => simp [Answers, sized, hv, pure, Except.pure]
  | some p =>
    obtain ⟨n, get⟩ := p
    by_cases hn : uncountable ≤ n
    · simp [Answers, sized, hv, hn, throw, throwThe, MonadExceptOf.throw, bind, Except.bind]
    · have heq : sized c default words w v d property = pure (complainUnless
          (World.holds c (Real.whole n).extended? bound.extended?)
          (property ++ words ++ w.plainText (d.constraint 0 default) ++ " elements")) := by
        simp only [sized, hv, hn, if_false, World.compareLength_of_real hbound]
        rfl
      simpa [Decides, Nat.lt_of_not_le hn] using decides_complainUnless heq

theorem mostSize_answers {b : Option Real} (hb : d.Gives w.heap 0 b) :
    mostSize.Answers w v d property
      (∃ n get, w.heap.sequence? v = some (n, get) ∧ n < uncountable ∧
        ∀ r ∈ b, (Real.whole n).AtMost r)
      (∀ n get, w.heap.sequence? v = some (n, get) →
        n < uncountable ∧ ¬∀ r ∈ b, (Real.whole n).AtMost r) := by
  have hdefault : w.heap.real? (.float (.infinite false)) = some (.float (.infinite false)) := rfl
  have h : mostSize.Answers w v d property
      (∃ n get, w.heap.sequence? v = some (n, get) ∧ n < uncountable ∧
        (Real.whole n).le (b.getD (.float (.infinite false))) = true)
      (∀ n get, w.heap.sequence? v = some (n, get) →
        n < uncountable ∧ ¬(Real.whole n).le (b.getD (.float (.infinite false))) = true) :=
    sized_answers (hb.real?_constraint hdefault)
  cases b <;> simpa [Real.le_iff, Real.atMost_infinite] using h

/-- Bounds are included and compared exactly, and a bound that is not a number lets nothing pass,
except that it does not bound the length of a text. A lower bound and the greatest number are zero
unless given, an upper bound is none. -/
theorem bounds_exact (w : World) (v : Value) (d : Declaration) (property : String)
    {b : Option Real} (hb : d.Gives w.heap 0 b) :
    let low := b.getD (.whole 0)
    least.Decides w v d property (∃ r, w.heap.real? v = some r ∧ low.AtMost r) ∧
    most.Decides w v d property (∃ r, w.heap.real? v = some r ∧ r.AtMost low) ∧
    (∀ high, d.Gives w.heap 1 high →
      length.Decides w v d property (∃ s, w.heap.text? v = some s ∧
        (low.IsNumber → low.AtMost (.whole s.length)) ∧
        ∀ r ∈ high, r.IsNumber → (Real.whole s.length).AtMost r)) ∧
    leastSize.Answers w v d property
      (∃ n get, w.heap.sequence? v = some (n, get) ∧ n < uncountable ∧ low.AtMost (.whole n))
      (∀ n get, w.heap.sequence? v = some (n, get) →
        n < uncountable ∧ ¬low.AtMost (.whole n)) ∧
    mostSize.Answers w v d property
      (∃ n get, w.heap.sequence? v = some (n, get) ∧ n < uncountable ∧
        ∀ r ∈ b, (Real.whole n).AtMost r)
      (∀ n get, w.heap.sequence? v = some (n, get) →
        n < uncountable ∧ ¬∀ r ∈ b, (Real.whole n).AtMost r) := by
  intro low
  have hlow : w.heap.real? (d.constraint 0 (.int 0)) = some low := hb.real?_constraint rfl
  refine ⟨?_, ?_, fun high hhigh => ?_, ?_, mostSize_answers hb⟩
  · simp only [← Real.le_iff]
    exact bounded_decides hlow
  · simp only [← Real.le_iff]
    exact bounded_decides hlow
  · have hdefault : w.heap.real? (.float (.infinite false)) = some (.float (.infinite false)) := rfl
    have h := @length_decides w v d property low _ hlow (hhigh.real?_constraint hdefault)
    cases high <;> simpa [Real.not_lt_iff, Real.isNumber_whole, Real.atMost_infinite] using h
  · simp only [← Real.le_iff]
    exact sized_answers hlow

/-- A declaration with a bound as a double, two and a half, and one that is not a number. -/
def halfToUndefined : Declaration :=
  ⟨.builtin .object, .text "field", .text "Length",
    [.float (.finite false 5 (-1)), .float (.nan 0)], none, none, none⟩

/-- Two and a half as a fraction is neither too small nor too large for the same number as a double,
and two letters are too short. -/
theorem bounds_exact_half :
    halfToUndefined.Gives World.initial.heap 0 (some (.float (.finite false 5 (-1)))) ∧
    halfToUndefined.Gives World.initial.heap 1 (some (.float (.nan 0))) ∧
    least World.initial (.fraction (5 / 2)) halfToUndefined "field" = .ok none ∧
    most World.initial (.fraction (5 / 2)) halfToUndefined "field" = .ok none ∧
    ∃ complaint,
      length World.initial (.text "ab") halfToUndefined "field" = .ok (some complaint) := by
  have hlow : halfToUndefined.Gives World.initial.heap 0
      (some (.float (.finite false 5 (-1)))) := .number rfl rfl
  have hhigh : halfToUndefined.Gives World.initial.heap 1 (some (.float (.nan 0))) :=
    .number rfl rfl
  obtain ⟨hleast, hmost, -⟩ :=
    bounds_exact World.initial (.fraction (5 / 2)) halfToUndefined "field" hlow
  obtain ⟨-, -, hlength, -⟩ :=
    bounds_exact World.initial (.text "ab") halfToUndefined "field" hlow
  refine ⟨hlow, hhigh, hleast.1.2 ⟨_, rfl, Real.le_iff.1 (by decide +kernel)⟩,
    hmost.1.2 ⟨_, rfl, Real.le_iff.1 (by decide +kernel)⟩, (hlength _ hhigh).2.2 ?_⟩
  rintro ⟨s, hs, hshort, -⟩
  cases hs
  exact absurd (Real.le_iff.2 (hshort rfl)) (by decide +kernel)

/-- A declaration that asks for a length between one and something that is not a number. -/
def oneToUndefined : Declaration :=
  ⟨.builtin .object, .text "field", .text "Length", [.int 1, .float (.nan 0)], none, none, none⟩

/-- Not all texts that pass are at most as long as the bound. -/
theorem length_not_exact : ¬∀ (w : World) (v : Value) (d : Declaration) (property : String)
    (low high : Option Real), d.Gives w.heap 0 low → d.Gives w.heap 1 high →
      (length w v d property = .ok none ↔ ∃ s, w.heap.text? v = some s ∧
        (low.getD (.whole 0)).AtMost (.whole s.length) ∧
        ∀ r ∈ high, (Real.whole s.length).AtMost r) := by
  intro hexact
  have hpasses : length World.initial (.text "ab") oneToUndefined "field" = .ok none := rfl
  obtain ⟨s, -, -, hhigh⟩ := (hexact _ _ _ _ (some (.whole 1)) (some (.float (.nan 0)))
    (.number rfl rfl) (.number rfl rfl)).1 hpasses
  obtain ⟨_, _, _, hnan, _⟩ := hhigh _ rfl
  cases hnan

end Strategy

end Rulebook
