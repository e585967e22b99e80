import Mathlib.Algebra.Order.Round
import Rulebook.Proofs.Overflow
import Rulebook.Strategy.Basic

/-!
# What passes for an integer

Whether a number is an integer is asked of the nearest double (`Real.isWhole`). An integer passes,
and a double passes when its exact value is an integer. A fraction is rounded first, so that it
passes when it lies within half a unit in the last place of an integer and has a nearest double at
all (`Strategy.isInt_rounds`). The ties take nothing away: where a unit is less than one, every
integer has an even mantissa there, and the half is rounded to it (`Double.rounded_isWhole_iff`).

So fractions pass that are no integers, and integers that are given as fractions do not pass when
they are too large for a double. On fractions whose numerator has 53 places at most the answer is
exact (`Real.passesAsInteger_iff_of_small`).
-/

set_option autoImplicit false

namespace Rulebook

/-! ## Rounding to integers -/

/-- Being within one half of a number, without division. -/
theorem abs_div_sub_le_half_iff {num den c : Nat} (hden : 0 < den) :
    |(num / den : Rat) - c| ≤ 1 / 2 ↔
      2 * num ≤ (2 * c + 1) * den ∧ 2 * c * den ≤ 2 * num + den := by
  have hden' : (0 : Rat) < den := by exact_mod_cast hden
  have hcast : (2 * num ≤ (2 * c + 1) * den ∧ 2 * c * den ≤ 2 * num + den) ↔
      (2 * num : Rat) ≤ (2 * c + 1) * den ∧ (2 * c * den : Rat) ≤ 2 * num + den := by
    exact_mod_cast Iff.rfl
  rw [hcast, abs_sub_le_iff, sub_le_iff_le_add, div_le_iff₀ hden', sub_le_comm, le_div_iff₀ hden']
  constructor <;> rintro ⟨hup, hdown⟩ <;> constructor <;> linarith

/-- Rounding is off by one half at most. -/
theorem abs_sub_roundHalfEven_le {num den : Nat} (hden : 0 < den) :
    |(num / den : Rat) - roundHalfEven num den| ≤ 1 / 2 := by
  have hsplit := Nat.div_add_mod num den
  have hr := Nat.mod_lt num hden
  rw [abs_div_sub_le_half_iff hden, roundHalfEven]
  generalize num / den = q at *
  generalize num % den = r at *
  have hdown : 2 * q * den = 2 * (den * q) := by ring
  have hup : 2 * (q + 1) * den = 2 * (den * q) + 2 * den := by ring
  rw [add_mul, one_mul]
  split_ifs
  · omega
  · omega
  · rcases Nat.mod_two_eq_zero_or_one q with hq | hq <;> rw [hq]
    · rw [add_zero]
      omega
    · omega

/-- Everything within one half of an even number is rounded to it. -/
theorem roundHalfEven_eq_of_even {num den c : Nat} (hden : 0 < den) (hc : c % 2 = 0)
    (h : |(num / den : Rat) - c| ≤ 1 / 2) : roundHalfEven num den = c := by
  have hsplit := Nat.div_add_mod num den
  have hr := Nat.mod_lt num hden
  rw [abs_div_sub_le_half_iff hden] at h
  rw [roundHalfEven]
  generalize num / den = q at *
  generalize num % den = r at *
  have hle : den * (2 * q) < den * (2 * c + 2) := by linarith
  have hge : den * (2 * c) < den * (2 * q + 3) := by linarith
  have hle := Nat.lt_of_mul_lt_mul_left hle
  have hge := Nat.lt_of_mul_lt_mul_left hge
  obtain rfl | rfl : q = c ∨ q + 1 = c := by omega
  · have hr : 2 * r ≤ den := by linarith
    rw [hc]
    split_ifs <;> omega
  · have hr : den ≤ 2 * r := by linarith
    have hq : q % 2 = 1 := by omega
    rw [hq]
    split_ifs <;> omega

/-- The sign does not matter for the distance from the nearest integer. -/
theorem exists_abs_sub_natCast_le_iff {q u : Rat} :
    (∃ n : Nat, |(|q| - n)| ≤ u) ↔ ∃ n : Int, |q - n| ≤ u := by
  constructor
  · rintro ⟨n, hn⟩
    rcases abs_choice q with habs | habs <;> rw [habs] at hn
    · exact ⟨n, by exact_mod_cast hn⟩
    · refine ⟨-n, ?_⟩
      rw [← abs_neg]
      convert hn using 2
      push_cast
      ring
  · rintro ⟨n, hn⟩
    refine ⟨n.natAbs, le_trans ?_ hn⟩
    rw [Nat.cast_natAbs, Int.cast_abs]
    exact abs_abs_sub_abs_le q n

namespace Double

theorem scaled_eq (m : Nat) (e : Int) : scaled m e = m * 2 ^ e := by
  have h := scaleUp_div_scaleUp m 1 (-e)
  rw [neg_neg, Nat.cast_one, div_one, zpow_neg, div_inv_eq_mul] at h
  rw [scaled, Rat.mkRat_eq_div, ← h]
  rfl

/-- The mantissa and the place after rounding make up a whole number when there is one within half
a unit in the last place. -/
theorem rounded_isWhole_iff {num den : Nat} (hden : 0 < den) (e : Int) :
    (∃ n : Nat, (roundHalfEven (scaleUp num 2 (-e)) (scaleUp den 2 e) * 2 ^ e : Rat) = n) ↔
      ∃ n : Nat, |(num / den : Rat) - n| ≤ 2 ^ e / 2 := by
  have hunit : (0 : Rat) < 2 ^ e := zpow_pos two_pos e
  have hscaled := scaleUp_pos hden Nat.two_pos e
  -- distances in units in the last place, and distances of the scaled numbers
  have hdistance (m : Nat) : |(num / den : Rat) - m * 2 ^ e| ≤ 2 ^ e / 2 ↔
      |(scaleUp num 2 (-e) / scaleUp den 2 e : Rat) - m| ≤ 1 / 2 := by
    rw [scaleUp_div_scaleUp, div_sub' hunit.ne', abs_div, abs_of_pos hunit, div_le_iff₀ hunit,
      mul_comm (2 ^ e : Rat), one_div_mul_eq_div]
  constructor
  · rintro ⟨n, hn⟩
    refine ⟨n, ?_⟩
    rw [← hn, hdistance]
    exact abs_sub_roundHalfEven_le hscaled
  · rintro ⟨n, hn⟩
    rcases lt_or_ge e 0 with hneg | hnonneg
    · -- the mantissa of an integer is even here
      obtain ⟨k, rfl⟩ : ∃ k : Nat, e = -((k + 1 : Nat) : Int) := ⟨(-e).toNat - 1, by omega⟩
      have heven : n * 2 ^ (k + 1) % 2 = 0 := by rw [pow_succ, ← mul_assoc, Nat.mul_mod_left]
      have hvalue : ((n * 2 ^ (k + 1) : Nat) * 2 ^ (-((k + 1 : Nat) : Int)) : Rat) = n := by
        rw [zpow_neg, zpow_natCast, Nat.cast_mul, Nat.cast_pow, Nat.cast_ofNat,
          mul_inv_cancel_right₀ (pow_ne_zero _ two_ne_zero)]
      rw [← hvalue, hdistance] at hn
      exact ⟨n, by rw [roundHalfEven_eq_of_even hscaled heven hn, hvalue]⟩
    · -- all doubles of this size are integers
      obtain ⟨k, rfl⟩ := Int.eq_ofNat_of_zero_le hnonneg
      refine ⟨roundHalfEven (scaleUp num 2 (-k)) (scaleUp den 2 k) * 2 ^ k, ?_⟩
      rw [Nat.cast_mul, Nat.cast_pow, Nat.cast_ofNat, zpow_natCast]

theorem nearest?_value {num den m : Nat} {e : Int} (h : nearest? num den = some (m, e)) :
    (m * 2 ^ e : Rat) = roundHalfEven (scaleUp num 2 (-lastPlace num den))
      (scaleUp den 2 (lastPlace num den)) * 2 ^ lastPlace num den := by
  rw [nearest?] at h
  generalize roundHalfEven _ _ = rounded at *
  by_cases hfull : rounded = 2 * fullMantissa
  · simp only [hfull, if_true, Option.ite_none_right_eq_some, Option.some.injEq,
      Prod.mk.injEq] at h
    obtain ⟨-, rfl, rfl⟩ := h
    rw [hfull, zpow_add_one₀ two_ne_zero, Nat.cast_mul, Nat.cast_ofNat]
    ring
  · simp only [hfull, if_false, Option.ite_none_right_eq_some, Option.some.injEq,
      Prod.mk.injEq] at h
    obtain ⟨-, rfl, rfl⟩ := h
    rfl

theorem isWhole_finite {negative : Bool} {m : Nat} {e : Int} :
    (finite negative m e).isWhole = true ↔ ∃ n : Nat, (m * 2 ^ e : Rat) = n := by
  rw [isWhole, Bool.or_eq_true, decide_eq_true_eq, decide_eq_true_eq]
  rcases lt_or_ge e 0 with hneg | hnonneg
  · obtain ⟨k, rfl⟩ : ∃ k : Nat, e = -(k : Int) := ⟨(-e).toNat, by omega⟩
    have hpow : (2 ^ k : Rat) ≠ 0 := pow_ne_zero k two_ne_zero
    rw [or_iff_right (by omega), neg_neg, scaleUp, one_mul, Int.toNat_natCast, Nat.pow_eq,
      ← Nat.dvd_iff_mod_eq_zero, zpow_neg, zpow_natCast]
    constructor
    · rintro ⟨n, rfl⟩
      refine ⟨n, ?_⟩
      rw [Nat.cast_mul, Nat.cast_pow, Nat.cast_ofNat, mul_comm, inv_mul_cancel_left₀ hpow]
    · rintro ⟨n, hn⟩
      rw [mul_inv_eq_iff_eq_mul₀ hpow] at hn
      exact ⟨n, by rw [mul_comm]; exact_mod_cast hn⟩
  · obtain ⟨k, rfl⟩ := Int.eq_ofNat_of_zero_le hnonneg
    refine iff_of_true (.inl hnonneg) ⟨m * 2 ^ k, ?_⟩
    rw [Nat.cast_mul, Nat.cast_pow, Nat.cast_ofNat, zpow_natCast]

theorem toRat?_finite (negative : Bool) (m : Nat) (e : Int) :
    ∃ q, (finite negative m e).toRat? = some q ∧ |q| = m * 2 ^ e := by
  have hnonneg : (0 : Rat) ≤ m * 2 ^ e := mul_nonneg m.cast_nonneg (zpow_pos two_pos e).le
  refine ⟨_, rfl, ?_⟩
  rw [scaled_eq]
  cases negative
  · exact abs_of_nonneg hnonneg
  · exact (abs_neg _).trans (abs_of_nonneg hnonneg)

/-- A double is whole when its exact value is. -/
theorem isWhole_iff {d : Double} :
    d.isWhole = true ↔ ∃ n : Int, Extended.ofDouble? d = some (.rat n) := by
  cases d with
  | finite negative m e =>
    obtain ⟨q, hq, habs⟩ := toRat?_finite negative m e
    have hexact := @exists_abs_sub_natCast_le_iff q 0
    simp only [abs_nonpos_iff, sub_eq_zero] at hexact
    rw [isWhole_finite, ← habs, hexact, Extended.ofDouble?, hq]
    simp
  | infinite negative => cases negative <;> simp [isWhole, Extended.ofDouble?]
  | nan tag => simp [isWhole, Extended.ofDouble?]

/-- One unit in the last place of a double as large as the number. -/
def unit (q : Rat) : Rat := 2 ^ max (Int.log 2 |q| - 52) (-1074)

theorem unit_pos (q : Rat) : 0 < unit q := zpow_pos two_pos _

theorem lastPlace_eq {q : Rat} (hq : q ≠ 0) :
    lastPlace q.num.natAbs q.den = max (Int.log 2 |q| - 52) (-1074) := by
  have hnum : 0 < q.num.natAbs := Int.natAbs_pos.2 (Rat.num_ne_zero.2 hq)
  rw [abs_eq_natAbs_div, ← firstPlace_eq_log hnum q.den_pos]
  rfl

theorem ofRat?_isWhole {q : Rat} {d : Double} (h : ofRat? q = some d) :
    d.isWhole = true ↔ ∃ n : Int, |q - n| ≤ unit q / 2 := by
  obtain ⟨⟨m, e⟩, hnearest, rfl⟩ := Option.map_eq_some_iff.1 h
  rw [isWhole_finite, nearest?_value hnearest, rounded_isWhole_iff q.den_pos, ← abs_eq_natAbs_div,
    exists_abs_sub_natCast_le_iff]
  rcases eq_or_ne q 0 with rfl | hq
  · have hzero (u : Rat) (hu : 0 < u) : ∃ n : Int, |(0 : Rat) - n| ≤ u / 2 :=
      ⟨0, by simpa using (half_pos hu).le⟩
    exact iff_of_true (hzero _ (zpow_pos two_pos _)) (hzero _ (unit_pos 0))
  · rw [unit, lastPlace_eq hq]

/-- What is no integer is away from it by a unit fraction at least. -/
theorem inv_den_le_abs_sub {q : Rat} {n : Int} (h : q ≠ n) : (q.den : Rat)⁻¹ ≤ |q - n| := by
  have hden : (0 : Rat) < q.den := by exact_mod_cast q.den_pos
  have hnum : q.num - n * q.den ≠ 0 := by
    intro hzero
    apply h
    rw [← Rat.num_div_den q, div_eq_iff hden.ne']
    exact_mod_cast sub_eq_zero.1 hzero
  have hdist : q - n = (q.num - n * q.den : Int) / q.den := by
    rw [eq_div_iff hden.ne', sub_mul, Rat.mul_den_eq_num]
    push_cast
    rfl
  rw [hdist, abs_div, abs_of_pos hden, inv_eq_one_div]
  gcongr
  exact_mod_cast Int.one_le_abs hnum

/-- Half a unit is less than that while the numerator fits into a mantissa and the denominator is
not beyond the smallest doubles. -/
theorem half_unit_lt_inv_den {q : Rat} (hq : q ≠ 0) (hnum : q.num.natAbs < 2 ^ 53)
    (hden : q.den < 2 ^ 1075) : unit q / 2 < (q.den : Rat)⁻¹ := by
  have hpos : (0 : Rat) < q.den := by exact_mod_cast q.den_pos
  rcases max_choice (Int.log 2 |q| - 52) (-1074) with hmax | hmax <;> rw [unit, hmax]
  · have hlog : (2 : Rat) ^ Int.log 2 |q| ≤ |q| :=
      Int.zpow_log_le_self Nat.one_lt_two (abs_pos.2 hq)
    have hscaled := mul_le_mul_of_nonneg_right hlog hpos.le
    have hmantissa : |q| * q.den < 2 ^ 53 := by
      rw [abs_eq_natAbs_div, div_mul_cancel₀ _ hpos.ne']
      exact_mod_cast hnum
    have hplaces : (2 : Rat) ^ (52 : Int) = 2 ^ 52 := zpow_natCast 2 52
    rw [zpow_sub₀ two_ne_zero, hplaces, inv_eq_one_div, lt_div_iff₀ hpos]
    linarith
  · have hsmallest : (2 : Rat) ^ (-1074 : Int) / 2 = (2 ^ 1075)⁻¹ := by
      rw [zpow_neg, div_eq_mul_inv, ← mul_inv, pow_succ 2 1074]
      rfl
    rw [hsmallest]
    exact inv_strictAnti₀ hpos (by exact_mod_cast hden)

end Double

namespace Real

/-- The exact value is an integer. -/
def IsIntegral (r : Real) : Prop := ∃ n : Int, r.extended? = some (.rat n)

/-- What passes for an integer: a fraction need only come close to one, unless it is too large. -/
def PassesAsInteger : Real → Prop
  | .fraction q => |q| < Double.limit ∧ ∃ n : Int, |q - n| ≤ Double.unit q / 2
  | r => r.IsIntegral

theorem isWhole_iff {r : Real} : r.isWhole = true ↔ r.PassesAsInteger := by
  cases r with
  | whole n => exact iff_of_true rfl ⟨n, rfl⟩
  | float d => exact Double.isWhole_iff
  | fraction q =>
    rw [PassesAsInteger, ← not_le, ← Double.ofRat?_eq_none]
    cases hnearest : Double.ofRat? q with
    | none => simp [isWhole, toDouble?, hnearest]
    | some d => simp [isWhole, toDouble?, hnearest, Double.ofRat?_isWhole hnearest]

/-- Fractions with such numerators and denominators pass only if they are integers. -/
theorem passesAsInteger_iff_of_small {q : Rat} (hnum : q.num.natAbs < 2 ^ 53)
    (hden : q.den < 2 ^ 1075) :
    (fraction q).PassesAsInteger ↔ (fraction q).IsIntegral := by
  constructor
  · rintro ⟨-, n, hn⟩
    by_contra hnot
    have hne (n : Int) : q ≠ n := fun h => hnot ⟨n, by rw [h]; rfl⟩
    have hfar := Double.inv_den_le_abs_sub (hne n)
    exact absurd (hfar.trans hn) (Double.half_unit_lt_inv_den (hne 0) hnum hden).not_ge
  · rintro ⟨n, hn⟩
    have hn : q = n := Extended.rat.inj (Option.some.inj hn)
    refine ⟨?_, n, ?_⟩
    · have hsmall : (q.num.natAbs : Rat) < 2 ^ 53 := by exact_mod_cast hnum
      calc |q| = q.num.natAbs := by rw [Double.abs_eq_natAbs_div, hn, Rat.den_intCast]; simp
        _ < 2 ^ 53 := hsmall
        _ ≤ Double.limit := Double.two_pow_le_limit (by decide)
    · rw [hn, sub_self, abs_zero]
      exact (half_pos (Double.unit_pos _)).le

end Real

namespace Strategy

/-- What passes is what passes for an integer, and anything else is complained about. -/
theorem isInt_rounds (w : World) (v : Value) (d : Declaration) (property : String) :
    (isInt w v d property = .ok none ↔
      ∃ r, w.heap.real? v = some r ∧ r.PassesAsInteger) ∧
    (isInt w v d property = .ok (some (property ++ " must be an integer")) ↔
      ¬∃ r, w.heap.real? v = some r ∧ r.PassesAsInteger) := by
  simp only [isInt, pure_complainUnless_eq_none, pure_complainUnless_eq_some]
  cases hreal : w.heap.real? v with
  | none => simp
  | some r => simp [← Real.isWhole_iff]

/-- One and a bit, so little of it that the nearest double is one. -/
def nearlyOne : Rat := 100000000000000001 / 100000000000000000

/-- Not only integers pass. -/
theorem isInt_not_exact : ¬∀ (w : World) (v : Value) (d : Declaration) (property : String),
    isInt w v d property = .ok none ↔ ∃ r, w.heap.real? v = some r ∧ r.IsIntegral := by
  intro hexact
  have hpasses : (Real.fraction nearlyOne).isWhole = true := by decide +kernel
  obtain ⟨r, hreal, n, hn⟩ := (hexact World.initial (.fraction nearlyOne)
    ⟨.builtin .object, .nothing, .text "IsInt", [], none, none, none⟩ "field").1
    (pure_complainUnless_eq_none.2 hpasses)
  cases hreal
  have hden : nearlyOne.den = (n : Rat).den :=
    congrArg Rat.den (Extended.rat.inj (Option.some.inj hn))
  exact absurd hden (by rw [Rat.den_intCast]; decide +kernel)

end Strategy

end Rulebook
