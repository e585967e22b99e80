import Mathlib.Algebra.Order.Field.Rat
import Mathlib.Data.Int.Log
import Mathlib.Data.Rat.Floor
import Mathlib.Tactic.Linarith
import Mathlib.Tactic.Ring
import Rulebook.Number.Double

/-!
# Numbers too large for a double

The largest double lies one unit in the last place below `2 ^ 1024`. A number is too large when it
would be rounded to `2 ^ 1024` or lies beyond: when it is at least half a unit above the largest
double (`Double.limit`, `Double.ofRat?_eq_none`). Rounding at the half goes up there, as the
mantissa of the largest double is odd.
-/

set_option autoImplicit false

namespace Rulebook

theorem scaleUp_pos {n base : Nat} (hn : 0 < n) (hbase : 0 < base) (e : Int) :
    0 < scaleUp n base e := Nat.mul_pos hn (Nat.pow_pos hbase)

/-- Scaling numerator or denominator scales the quotient by a power of two. -/
theorem scaleUp_div_scaleUp (a b : Nat) (e : Int) :
    (scaleUp a 2 (-e) / scaleUp b 2 e : Rat) = a / b / 2 ^ e := by
  rw [scaleUp, scaleUp]
  rcases Int.eq_nat_or_neg e with ⟨k, rfl | rfl⟩
  · simp [div_div]
  · simp [div_mul_eq_mul_div]

/-- Rounding comes to one more than an odd number from the half on. -/
theorem roundHalfEven_eq_succ {num den c : Nat} (hc : c % 2 = 1) (hnum : num < (c + 1) * den) :
    roundHalfEven num den = c + 1 ↔ (2 * c + 1) * den ≤ 2 * num := by
  have hden : 0 < den := Nat.pos_of_ne_zero fun h => by simp [h] at hnum
  have hq : num / den ≤ c := Nat.le_of_lt_succ ((Nat.div_lt_iff_lt_mul hden).2 hnum)
  have hsplit := Nat.div_add_mod num den
  have hr := Nat.mod_lt num hden
  have hodd : (2 * c + 1) * den = 2 * (den * c) + den := by ring
  rw [roundHalfEven, hodd]
  generalize num / den = q at *
  generalize num % den = r at *
  rcases Nat.lt_or_eq_of_le hq with hlt | rfl
  · have hle : den * q + den ≤ den * c := Nat.mul_le_mul_left den hlt
    split_ifs <;> omega
  · split_ifs <;> omega

namespace Double

/-- The exponent of the first place of a number as large as `num / den`. -/
def firstPlace (num den : Nat) : Int :=
  let guess : Int := (num.log2 : Int) - den.log2
  if scaleUp den 2 guess ≤ scaleUp num 2 (-guess) then guess else guess - 1

/-- The first place is where the binary logarithm lies: the guess from the numbers of binary places
is off by one at most. -/
theorem firstPlace_eq_log {num den : Nat} (hnum : 0 < num) (hden : 0 < den) :
    firstPlace num den = Int.log 2 (num / den : Rat) := by
  have hnum' : (0 : Rat) < num := by exact_mod_cast hnum
  have hden' : (0 : Rat) < den := by exact_mod_cast hden
  have hpos : (0 : Rat) < num / den := div_pos hnum' hden'
  -- the quotient lies between the powers of two on both sides of the guess
  have hlower : (num.log2 : Int) - (den.log2 + 1 : Nat) ≤ Int.log 2 (num / den : Rat) := by
    have hn : (2 : Rat) ^ num.log2 ≤ num := by exact_mod_cast Nat.log2_self_le hnum.ne'
    have hd : (den : Rat) ≤ 2 ^ (den.log2 + 1) := by exact_mod_cast Nat.lt_log2_self.le
    rw [← Int.zpow_le_iff_le_log Nat.one_lt_two hpos, Nat.cast_ofNat, zpow_sub₀ two_ne_zero,
      zpow_natCast, zpow_natCast]
    exact div_le_div₀ hnum'.le hn hden' hd
  have hupper : Int.log 2 (num / den : Rat) < (num.log2 + 1 : Nat) - (den.log2 : Int) := by
    have hn : (num : Rat) < 2 ^ (num.log2 + 1) := by exact_mod_cast Nat.lt_log2_self
    have hd : (2 : Rat) ^ den.log2 ≤ den := by exact_mod_cast Nat.log2_self_le hden.ne'
    rw [← Int.lt_zpow_iff_log_lt Nat.one_lt_two hpos, Nat.cast_ofNat, zpow_sub₀ two_ne_zero,
      zpow_natCast, zpow_natCast]
    exact div_lt_div₀ hn hd (by positivity) (by positivity)
  have hguess (g : Int) :
      scaleUp den 2 g ≤ scaleUp num 2 (-g) ↔ g ≤ Int.log 2 (num / den : Rat) := by
    have hscaled : (0 : Rat) < scaleUp den 2 g := by exact_mod_cast scaleUp_pos hden Nat.two_pos g
    rw [← Int.zpow_le_iff_le_log Nat.one_lt_two hpos, ← one_le_div₀ (zpow_pos two_pos g),
      Nat.cast_ofNat, ← scaleUp_div_scaleUp, one_le_div₀ hscaled, Nat.cast_le]
  rw [firstPlace]
  simp only [hguess]
  split_ifs <;> omega

theorem lastPlace_le {num den : Nat} {e : Int} (he : leastExponent ≤ e) :
    lastPlace num den ≤ e ↔ firstPlace num den ≤ e + 52 := by
  have hmax : lastPlace num den = max (firstPlace num den - 52) leastExponent := rfl
  rw [hmax, max_le_iff, and_iff_left he]
  omega

theorem le_firstPlace {num den : Nat} (hden : 0 < den) (k : Nat) :
    (k : Int) ≤ firstPlace num den ↔ 2 ^ k * den ≤ num := by
  have hden' : (0 : Rat) < den := by exact_mod_cast hden
  rcases Nat.eq_zero_or_pos num with rfl | hnum
  · have hpos : 0 < 2 ^ k * den := Nat.mul_pos (Nat.two_pow_pos k) hden
    refine iff_of_false ?_ (Nat.not_le.2 hpos)
    have hscaled (g : Int) : ¬scaleUp den 2 g ≤ scaleUp 0 2 (-g) := by
      rw [scaleUp.eq_def 0, Nat.zero_mul]
      exact Nat.not_le.2 (scaleUp_pos hden Nat.two_pos g)
    rw [firstPlace, if_neg (hscaled _), Nat.log2_zero]
    omega
  · have hpos : (0 : Rat) < num / den := div_pos (by exact_mod_cast hnum) hden'
    rw [firstPlace_eq_log hnum hden, ← Int.zpow_le_iff_le_log Nat.one_lt_two hpos,
      le_div_iff₀ hden']
    exact_mod_cast Iff.rfl

/-- There is no nearest double when the last place is beyond that of the largest double, or gets
there because the mantissa is rounded up to one more place. -/
theorem nearest?_eq_none_iff {num den : Nat} : nearest? num den = none ↔
    greatestExponent < lastPlace num den ∨ lastPlace num den = greatestExponent ∧
      roundHalfEven (scaleUp num 2 (-lastPlace num den)) (scaleUp den 2 (lastPlace num den)) =
        2 * fullMantissa := by
  rw [nearest?]
  generalize roundHalfEven _ _ = m
  by_cases hm : m = 2 * fullMantissa <;> simp only [hm, if_true, if_false] <;> split <;>
    simp only [reduceCtorEq, and_true, and_false, or_false, false_iff, true_iff] <;> omega

/-- The least numbers without a nearest double, half a unit in the last place of the largest double
being `2 ^ half`. -/
theorem nearest?_eq_none {num den half : Nat} (hden : 0 < den) (hhalf : greatestExponent = half + 1)
    (hleast : leastExponent ≤ half) :
    nearest? num den = none ↔ 2 ^ (half + 54) * den ≤ num + 2 ^ half * den := by
  have hfirst (k : Nat) : (half + k : Int) ≤ firstPlace num den ↔
      2 ^ k * (2 ^ half * den) ≤ num := by
    have h := @le_firstPlace num den hden (half + k)
    rw [Nat.pow_add, Nat.mul_comm (2 ^ half), Nat.mul_assoc] at h
    exact_mod_cast h
  have hlower := hfirst 53
  have hupper := hfirst 54
  have hplace := @lastPlace_le num den half hleast
  have hplace' := @lastPlace_le num den (half + 1) (by omega)
  have hwhole : scaleUp num 2 (-(half + 1)) = num := by
    rw [scaleUp, show (-((half : Int) + 1)).toNat = 0 by omega]
    exact Nat.mul_one num
  have hunit : scaleUp den 2 (half + 1) = 2 * (2 ^ half * den) := by
    rw [scaleUp, Nat.pow_eq, show ((half : Int) + 1).toNat = half + 1 by omega, Nat.pow_succ]
    ring
  have hfull : 2 * fullMantissa = 2 ^ 53 - 1 + 1 := by decide
  rw [nearest?_eq_none_iff, Nat.pow_add, Nat.mul_comm (2 ^ half), Nat.mul_assoc, hhalf]
  generalize 2 ^ half * den = unit at *
  by_cases hlast : lastPlace num den = half + 1
  · have hnum : num < (2 ^ 53 - 1 + 1) * (2 * unit) := by omega
    rw [hlast, hwhole, hunit, hfull, roundHalfEven_eq_succ (by decide) hnum]
    omega
  · omega

theorem abs_eq_natAbs_div (q : Rat) : |q| = q.num.natAbs / q.den := by
  rw [Rat.abs_def, Rat.divInt_eq_div]
  rfl

theorem ofRat?_eq_none_of_half {q : Rat} {half : Nat} (hhalf : greatestExponent = half + 1)
    (hleast : leastExponent ≤ half) :
    ofRat? q = none ↔ 2 ^ (half + 54) - 2 ^ half ≤ |q| := by
  have hden : (0 : Rat) < q.den := by exact_mod_cast q.den_pos
  rw [ofRat?, Option.map_eq_none_iff, nearest?_eq_none q.den_pos hhalf hleast,
    abs_eq_natAbs_div, le_div_iff₀ hden, sub_mul, sub_le_iff_le_add]
  exact_mod_cast Iff.rfl

/-- Half a unit in the last place above the largest double. -/
@[irreducible] def limit : Rat := 2 ^ 1024 - 2 ^ 970

/-- A number has no nearest double from the limit on. -/
theorem ofRat?_eq_none {q : Rat} : ofRat? q = none ↔ limit ≤ |q| := by
  rw [limit]
  exact @ofRat?_eq_none_of_half q 970 rfl (by decide)

theorem two_pow_le_limit {k : Nat} (hk : k ≤ 970) : 2 ^ k ≤ limit := by
  rw [limit]
  have hsmall : (2 ^ k : Rat) ≤ 2 ^ 970 := pow_le_pow_right₀ one_le_two hk
  have hlarge : (2 ^ (970 + 1) : Rat) ≤ 2 ^ 1024 := pow_le_pow_right₀ one_le_two (by decide)
  rw [pow_succ] at hlarge
  generalize (2 ^ 970 : Rat) = half at *
  generalize (2 ^ 1024 : Rat) = top at *
  linarith

end Double

end Rulebook
