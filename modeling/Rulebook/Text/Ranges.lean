/-!
# Sets of characters as ranges

A set of characters is kept as the ascending list of the code points at which membership changes:
a character belongs to it when an odd number of changes lie at or before it.
-/

set_option autoImplicit false

namespace Rulebook.Ranges

/-- How many of the ascending numbers in `changes` are at most `n`, the answer lying between `low`
and `high`. -/
def countUpTo (changes : Array Nat) (n low high : Nat) : Nat :=
  if low < high then
    let middle := (low + high) / 2
    if changes.getD middle 0 ≤ n then countUpTo changes n (middle + 1) high
    else countUpTo changes n low middle
  else low
termination_by high - low

/-- Membership in the set with these changes. -/
def mem (changes : Array Nat) (c : Char) : Bool :=
  countUpTo changes c.toNat 0 changes.size % 2 = 1

end Rulebook.Ranges
