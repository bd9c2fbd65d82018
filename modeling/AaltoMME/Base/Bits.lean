import Mathlib.Data.Nat.Bitwise
import Mathlib.Data.UInt

/-!
# Replacing the low bits of a number

Masking off the `k` low bits of a number below `2 ^ n` and putting a `k` bit number in their place
is division and addition.  The statements are about natural numbers; fixed width code uses them
through `toNat`.
-/

namespace Base

/-- The mask `2 ^ n - 2 ^ k` keeps the bits from `k` to `n`. -/
theorem and_mask_eq (c n k : Nat) :
    c &&& ((2 ^ n - 1) <<< k) = (c / 2 ^ k % 2 ^ n) * 2 ^ k := by
  rw [← Nat.shiftLeft_eq, ← Nat.shiftRight_eq_div_pow]
  refine Nat.eq_of_testBit_eq fun i => ?_
  by_cases hi : k ≤ i
  · simp [hi, Bool.and_comm]
  · simp [hi]

/-- Putting a `k` bit number where the `k` low bits were masked off. -/
theorem and_mask_or_eq (c n k r : Nat) (hr : r < 2 ^ k) :
    (c &&& ((2 ^ n - 1) <<< k)) ||| r = (c / 2 ^ k % 2 ^ n) * 2 ^ k + r := by
  rw [and_mask_eq, ← Nat.shiftLeft_eq, Nat.shiftLeft_add_eq_or_of_lt hr]

end Base
