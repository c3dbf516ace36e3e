/-
  MinePanel.Lib.Double
  ────────────────────
  **WHOLE NUMBERS AS DOUBLES.**

  What an IEEE double makes of natural numbers: the nearest one with a
  significand of 53 bits, ties to the even one, infinity from 2^1024 on.

    * `nearest` — rounding of a natural number;
    * `Whole` — NaN, infinity, or a whole number that a double has;
    * `safe_ofNat`, `safe_mul` — **a result is a safe integer iff the exact one
      is, and then it is exact**.
-/
import Mathlib.Algebra.Ring.Nat
import Mathlib.Tactic.Common

namespace MinePanel.Lib

/-! ## §1. Rounding. -/

/-- The distance of two neighbouring doubles at `n`. -/
def ulp (n : Nat) : Nat := 2 ^ (n.log2 - 52)

/-- The nearest double to `n`, ties to the even significand. -/
def nearest (n : Nat) : Nat :=
  let q := n / ulp n
  let r := n % ulp n
  if 2 * r < ulp n then q * ulp n
  else if ulp n < 2 * r then (q + 1) * ulp n
  else if q % 2 = 0 then q * ulp n
  else (q + 1) * ulp n

theorem ulp_of_lt {n : Nat} (h : n < 2 ^ 53) : ulp n = 1 := by
  have hlog : n.log2 ≤ 52 := by
    by_cases hn : n = 0
    · rw [hn, Nat.log2_zero]
      exact Nat.zero_le _
    · exact Nat.le_of_lt_succ ((Nat.log2_lt hn).mpr h)
  unfold ulp
  rw [Nat.sub_eq_zero_of_le hlog, Nat.pow_zero]

/-- Below 2^53 every natural number is a double. -/
theorem nearest_of_lt {n : Nat} (h : n < 2 ^ 53) : nearest n = n := by
  unfold nearest
  rw [ulp_of_lt h]
  simp [Nat.mod_one]

/-- Rounding does not come back below 2^53. -/
theorem le_nearest {n : Nat} (h : 2 ^ 53 ≤ n) : 2 ^ 53 ≤ nearest n := by
  have hn : n ≠ 0 := by
    intro h0
    rw [h0] at h
    exact absurd h (by decide)
  have hlog : 53 ≤ n.log2 := (Nat.le_log2 hn).mpr h
  -- the significand has 53 bits
  have hquot : 2 ^ 52 ≤ n / ulp n := by
    unfold ulp
    rw [Nat.le_div_iff_mul_le (Nat.two_pow_pos _), ← Nat.pow_add, Nat.add_sub_cancel' (by omega)]
    exact Nat.log2_self_le hn
  have hulp : 2 ≤ ulp n := by
    unfold ulp
    calc 2 = 2 ^ 1 := rfl
      _ ≤ 2 ^ (n.log2 - 52) := Nat.pow_le_pow_right (by decide) (by omega)
  have hlow : 2 ^ 53 ≤ n / ulp n * ulp n := by
    calc 2 ^ 53 = 2 ^ 52 * 2 := by decide
      _ ≤ n / ulp n * ulp n := Nat.mul_le_mul hquot hulp
  have hhigh : n / ulp n * ulp n ≤ (n / ulp n + 1) * ulp n :=
    Nat.mul_le_mul_right _ (Nat.le_succ _)
  unfold nearest
  dsimp only
  split
  next => exact hlow
  next =>
    split
    next => exact Nat.le_trans hlow hhigh
    next =>
      split
      next => exact hlow
      next => exact Nat.le_trans hlow hhigh

/-! ## §2. Numbers. -/

/-- A double that is NaN, infinite or a natural number. -/
inductive Whole where
  | nan
  | infinity
  | nat (n : Nat)
  deriving Repr, DecidableEq

namespace Whole

/-- The exponent from which on a number is infinite. -/
def overflow : Nat := 1024

/-- The double of a natural number. -/
def ofNat (n : Nat) : Whole := if nearest n < 2 ^ overflow then .nat (nearest n) else .infinity

/-- The product, rounded. -/
def mul : Whole → Whole → Whole
  | .nat m, .nat n => ofNat (m * n)
  | .infinity, .nat n => if n = 0 then .nan else .infinity
  | .nat m, .infinity => if m = 0 then .nan else .infinity
  | .infinity, .infinity => .infinity
  | _, _ => .nan

/-- The largest safe integer. -/
def maxSafe : Nat := 2 ^ 53 - 1

/-- The value, where it is a safe integer. -/
def safe? : Whole → Option Nat
  | .nat n => if n ≤ maxSafe then some n else none
  | _ => none

/-- **A natural number becomes a safe integer iff it is one.** -/
theorem safe_ofNat (n : Nat) : (ofNat n).safe? = if n ≤ maxSafe then some n else none := by
  by_cases h : n < 2 ^ 53
  · have hfinite : n < 2 ^ overflow :=
      Nat.lt_of_lt_of_le h (Nat.pow_le_pow_right (by decide) (by decide))
    unfold ofNat
    rw [nearest_of_lt h, if_pos hfinite]
    rfl
  · have hlarge := le_nearest (Nat.not_lt.mp h)
    have hmax : maxSafe < 2 ^ 53 := by decide
    rw [if_neg (by omega)]
    unfold ofNat
    split
    next => exact if_neg (by omega)
    next => rfl

theorem ofNat_of_le {n : Nat} (h : n ≤ maxSafe) : ofNat n = .nat n := by
  have hsafe := safe_ofNat n
  rw [if_pos h] at hsafe
  cases hn : ofNat n with
  | nat m =>
      rw [hn] at hsafe
      have hm : (if m ≤ maxSafe then some m else none) = some n := hsafe
      split at hm
      next => rw [Option.some.inj hm]
      next => cases hm
  | nan =>
      rw [hn] at hsafe
      cases hsafe
  | infinity =>
      rw [hn] at hsafe
      cases hsafe

/-- Safe factors: the product is a safe integer iff the exact one is. -/
theorem safe_mul (m n : Nat) :
    ((Whole.nat m).mul (.nat n)).safe? = if m * n ≤ maxSafe then some (m * n) else none :=
  safe_ofNat (m * n)

end Whole

end MinePanel.Lib
