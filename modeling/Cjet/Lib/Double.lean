import Mathlib.Data.Nat.Log
import Mathlib.Tactic.Ring

/-!
# Doubles

The double that is nearest to a quotient, a tie going to the even one, as floating point arithmetic
rounds the exact result of an operation.  A double is kept as a multiple of `2^-64`: what is smaller
than that does not reach an integral part.

* `nearest`         the double nearest to `n / d`, in units of `2^-64`;
* `truncate`        its integral part, which is what a cast to an integer keeps;
* `le_truncate`     the integral part reaches a power of two that `n / d` reaches.

The range of the exponent is not modelled: a double may be as large as it likes.
-/

set_option linter.unusedVariables false

namespace Stateful.Double

/-- `a / b` rounded to an integer -/
def roundHalfEven (a b : Nat) : Nat :=
  if 2 * (a % b) < b ∨ 2 * (a % b) = b ∧ a / b % 2 = 0 then a / b else a / b + 1

/-- the last of the 53 binary digits of `n / d`, in units of `2^-64` -/
def lastDigit (n d : Nat) : Nat := 2 ^ (Nat.log 2 (n * 2 ^ 64 / d) - 52)

/-- the double nearest to `n / d`, in units of `2^-64` -/
def nearest (n d : Nat) : Nat := roundHalfEven (n * 2 ^ 64) (d * lastDigit n d) * lastDigit n d

/-- the integral part of the double nearest to `n / d` -/
def truncate (n : Int) (d : Nat) : Int := n.sign * (nearest n.natAbs d / 2 ^ 64 : Nat)

example : truncate 5 2 = 2 := by decide
example : truncate (2 ^ 60 + 129) 1 = 2 ^ 60 + 256 := by decide

theorem le_roundHalfEven (a b : Nat) : a / b ≤ roundHalfEven a b := by
  unfold roundHalfEven
  split
  · exact Nat.le_refl _
  · exact Nat.le_succ _

theorem le_nearest {n d k : Nat} (hd : 0 < d) (hk : 2 ^ k * d ≤ n) : 2 ^ (k + 64) ≤ nearest n d := by
  -- the rounded quotient has all of the 53 digits, and the first of them is no smaller than the power
  have hm : 2 ^ (k + 64) ≤ n * 2 ^ 64 / d := by
    rw [Nat.le_div_iff_mul_le hd]
    calc 2 ^ (k + 64) * d = 2 ^ k * d * 2 ^ 64 := by ring
      _ ≤ n * 2 ^ 64 := Nat.mul_le_mul_right _ hk
  have hne : n * 2 ^ 64 / d ≠ 0 := by
    have := Nat.two_pow_pos (k + 64)
    omega
  have hlog : k + 64 ≤ Nat.log 2 (n * 2 ^ 64 / d) := (Nat.le_log_iff_pow_le (by decide) hne).mpr hm
  have hpow : 2 ^ Nat.log 2 (n * 2 ^ 64 / d) = 2 ^ 52 * lastDigit n d := by
    unfold lastDigit
    rw [← Nat.pow_add]
    congr 1
    omega
  have hq : 2 ^ 52 ≤ n * 2 ^ 64 / (d * lastDigit n d) := by
    rw [← Nat.div_div_eq_div_mul, Nat.le_div_iff_mul_le (show 0 < lastDigit n d from Nat.two_pow_pos _), ← hpow]
    exact Nat.pow_log_le_self 2 hne
  calc 2 ^ (k + 64) ≤ 2 ^ Nat.log 2 (n * 2 ^ 64 / d) := Nat.pow_le_pow_right (by decide) hlog
    _ = 2 ^ 52 * lastDigit n d := hpow
    _ ≤ nearest n d := Nat.mul_le_mul_right _ (Nat.le_trans hq (le_roundHalfEven _ _))

/-- the integral part reaches the powers of two that the quotient reaches -/
theorem le_truncate {n : Int} {d k : Nat} (hd : 0 < d) (hk : 2 ^ k * d ≤ n) : 2 ^ k ≤ truncate n d := by
  have hpos : 0 < n :=
    Int.lt_of_lt_of_le (Int.mul_pos (Int.pow_pos (by decide)) (Int.natCast_pos.mpr hd)) hk
  have habs : 2 ^ k * d ≤ n.natAbs := by
    have : ((2 ^ k * d : Nat) : Int) = 2 ^ k * d := by push_cast; rfl
    omega
  have hnear : 2 ^ k ≤ nearest n.natAbs d / 2 ^ 64 := by
    rw [Nat.le_div_iff_mul_le (Nat.two_pow_pos _), ← Nat.pow_add]
    exact le_nearest hd habs
  unfold truncate
  rw [Int.sign_eq_one_of_pos hpos, Int.one_mul]
  exact_mod_cast hnear

end Stateful.Double
