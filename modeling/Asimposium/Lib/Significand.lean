import Mathlib

/-!
# Rounding to a significand

A natural number rounded to so many significant bits, ties to the even
one: the sum of two numbers in a binary floating-point format, when both
are natural and the exponent range is no concern.
-/

namespace Significand

/-- The distance of the representable numbers around a number. -/
def ulp (precision n : Nat) : Nat := 2 ^ (n.log2 + 1 - precision)

/-- Round half to even. -/
def round (precision n : Nat) : Nat :=
  let step := ulp precision n
  let rest := n % step
  if 2 * rest < step ∨ 2 * rest = step ∧ n / step % 2 = 0 then n - rest else n - rest + step

variable {precision n : Nat}

theorem ulp_pos : 0 < ulp precision n := Nat.two_pow_pos _

theorem ulp_eq_one (hprecision : precision ≠ 0) (h : n < 2 ^ precision) :
    ulp precision n = 1 := by
  have hlog : n.log2 < precision := by
    rcases Nat.eq_zero_or_pos n with rfl | hpos
    · rw [Nat.log2_zero]
      omega
    · exact (Nat.log2_lt (by omega)).mpr h
  have hzero : n.log2 + 1 - precision = 0 := by omega
  rw [ulp, hzero, Nat.pow_zero]

/-- What fits the significand is kept. -/
theorem round_of_lt (hprecision : precision ≠ 0) (h : n < 2 ^ precision) :
    round precision n = n := by
  simp [round, ulp_eq_one hprecision h, Nat.mod_one]

/-- Rounding moves a number by no more than half a step. -/
theorem round_le : 2 * round precision n ≤ 2 * n + ulp precision n := by
  have hrest : n % ulp precision n < ulp precision n := Nat.mod_lt _ ulp_pos
  have hle := Nat.mod_le n (ulp precision n)
  simp only [round]
  split <;> omega

/-- The power of two below a number stays below it. -/
theorem two_pow_log2_le_round (hn : n ≠ 0) (hprecision : precision ≠ 0) :
    2 ^ n.log2 ≤ round precision n := by
  have hdvd : ulp precision n ∣ 2 ^ n.log2 := Nat.pow_dvd_pow 2 (by omega)
  have hle : 2 ^ n.log2 ≤ n := Nat.log2_self_le hn
  have hlow : 2 ^ n.log2 ≤ n - n % ulp precision n := by
    obtain ⟨k, hk⟩ := hdvd
    have hquotient : k ≤ n / ulp precision n :=
      (Nat.le_div_iff_mul_le ulp_pos).mpr (by rw [Nat.mul_comm, ← hk]; exact hle)
    have hsplit := Nat.div_add_mod n (ulp precision n)
    calc 2 ^ n.log2 = ulp precision n * k := hk
      _ ≤ ulp precision n * (n / ulp precision n) := Nat.mul_le_mul_left _ hquotient
      _ = n - n % ulp precision n := by omega
  simp only [round]
  split <;> omega

/-- What does not fit is not rounded into what does. -/
theorem two_pow_le_round (hprecision : precision ≠ 0) (h : 2 ^ precision ≤ n) :
    2 ^ precision ≤ round precision n := by
  have hn : n ≠ 0 := by
    rintro rfl
    exact absurd (Nat.two_pow_pos precision) (by omega)
  have hlog : precision ≤ n.log2 := (Nat.le_log2 hn).mpr h
  exact (Nat.pow_le_pow_right (by decide) hlog).trans (two_pow_log2_le_round hn hprecision)

/-- A result that fits is exact. -/
theorem eq_of_round_lt (hprecision : precision ≠ 0) (h : round precision n < 2 ^ precision) :
    round precision n = n := by
  by_cases hlt : n < 2 ^ precision
  · exact round_of_lt hprecision hlt
  · have hle : 2 ^ precision ≤ round precision n := two_pow_le_round hprecision (by omega)
    omega

end Significand
