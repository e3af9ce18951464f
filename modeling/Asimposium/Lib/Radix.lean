import Mathlib.Data.List.Induction
import Mathlib.Tactic.Ring
import Asimposium.Lib.Shortlex

/-!
# Positional numerals of one width

A number in a base, as its digits to a fixed width, the highest first. Texts
of one width sort the way their numbers do, and a numeral of two parts is a
number shifted past another. What shifts digits through an accumulator is
compared with `digits` of the number read so far.
-/

namespace Radix

variable {base : ℕ}

/-- The digits of a number to a width, the highest first. -/
def digits (base : ℕ) : ℕ → ℕ → List ℕ
  | 0, _ => []
  | width + 1, n => digits base width (n / base) ++ [n % base]

/-- The number that digits stand for, the highest first. -/
def value (base : ℕ) (ds : List ℕ) : ℕ := ds.foldl (fun n d => n * base + d) 0

@[simp] theorem length_digits (width n : ℕ) : (digits base width n).length = width := by
  induction width generalizing n with
  | zero => rfl
  | succ width ih => rw [digits, List.length_append, ih, List.length_singleton]

variable {width n : ℕ}

theorem digits_lt (hbase : 0 < base) {d : ℕ} (h : d ∈ digits base width n) : d < base := by
  induction width generalizing n with
  | zero => cases h
  | succ width ih =>
      rcases List.mem_append.mp h with h | h
      · exact ih h
      · rw [List.mem_singleton.mp h]
        exact Nat.mod_lt _ hbase

@[simp] theorem value_nil : value base [] = 0 := rfl

theorem value_snoc (ds : List ℕ) (d : ℕ) : value base (ds ++ [d]) = value base ds * base + d := by
  rw [value, List.foldl_append]
  rfl

/-- The value of the digits is the number, as far as the width reaches. -/
theorem value_digits (width n : ℕ) : value base (digits base width n) = n % base ^ width := by
  induction width generalizing n with
  | zero => rw [digits, value_nil, pow_zero, Nat.mod_one]
  | succ width ih =>
      rw [digits, value_snoc, ih, pow_succ', Nat.mod_mul, Nat.add_comm, Nat.mul_comm]

variable {ds : List ℕ}

theorem value_lt (h : ∀ d ∈ ds, d < base) : value base ds < base ^ ds.length := by
  induction ds using List.reverseRecOn with
  | nil => exact Nat.one_pos
  | append_singleton ds d ih =>
      have hds := ih fun c hc => h c (List.mem_append_left _ hc)
      have hd : d < base := h d (List.mem_append_right _ (List.mem_singleton_self d))
      rw [value_snoc, List.length_append, List.length_singleton, pow_succ]
      calc value base ds * base + d
          < value base ds * base + base := Nat.add_lt_add_left hd _
        _ = (value base ds + 1) * base := by ring
        _ ≤ base ^ ds.length * base := Nat.mul_le_mul_right _ hds

/-- Digits are read back from their value. -/
theorem digits_value (hbase : 0 < base) (h : ∀ d ∈ ds, d < base) :
    digits base ds.length (value base ds) = ds := by
  induction ds using List.reverseRecOn with
  | nil => rfl
  | append_singleton ds d ih =>
      have hd : d < base := h d (List.mem_append_right _ (List.mem_singleton_self d))
      have hdiv : (value base ds * base + d) / base = value base ds := by
        rw [Nat.mul_comm, Nat.mul_add_div hbase, Nat.div_eq_of_lt hd, Nat.add_zero]
      have hmod : (value base ds * base + d) % base = d := by
        rw [Nat.mul_comm, Nat.mul_add_mod, Nat.mod_eq_of_lt hd]
      rw [List.length_append, List.length_singleton, digits, value_snoc, hdiv, hmod,
        ih fun c hc => h c (List.mem_append_left _ hc)]

/-- The digits of a number that is shifted past another. -/
theorem digits_add (high low n : ℕ) :
    digits base (high + low) n = digits base high (n / base ^ low) ++ digits base low n := by
  induction low generalizing n with
  | zero => rw [Nat.add_zero, pow_zero, Nat.div_one, digits, List.append_nil]
  | succ low ih =>
      rw [← Nat.add_assoc, digits, ih, digits, pow_succ', Nat.div_div_eq_div_mul, List.append_assoc]

/-- What is above the width is not read. -/
theorem digits_mod (width n : ℕ) : digits base width (n % base ^ width) = digits base width n := by
  induction width generalizing n with
  | zero => rfl
  | succ width ih =>
      have hdiv : n % base ^ (width + 1) / base = n / base % base ^ width := by
        rw [pow_succ', Nat.mod_mul_right_div_self]
      have hmod : n % base ^ (width + 1) % base = n % base :=
        Nat.mod_mod_of_dvd _ (dvd_pow_self base (Nat.succ_ne_zero width))
      rw [digits, hdiv, hmod, ih, digits]

/-! ## Order -/

/-- Numerals of one width sort the way their numbers do. -/
theorem digits_lt_digits {m : ℕ} (hn : n < base ^ width) (h : m < n) :
    digits base width m < digits base width n := by
  induction width generalizing m n with
  | zero =>
      rw [pow_zero] at hn
      omega
  | succ width ih =>
      have hbase : 0 < base := by
        by_contra hzero
        rw [Nat.eq_zero_of_not_pos hzero, Nat.zero_pow (Nat.succ_pos _)] at hn
        exact absurd hn (Nat.not_lt_zero _)
      have hhigh : n / base < base ^ width := by
        rw [Nat.div_lt_iff_lt_mul hbase, ← pow_succ]
        exact hn
      rw [digits, digits]
      rcases Nat.lt_or_ge (m / base) (n / base) with hlt | hge
      · exact Shortlex.append_lt_append _ _ (by rw [length_digits, length_digits]) (ih hhigh hlt)
      · have heq : m / base = n / base := Nat.le_antisymm (Nat.div_le_div_right h.le) hge
        have hlow : m % base < n % base := by
          have hm := Nat.div_add_mod m base
          have hn := Nat.div_add_mod n base
          rw [heq] at hm
          omega
        rw [heq]
        exact Shortlex.append_lt_append_left _ (List.cons_lt_cons_iff.mpr (.inl hlow))

theorem digits_lt_iff {m : ℕ} (hm : m < base ^ width) (hn : n < base ^ width) :
    digits base width m < digits base width n ↔ m < n := by
  refine ⟨fun h => ?_, digits_lt_digits hn⟩
  rcases Nat.lt_trichotomy m n with hlt | rfl | hgt
  · exact hlt
  · exact absurd h (lt_irrefl _)
  · exact absurd (h.trans (digits_lt_digits hm hgt)) (lt_irrefl _)

theorem digits_injective {m : ℕ} (hm : m < base ^ width) (hn : n < base ^ width)
    (h : digits base width m = digits base width n) : m = n := by
  have hvalue := congrArg (value base) h
  rwa [value_digits, value_digits, Nat.mod_eq_of_lt hm, Nat.mod_eq_of_lt hn] at hvalue

/-! ## Digits as letters -/

/-- Letters that are ordered as their digits keep the order of numerals. -/
theorem map_lt_map_iff {α : Type*} [LT α] {letter : ℕ → α}
    (hlt : ∀ {d e : ℕ}, d < base → e < base → (letter d < letter e ↔ d < e))
    (heq : ∀ {d e : ℕ}, d < base → e < base → (letter d = letter e ↔ d = e)) {es : List ℕ}
    (hds : ∀ d ∈ ds, d < base) (hes : ∀ d ∈ es, d < base) :
    ds.map letter < es.map letter ↔ ds < es := by
  induction ds generalizing es with
  | nil =>
      cases es with
      | nil => exact iff_of_false (List.not_lt_nil _) (List.not_lt_nil _)
      | cons e es => exact iff_of_true (List.nil_lt_cons _ _) (List.nil_lt_cons _ _)
  | cons d ds ih =>
      cases es with
      | nil => exact iff_of_false (List.not_lt_nil _) (List.not_lt_nil _)
      | cons e es =>
          rw [List.forall_mem_cons] at hds hes
          rw [List.map_cons, List.map_cons, List.cons_lt_cons_iff, List.cons_lt_cons_iff,
            hlt hds.1 hes.1, heq hds.1 hes.1, ih hds.2 hes.2]

theorem map_injective {α : Type*} {letter : ℕ → α}
    (hletter : ∀ {d e : ℕ}, d < base → e < base → letter d = letter e → d = e) {es : List ℕ}
    (hds : ∀ d ∈ ds, d < base) (hes : ∀ d ∈ es, d < base) (h : ds.map letter = es.map letter) :
    ds = es := by
  induction ds generalizing es with
  | nil => exact (List.map_eq_nil_iff.mp h.symm).symm
  | cons d ds ih =>
      cases es with
      | nil => cases h
      | cons e es =>
          rw [List.forall_mem_cons] at hds hes
          obtain ⟨hhead, htail⟩ := List.cons.inj h
          rw [hletter hds.1 hes.1 hhead, ih hds.2 hes.2 htail]

/-! ## Bytes -/

/-- The number of a list of bytes, the highest first. -/
def bytesValue (bytes : List UInt8) : ℕ := value 256 (bytes.map UInt8.toNat)

theorem bytes_lt (bytes : List UInt8) : ∀ d ∈ bytes.map UInt8.toNat, d < 256 := by
  intro d hd
  obtain ⟨byte, -, rfl⟩ := List.mem_map.mp hd
  exact byte.toNat_lt

theorem bytesValue_snoc (bytes : List UInt8) (byte : UInt8) :
    bytesValue (bytes ++ [byte]) = bytesValue bytes * 256 + byte.toNat := by
  rw [bytesValue, List.map_append]
  exact value_snoc ..

theorem bytesValue_lt (bytes : List UInt8) : bytesValue bytes < 256 ^ bytes.length := by
  have h := value_lt (bytes_lt bytes)
  rwa [List.length_map] at h

theorem digits_bytesValue (bytes : List UInt8) :
    digits 256 bytes.length (bytesValue bytes) = bytes.map UInt8.toNat := by
  have h := digits_value (by decide) (bytes_lt bytes)
  rwa [List.length_map] at h

theorem bytesValue_injective {bytes bytes' : List UInt8} (hlength : bytes.length = bytes'.length)
    (h : bytesValue bytes = bytesValue bytes') : bytes = bytes' := by
  refine List.map_injective_iff.mpr (fun _ _ => UInt8.toNat_inj.mp) ?_
  rw [← digits_bytesValue, ← digits_bytesValue, hlength, h]

end Radix
