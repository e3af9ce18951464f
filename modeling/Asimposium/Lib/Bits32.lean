import Mathlib.Data.BitVec
import Mathlib.Data.Nat.Bitwise

/-!
# Bitwise operators on numbers

The bitwise operators of a language whose only numbers are floating-point:
an operand is reduced to 32 bits, and the result is read back as a signed
integer, for `>>>` as an unsigned one. Numbers are integers here, so sums
are exact until an operator reduces them.

`word` is that reduction. The lemmas push it through every operator, down
to operations on words.
-/

namespace Bits32

abbrev Word := BitVec 32

/-- The 32 bits of a number. -/
def word (n : Int) : Word := BitVec.ofInt 32 n

/-- A shift counts modulo 32. -/
def count (n : Int) : Nat := (word n).toNat % 32

/-- `a | b`. -/
def bor (a b : Int) : Int := (word a ||| word b).toInt

/-- `a & b`. -/
def band (a b : Int) : Int := (word a &&& word b).toInt

/-- `a ^ b`. -/
def bxor (a b : Int) : Int := (word a ^^^ word b).toInt

/-- `~a`. -/
def bnot (a : Int) : Int := (~~~ word a).toInt

/-- `a << b`. -/
def shl (a b : Int) : Int := (word a <<< count b).toInt

/-- `a >> b`. -/
def shr (a b : Int) : Int := ((word a).sshiftRight (count b)).toInt

/-- `a >>> b`. -/
def ushr (a b : Int) : Int := (word a >>> count b).toNat

/-! ## Down to words -/

section Words

variable (a b : Int)

@[simp] theorem word_bor : word (bor a b) = word a ||| word b := BitVec.ofInt_toInt

@[simp] theorem word_band : word (band a b) = word a &&& word b := BitVec.ofInt_toInt

@[simp] theorem word_bxor : word (bxor a b) = word a ^^^ word b := BitVec.ofInt_toInt

@[simp] theorem word_bnot : word (bnot a) = ~~~ word a := BitVec.ofInt_toInt

@[simp] theorem word_shl : word (shl a b) = word a <<< count b := BitVec.ofInt_toInt

@[simp] theorem word_toNat (x : Word) : word (x.toNat : Int) = x := by
  rw [word, BitVec.ofInt_natCast, BitVec.ofNat_toNat, BitVec.setWidth_eq]

@[simp] theorem word_ushr : word (ushr a b) = word a >>> count b := word_toNat _

@[simp] theorem word_add : word (a + b) = word a + word b := BitVec.ofInt_add a b

@[simp] theorem word_zero : word 0 = 0 := rfl

@[simp] theorem word_natCast (n : Nat) : word n = BitVec.ofNat 32 n := BitVec.ofInt_natCast 32 n

/-- `a >>> 0` is the number of the bits of `a`. -/
theorem ushr_zero : ushr a 0 = (word a).toNat := rfl

end Words

/-! ## Small numbers -/

section Small

variable {m n : Nat}

theorem toNat_word (h : n < 2 ^ 32) : (word n).toNat = n := by
  rw [word_natCast, BitVec.toNat_ofNat, Nat.mod_eq_of_lt h]

theorem count_natCast (h : n < 32) : count n = n := by
  rw [count, toNat_word (by omega), Nat.mod_eq_of_lt h]

/-- A signed reading of few bits is an unsigned one. -/
theorem toInt_of_lt {x : Word} (h : x.toNat < 2 ^ 31) : x.toInt = x.toNat :=
  BitVec.toInt_eq_toNat_of_lt (by omega)

theorem bor_small (hm : m < 2 ^ 31) (hn : n < 2 ^ 31) : bor m n = (m ||| n : Nat) := by
  have hlt : (word m ||| word n).toNat = m ||| n := by
    rw [BitVec.toNat_or, toNat_word (by omega), toNat_word (by omega)]
  rw [bor, toInt_of_lt (by rw [hlt]; exact Nat.or_lt_two_pow hm hn), hlt]

theorem band_small (hm : m < 2 ^ 31) (hn : n < 2 ^ 31) : band m n = (m &&& n : Nat) := by
  have hlt : (word m &&& word n).toNat = m &&& n := by
    rw [BitVec.toNat_and, toNat_word (by omega), toNat_word (by omega)]
  rw [band, toInt_of_lt (by rw [hlt]; exact Nat.and_lt_two_pow _ hn), hlt]

theorem shr_small (hm : m < 2 ^ 31) (hn : n < 32) : shr m n = (m / 2 ^ n : Nat) := by
  have hmsb : (word m).msb = false := by
    rw [BitVec.msb_eq_false_iff_two_mul_lt, toNat_word (by omega)]
    omega
  have hlt : ((word m).sshiftRight n).toNat = m / 2 ^ n := by
    rw [BitVec.sshiftRight_eq_of_msb_false hmsb, BitVec.toNat_ushiftRight, toNat_word (by omega),
      Nat.shiftRight_eq_div_pow]
  have hle := Nat.div_le_self m (2 ^ n)
  rw [shr, count_natCast hn, toInt_of_lt (by rw [hlt]; omega), hlt]

theorem ushr_natCast (hn : n < 32) : ushr m n = (m % 2 ^ 32 / 2 ^ n : Nat) := by
  rw [ushr, count_natCast hn, word_natCast, BitVec.toNat_ushiftRight, BitVec.toNat_ofNat,
    Nat.shiftRight_eq_div_pow]

/-- The lowest byte of a number. -/
theorem band_byte (m : Nat) : band m 0xff = (m % 256 : Nat) := by
  have hlt : (word m &&& word 0xff).toNat = m % 256 := by
    have hmask : (word 0xff).toNat = 2 ^ 8 - 1 := rfl
    rw [BitVec.toNat_and, hmask, Nat.and_two_pow_sub_one_eq_mod, word_natCast, BitVec.toNat_ofNat,
      Nat.mod_mod_of_dvd _ (by decide)]
  have hsmall : m % 256 < 256 := Nat.mod_lt _ (by decide)
  rw [band, toInt_of_lt (by rw [hlt]; omega), hlt]

end Small

end Bits32
