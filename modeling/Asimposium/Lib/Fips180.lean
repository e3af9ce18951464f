import Mathlib.Data.BitVec
import Mathlib.Data.List.GetD
import Mathlib.Data.Nat.Prime.Defs
import Mathlib.Tactic.Ring

/-!
# SHA-256 as its standard defines it

The functions, constants, preprocessing and hash computation of FIPS 180-4
for SHA-256, over messages of bits. Nothing here speaks of bytes but the
reading of bytes as bits.
-/

namespace Fips180

abbrev Word := BitVec 32

/-! ## Functions -/

/-- `ROTRⁿ(x)`. -/
def rotr (n : Nat) (x : Word) : Word := x >>> n ||| x <<< (32 - n)

def ch (x y z : Word) : Word := x &&& y ^^^ ~~~ x &&& z

def maj (x y z : Word) : Word := x &&& y ^^^ x &&& z ^^^ y &&& z

/-- `Σ₀`. -/
def bigSigma0 (x : Word) : Word := rotr 2 x ^^^ rotr 13 x ^^^ rotr 22 x

/-- `Σ₁`. -/
def bigSigma1 (x : Word) : Word := rotr 6 x ^^^ rotr 11 x ^^^ rotr 25 x

/-- `σ₀`. -/
def smallSigma0 (x : Word) : Word := rotr 7 x ^^^ rotr 18 x ^^^ x >>> 3

/-- `σ₁`. -/
def smallSigma1 (x : Word) : Word := rotr 17 x ^^^ rotr 19 x ^^^ x >>> 10

/-! ## Constants -/

/-- `K`. -/
def constants : List Word := [
  0x428a2f98, 0x71374491, 0xb5c0fbcf, 0xe9b5dba5, 0x3956c25b, 0x59f111f1, 0x923f82a4, 0xab1c5ed5,
  0xd807aa98, 0x12835b01, 0x243185be, 0x550c7dc3, 0x72be5d74, 0x80deb1fe, 0x9bdc06a7, 0xc19bf174,
  0xe49b69c1, 0xefbe4786, 0x0fc19dc6, 0x240ca1cc, 0x2de92c6f, 0x4a7484aa, 0x5cb0a9dc, 0x76f988da,
  0x983e5152, 0xa831c66d, 0xb00327c8, 0xbf597fc7, 0xc6e00bf3, 0xd5a79147, 0x06ca6351, 0x14292967,
  0x27b70a85, 0x2e1b2138, 0x4d2c6dfc, 0x53380d13, 0x650a7354, 0x766a0abb, 0x81c2c92e, 0x92722c85,
  0xa2bfe8a1, 0xa81a664b, 0xc24b8b70, 0xc76c51a3, 0xd192e819, 0xd6990624, 0xf40e3585, 0x106aa070,
  0x19a4c116, 0x1e376c08, 0x2748774c, 0x34b0bcb5, 0x391c0cb3, 0x4ed8aa4a, 0x5b9cca4f, 0x682e6ff3,
  0x748f82ee, 0x78a5636f, 0x84c87814, 0x8cc70208, 0x90befffa, 0xa4506ceb, 0xbef9a3f7, 0xc67178f2]

/-- Eight working variables, or the eight words of a hash value. -/
structure State where
  a : Word
  b : Word
  c : Word
  d : Word
  e : Word
  f : Word
  g : Word
  h : Word
deriving DecidableEq

def State.toList (s : State) : List Word := [s.a, s.b, s.c, s.d, s.e, s.f, s.g, s.h]

/-- `H⁽⁰⁾`. -/
def initial : State where
  a := 0x6a09e667
  b := 0xbb67ae85
  c := 0x3c6ef372
  d := 0xa54ff53a
  e := 0x510e527f
  f := 0x9b05688c
  g := 0x1f83d9ab
  h := 0x5be0cd19

/-! ## Preprocessing -/

/-- The smallest `k` with `l + 1 + k ≡ 448 mod 512`. -/
def zeroBits (l : Nat) : Nat := (959 - l % 512) % 512

theorem zeroBits_congr (l : Nat) : (l + 1 + zeroBits l) % 512 = 448 := by
  unfold zeroBits
  omega

/-- A number in `n` bits, the highest first. -/
def numberBits (n x : Nat) : List Bool := (List.range n).map fun i => x.testBit (n - 1 - i)

def pad (message : List Bool) : List Bool :=
  message ++ [true] ++ List.replicate (zeroBits message.length) false
    ++ numberBits 64 message.length

theorem length_pad (message : List Bool) : (pad message).length % 512 = 0 := by
  have hcongr := zeroBits_congr message.length
  simp only [pad, numberBits, List.length_append, List.length_replicate, List.length_map,
    List.length_range, List.length_singleton]
  omega

/-- The number of some bits, the highest first. -/
def bitsNumber (bits : List Bool) : Nat := bits.foldl (fun n bit => 2 * n + bit.toNat) 0

/-- The words of a message. -/
def wordAt (message : List Bool) (i : Nat) : Word :=
  BitVec.ofNat 32 (bitsNumber ((message.drop (32 * i)).take 32))

/-- A block of sixteen words. -/
def block (message : List Bool) (i : Nat) : List Word :=
  (List.range 16).map fun j => wordAt message (16 * i + j)

/-! ## Hash computation -/

/-- The next word of the message schedule. -/
def extend (w : List Word) : List Word :=
  w ++ [smallSigma1 (w.getD (w.length - 2) 0) + w.getD (w.length - 7) 0
    + smallSigma0 (w.getD (w.length - 15) 0) + w.getD (w.length - 16) 0]

/-- The message schedule of a block. -/
def schedule (block : List Word) : List Word := extend^[48] block

/-- One round, with its constant and its word of the schedule. -/
def round (k w : Word) (s : State) : State :=
  let t1 := s.h + bigSigma1 s.e + ch s.e s.f s.g + k + w
  let t2 := bigSigma0 s.a + maj s.a s.b s.c
  { a := t1 + t2, b := s.a, c := s.b, d := s.c, e := s.d + t1, f := s.e, g := s.f, h := s.g }

def rounds (w : List Word) (s : State) : State :=
  (List.range 64).foldl (fun s t => round (constants.getD t 0) (w.getD t 0) s) s

def State.add (s t : State) : State where
  a := s.a + t.a
  b := s.b + t.b
  c := s.c + t.c
  d := s.d + t.d
  e := s.e + t.e
  f := s.f + t.f
  g := s.g + t.g
  h := s.h + t.h

/-- The hash value after one more block. -/
def compress (hash : State) (block : List Word) : State :=
  (rounds (schedule block) hash).add hash

def hashValue (message : List Bool) : State :=
  (List.range ((pad message).length / 512)).foldl
    (fun hash i => compress hash (block (pad message) i)) initial

/-- The message digest, as bits. -/
def digest (message : List Bool) : List Bool :=
  (hashValue message).toList.flatMap fun word => numberBits 32 word.toNat

/-- The bits of bytes, the highest of each first. -/
def byteBits (bytes : List UInt8) : List Bool := bytes.flatMap fun byte => numberBits 8 byte.toNat

/-- The example of one block. -/
example : digest (byteBits [0x61, 0x62, 0x63]) = byteBits [
    0xba, 0x78, 0x16, 0xbf, 0x8f, 0x01, 0xcf, 0xea, 0x41, 0x41, 0x40, 0xde, 0x5d, 0xae, 0x22, 0x23,
    0xb0, 0x03, 0x61, 0xa3, 0x96, 0x17, 0x7a, 0x9c, 0xb4, 0x10, 0xff, 0x61, 0xf2, 0x00, 0x15,
    0xad] := by
  decide +kernel

/-! ## Bits of numbers -/

theorem numberBits_succ (n x : Nat) :
    numberBits (n + 1) x = x.testBit n :: numberBits n x := by
  rw [numberBits, List.range_succ_eq_map, List.map_cons, List.map_map]
  refine congrArg₂ List.cons rfl (List.map_congr_left fun i hi => ?_)
  have hindex : n + 1 - 1 - (i + 1) = n - 1 - i := by omega
  exact congrArg x.testBit hindex

theorem length_numberBits (n x : Nat) : (numberBits n x).length = n := by
  rw [numberBits, List.length_map, List.length_range]

/-- The bits of a number are those of its parts. -/
theorem numberBits_add (m n x : Nat) :
    numberBits (m + n) x = numberBits m (x / 2 ^ n) ++ numberBits n x := by
  induction m with
  | zero => rw [Nat.zero_add]; rfl
  | succ m ih =>
      rw [Nat.add_right_comm, numberBits_succ, numberBits_succ, ih, List.cons_append,
        Nat.testBit_div_two_pow]

theorem numberBits_mod (n x : Nat) : numberBits n (x % 2 ^ n) = numberBits n x := by
  refine List.map_congr_left fun i hi => ?_
  have hlt := List.mem_range.mp hi
  rw [Nat.testBit_mod_two_pow, decide_eq_true (by omega), Bool.true_and]

theorem foldl_bits (bits : List Bool) (n : Nat) :
    bits.foldl (fun n bit => 2 * n + bit.toNat) n = n * 2 ^ bits.length + bitsNumber bits := by
  induction bits generalizing n with
  | nil => rw [List.foldl_nil, List.length_nil, Nat.pow_zero, Nat.mul_one]; rfl
  | cons bit bits ih =>
      rw [bitsNumber, List.foldl_cons, List.foldl_cons, ih, ih (2 * 0 + bit.toNat),
        List.length_cons, Nat.pow_succ]
      ring

theorem bitsNumber_append (bits bits' : List Bool) :
    bitsNumber (bits ++ bits') = bitsNumber bits * 2 ^ bits'.length + bitsNumber bits' := by
  rw [bitsNumber, List.foldl_append, foldl_bits]
  rfl

theorem bitsNumber_numberBits (n x : Nat) : bitsNumber (numberBits n x) = x % 2 ^ n := by
  induction n with
  | zero => rw [Nat.pow_zero, Nat.mod_one]; rfl
  | succ n ih =>
      have hcons : x.testBit n :: numberBits n x = [x.testBit n] ++ numberBits n x := rfl
      rw [numberBits_succ, hcons, bitsNumber_append, length_numberBits, ih, Nat.pow_succ,
        Nat.mod_mul, Nat.testBit_eq_decide_div_mod_eq, bitsNumber]
      rcases Nat.mod_two_eq_zero_or_one (x / 2 ^ n) with hbit | hbit <;> simp [hbit, Nat.add_comm]

/-! ## Bits of bytes -/

theorem byteBits_append (bytes bytes' : List UInt8) :
    byteBits (bytes ++ bytes') = byteBits bytes ++ byteBits bytes' := List.flatMap_append

theorem length_byteBits (bytes : List UInt8) : (byteBits bytes).length = 8 * bytes.length := by
  induction bytes with
  | nil => rfl
  | cons byte bytes ih =>
      rw [byteBits, List.flatMap_cons, List.length_append, length_numberBits, ← byteBits, ih,
        List.length_cons]
      ring

theorem drop_byteBits (bytes : List UInt8) (n : Nat) :
    (byteBits bytes).drop (8 * n) = byteBits (bytes.drop n) := by
  induction bytes generalizing n with
  | nil => rw [List.drop_nil]; exact List.drop_nil
  | cons byte bytes ih =>
      cases n with
      | zero => rfl
      | succ n =>
          have hlength : (numberBits 8 byte.toNat).length = 8 := length_numberBits _ _
          rw [List.drop_succ_cons, ← ih, byteBits, List.flatMap_cons, List.drop_append, hlength,
            List.drop_of_length_le (by omega), List.nil_append, ← byteBits]
          congr 1

/-- A word is read from four bytes. -/
theorem wordAt_byteBits {bytes rest : List UInt8} {k : Nat} {b₀ b₁ b₂ b₃ : UInt8}
    (h : bytes.drop (4 * k) = b₀ :: b₁ :: b₂ :: b₃ :: rest) :
    wordAt (byteBits bytes) k = BitVec.ofNat 32
      (((b₀.toNat * 2 ^ 8 + b₁.toNat) * 2 ^ 8 + b₂.toNat) * 2 ^ 8 + b₃.toNat) := by
  have hdrop : (byteBits bytes).drop (32 * k) = byteBits [b₀, b₁, b₂, b₃] ++ byteBits rest := by
    rw [← byteBits_append, show 32 * k = 8 * (4 * k) by omega, drop_byteBits, h]
    rfl
  have htake : ((byteBits bytes).drop (32 * k)).take 32 = byteBits [b₀, b₁, b₂, b₃] := by
    rw [hdrop]
    exact List.take_left' (length_byteBits _)
  have hbyte : ∀ b : UInt8, bitsNumber (numberBits 8 b.toNat) = b.toNat := fun b => by
    rw [bitsNumber_numberBits, Nat.mod_eq_of_lt b.toNat_lt]
  have hbits : byteBits [b₀, b₁, b₂, b₃] = numberBits 8 b₀.toNat ++ numberBits 8 b₁.toNat
      ++ numberBits 8 b₂.toNat ++ numberBits 8 b₃.toNat := by
    simp only [byteBits, List.flatMap_cons, List.flatMap_nil, List.append_nil, List.append_assoc]
  rw [wordAt, htake, hbits, bitsNumber_append, bitsNumber_append, bitsNumber_append, hbyte, hbyte,
    hbyte, hbyte, length_numberBits, length_numberBits, length_numberBits]

/-! ## The message schedule -/

theorem length_extend (w : List Word) : (extend w).length = w.length + 1 := by
  rw [extend, List.length_append, List.length_singleton]

theorem length_extends (w : List Word) (n : Nat) : (extend^[n] w).length = w.length + n := by
  induction n with
  | zero => rfl
  | succ n ih => rw [Function.iterate_succ_apply', length_extend, ih, Nat.add_assoc]

theorem getD_extend_of_lt {w : List Word} {t : Nat} (h : t < w.length) :
    (extend w).getD t 0 = w.getD t 0 := by
  rw [extend, List.getD_append _ _ _ _ h]

theorem getD_extend_last (w : List Word) :
    (extend w).getD w.length 0 = smallSigma1 (w.getD (w.length - 2) 0) + w.getD (w.length - 7) 0
      + smallSigma0 (w.getD (w.length - 15) 0) + w.getD (w.length - 16) 0 := by
  rw [extend, List.getD_append_right _ _ _ _ le_rfl, Nat.sub_self]
  rfl

end Fips180
