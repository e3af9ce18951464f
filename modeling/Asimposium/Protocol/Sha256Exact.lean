import Asimposium.Lib.Fips180
import Asimposium.Protocol.Sha256

/-!
# The digest is the standard's

Every number that the code keeps is the number of a word, so its operators
are those of the standard. The padded message has the bits of the padded
message of the standard, and one block takes the words of a hash value to
those of the next, whatever the array of the schedule held before.
-/

namespace Asimposium.Sha256

open Bits32
open Fips180 (State byteBits numberBits)

/-! ## Words -/

def ofWords (words : List Word) : List Int := words.map fun x => (x.toNat : Int)

theorem entry_ofWords (words : List Word) (i : Nat) :
    entry (ofWords words) i = (words.getD i 0).toNat :=
  List.getD_map words (0 : Word) fun x : Word => (x.toNat : Int)

theorem K_eq : K = ofWords Fips180.constants := by decide +kernel

theorem initialHash_eq : initialHash = ofWords Fips180.initial.toList := by decide +kernel

theorem rotr_eq (a bits : Int) {n : Nat} (hbits : count bits = n)
    (hrest : count (32 - bits) = 32 - n) :
    rotr a bits = (Fips180.rotr n (word a)).toNat := by
  rw [rotr, ushr_zero, word_bor, word_ushr, word_shl, hbits, hrest]
  rfl

theorem bigSigma0_eq (a : Int) : ushr (bxor (bxor (rotr a 2) (rotr a 13)) (rotr a 22)) 0
    = (Fips180.bigSigma0 (word a)).toNat := by
  rw [ushr_zero, word_bxor, word_bxor, rotr_eq a 2 rfl rfl, rotr_eq a 13 rfl rfl,
    rotr_eq a 22 rfl rfl, word_toNat, word_toNat, word_toNat]
  rfl

theorem bigSigma1_eq (a : Int) : ushr (bxor (bxor (rotr a 6) (rotr a 11)) (rotr a 25)) 0
    = (Fips180.bigSigma1 (word a)).toNat := by
  rw [ushr_zero, word_bxor, word_bxor, rotr_eq a 6 rfl rfl, rotr_eq a 11 rfl rfl,
    rotr_eq a 25 rfl rfl, word_toNat, word_toNat, word_toNat]
  rfl

theorem smallSigma0_eq (a : Int) : ushr (bxor (bxor (rotr a 7) (rotr a 18)) (ushr a 3)) 0
    = (Fips180.smallSigma0 (word a)).toNat := by
  rw [ushr_zero, word_bxor, word_bxor, rotr_eq a 7 rfl rfl, rotr_eq a 18 rfl rfl, word_toNat,
    word_toNat, word_ushr]
  rfl

theorem smallSigma1_eq (a : Int) : ushr (bxor (bxor (rotr a 17) (rotr a 19)) (ushr a 10)) 0
    = (Fips180.smallSigma1 (word a)).toNat := by
  rw [ushr_zero, word_bxor, word_bxor, rotr_eq a 17 rfl rfl, rotr_eq a 19 rfl rfl, word_toNat,
    word_toNat, word_ushr]
  rfl

/-! ## Rounds -/

def vars (s : State) : Vars where
  a := s.a.toNat
  b := s.b.toNat
  c := s.c.toNat
  d := s.d.toNat
  e := s.e.toNat
  f := s.f.toNat
  g := s.g.toNat
  h := s.h.toNat

variable {w : List Int} {words : List Word}

theorem round_eq {i : Nat} (hw : entry w i = (words.getD i 0).toNat) (s : State) :
    round w (vars s) i = vars (Fips180.round (Fips180.constants.getD i 0) (words.getD i 0) s) := by
  have hK : entry K i = (Fips180.constants.getD i 0).toNat := by rw [K_eq, entry_ofWords]
  simp only [round, vars, bigSigma0_eq, bigSigma1_eq, hK, hw]
  simp only [ushr_zero, word_add, word_bxor, word_band, word_bnot, word_toNat, Fips180.round,
    Fips180.ch, Fips180.maj]

theorem rounds_eq (hw : ∀ i < 64, entry w i = (words.getD i 0).toNat) (s : State) :
    (List.range 64).foldl (round w) (vars s) = vars (Fips180.rounds words s) := by
  refine List.foldl_rel (r := fun v s => v = vars s) rfl fun i hi v s hv => ?_
  rw [hv]
  exact round_eq (hw i (List.mem_range.mp hi)) s

/-! ## The schedule -/

theorem entry_set {i t : Nat} (hi : i < w.length) (x : Int) :
    entry (w.set i x) t = if t = i then x else entry w t := by
  by_cases heq : t = i
  · subst heq
    rw [if_pos rfl, entry, List.getD_eq_getElem?_getD, List.getElem?_set_self hi]
    rfl
  · rw [if_neg heq, entry, entry, List.getD_eq_getElem?_getD, List.getD_eq_getElem?_getD,
      List.getElem?_set_ne (Ne.symm heq)]

structure Holds (w : List Int) (words : List Word) : Prop where
  length : w.length = 64
  entries : ∀ t < words.length, entry w t = (words.getD t 0).toNat

theorem Holds.extend (h : Holds w words) (hle : 16 ≤ words.length) (hlt : words.length < 64) :
    Holds (extendWord w words.length) (Fips180.extend words) := by
  have hset : ∀ x, (w.set words.length x).length = 64 := fun x => by rw [List.length_set, h.length]
  refine ⟨hset _, fun t ht => ?_⟩
  rw [Fips180.length_extend] at ht
  rw [extendWord, entry_set (by rw [h.length]; exact hlt)]
  by_cases hlast : t = words.length
  · rw [if_pos hlast, hlast, Fips180.getD_extend_last, h.entries _ (by omega),
      h.entries _ (by omega), h.entries _ (by omega), h.entries _ (by omega), smallSigma0_eq,
      smallSigma1_eq, ushr_zero]
    simp only [word_add, word_toNat]
    congr 1
    ac_rfl
  · rw [if_neg hlast, Fips180.getD_extend_of_lt (by omega)]
    exact h.entries t (by omega)

theorem Holds.extends (h : Holds w words) (hlength : words.length = 16) {n : Nat} (hn : n ≤ 48) :
    Holds ((List.range' 16 n).foldl extendWord w) (Fips180.extend^[n] words) := by
  induction n with
  | zero => exact h
  | succ n ih =>
      have hbefore := ih (by omega)
      have hnext : (Fips180.extend^[n] words).length = 16 + n := by
        rw [Fips180.length_extends, hlength]
      rw [List.range'_concat, List.foldl_append, Function.iterate_succ_apply', Nat.one_mul,
        ← hnext]
      exact hbefore.extend (by omega) (by omega)

theorem word_bytes (b₀ b₁ b₂ b₃ : UInt8) :
    word (bor (bor (bor (shl b₀.toNat 24) (shl b₁.toNat 16)) (shl b₂.toNat 8)) b₃.toNat)
      = BitVec.ofNat 32
        (((b₀.toNat * 2 ^ 8 + b₁.toNat) * 2 ^ 8 + b₂.toNat) * 2 ^ 8 + b₃.toNat) := by
  have hb₀ := b₀.toNat_lt
  have hb₁ := b₁.toNat_lt
  have hb₂ := b₂.toNat_lt
  have hb₃ := b₃.toNat_lt
  have h24 : count 24 = 24 := rfl
  have h16 : count 16 = 16 := rfl
  have h8 : count 8 = 8 := rfl
  have hsum : ((b₀.toNat * 2 ^ 8 + b₁.toNat) * 2 ^ 8 + b₂.toNat) * 2 ^ 8 + b₃.toNat
      = b₀.toNat <<< 24 ||| b₁.toNat <<< 16 ||| b₂.toNat <<< 8 ||| b₃.toNat := by
    have h01 : b₀.toNat <<< 24 ||| b₁.toNat <<< 16 = (b₀.toNat <<< 8 + b₁.toNat) <<< 16 := by
      rw [Nat.shiftLeft_add_eq_or_of_lt hb₁, Nat.shiftLeft_or_distrib, ← Nat.shiftLeft_add]
    have h012 : (b₀.toNat <<< 8 + b₁.toNat) <<< 16 ||| b₂.toNat <<< 8
        = ((b₀.toNat <<< 8 + b₁.toNat) <<< 8 + b₂.toNat) <<< 8 := by
      rw [Nat.shiftLeft_add_eq_or_of_lt hb₂, Nat.shiftLeft_or_distrib, ← Nat.shiftLeft_add]
    rw [h01, h012, ← Nat.shiftLeft_add_eq_or_of_lt hb₃, Nat.shiftLeft_eq, Nat.shiftLeft_eq,
      Nat.shiftLeft_eq]
  have hshift : ∀ (b : UInt8) (k : Nat),
      BitVec.ofNat 32 b.toNat <<< k = BitVec.ofNat 32 (b.toNat <<< k) := by
    intro b k
    have hb : (BitVec.ofNat 32 b.toNat).toNat = b.toNat :=
      Nat.mod_eq_of_lt (b.toNat_lt.trans (by decide))
    exact congrArg (fun n => BitVec.ofNat 32 (n <<< k)) hb
  rw [hsum, word_bor, word_bor, word_bor, word_shl, word_shl, word_shl, h24, h16, h8]
  simp only [word_natCast, hshift, BitVec.ofNat_or]

/-! ## Bytes -/

def numbers (bytes : List UInt8) : List Int := bytes.map fun b => (b.toNat : Int)

theorem numbers_append (bytes bytes' : List UInt8) :
    numbers (bytes ++ bytes') = numbers bytes ++ numbers bytes' := List.map_append

theorem entry_numbers (bytes : List UInt8) (i : Nat) :
    entry (numbers bytes) i = (bytes.getD i 0).toNat :=
  List.getD_map bytes (0 : UInt8) fun b : UInt8 => (b.toNat : Int)

/-- The four bytes of a number below `2 ^ 32`, the highest first. -/
def fourBytes (n : Nat) : List UInt8 :=
  [UInt8.ofNat (n / 2 ^ 24), UInt8.ofNat (n / 2 ^ 16), UInt8.ofNat (n / 2 ^ 8), UInt8.ofNat n]

theorem wordBytes_eq (n : Nat) : wordBytes n = numbers (fourBytes n) := by
  have h24 := @ushr_natCast n 24 (by decide)
  have h16 := @ushr_natCast n 16 (by decide)
  have h8 := @ushr_natCast n 8 (by decide)
  have hbyte : ∀ k, k ≤ 24 → n % 2 ^ 32 / 2 ^ k % 256 = n / 2 ^ k % 256 := by
    intro k hk
    have hsplit : (2 : Nat) ^ 32 = 2 ^ k * 2 ^ (32 - k) := by rw [← Nat.pow_add]; congr 1; omega
    rw [hsplit, Nat.mod_mul_right_div_self, Nat.mod_mod_of_dvd]
    exact Nat.pow_dvd_pow 2 (by omega : 8 ≤ 32 - k)
  rw [wordBytes]
  rw [show (24 : Int) = (24 : Nat) from rfl, show (16 : Int) = (16 : Nat) from rfl,
    show (8 : Int) = (8 : Nat) from rfl, h24, h16, h8, band_byte, band_byte, band_byte, band_byte,
    hbyte 24 (by decide), hbyte 16 (by decide), hbyte 8 (by decide)]
  simp only [numbers, fourBytes, List.map_cons, List.map_nil, UInt8.toNat_ofNat']

theorem byteBits_fourBytes (n : Nat) : byteBits (fourBytes n) = numberBits 32 n := by
  have hbyte : ∀ x, numberBits 8 (UInt8.ofNat x).toNat = numberBits 8 x := fun x => by
    rw [UInt8.toNat_ofNat', Fips180.numberBits_mod]
  have hbits : numberBits 32 n = numberBits 8 (n / 2 ^ 24) ++ (numberBits 8 (n / 2 ^ 16)
      ++ (numberBits 8 (n / 2 ^ 8) ++ numberBits 8 n)) := by
    rw [← Fips180.numberBits_add 8 8 n, ← Fips180.numberBits_add 8 (8 + 8) n,
      ← Fips180.numberBits_add 8 (8 + (8 + 8)) n]
  rw [hbits, byteBits, fourBytes]
  simp only [List.flatMap_cons, List.flatMap_nil, List.append_nil, hbyte]

/-! ## Padding -/

theorem pushZeros_eq (message : List Int) :
    pushZeros message
      = message ++ List.replicate ((120 - message.length % 64) % 64) 0 := by
  induction hzeros : (120 - message.length % 64) % 64 generalizing message with
  | zero =>
      have hlength : ¬ message.length % 64 ≠ 56 := by omega
      rw [pushZeros, if_neg hlength, List.replicate_zero, List.append_nil]
  | succ n ih =>
      have hlength : message.length % 64 ≠ 56 := by omega
      have hnext : (120 - (message ++ [(0 : Int)]).length % 64) % 64 = n := by
        rw [List.length_append, List.length_singleton]
        omega
      rw [pushZeros, if_pos hlength, ih _ hnext, List.append_assoc, List.singleton_append,
        List.replicate_succ]

def paddedBytes (input : List UInt8) : List UInt8 :=
  input ++ [0x80] ++ List.replicate ((119 - input.length % 64) % 64) 0
    ++ fourBytes (input.length * 8 / 2 ^ 32) ++ fourBytes (input.length * 8 % 2 ^ 32)

theorem padded_numbers (input : List UInt8) :
    padded (numbers input) = numbers (paddedBytes input) := by
  have hlength : (numbers input).length = input.length := List.length_map _
  have hbits : ((input.length : Int) * 8) = (input.length * 8 : Nat) := by push_cast; rfl
  have hhigh : ((input.length * 8 : Nat) : Int) / 0x100000000
      = (input.length * 8 / 2 ^ 32 : Nat) := by norm_cast
  have hlow : ushr (input.length * 8 : Nat) 0 = (input.length * 8 % 2 ^ 32 : Nat) := by
    have h0 := @ushr_natCast (input.length * 8) 0 (by decide)
    rw [Nat.pow_zero, Nat.div_one] at h0
    exact h0
  have hzeros : (120 - (input.length + 1) % 64) % 64 = (119 - input.length % 64) % 64 := by omega
  rw [padded, hlength, hbits, hhigh, hlow, wordBytes_eq, wordBytes_eq, pushZeros_eq,
    List.length_append, List.length_singleton, hlength, hzeros, paddedBytes, numbers_append,
    numbers_append, numbers_append, numbers_append]
  simp only [numbers, List.map_replicate]
  rfl

theorem byteBits_zeros (n : Nat) :
    byteBits (List.replicate n 0) = List.replicate (8 * n) false := by
  induction n with
  | zero => rfl
  | succ n ih =>
      rw [List.replicate_succ, byteBits, List.flatMap_cons, ← byteBits, ih,
        show 8 * (n + 1) = 8 + 8 * n by omega, List.replicate_add]
      rfl

theorem byteBits_paddedBytes (input : List UInt8) :
    byteBits (paddedBytes input) = Fips180.pad (byteBits input) := by
  have hlength : (byteBits input).length = input.length * 8 := by
    rw [Fips180.length_byteBits, Nat.mul_comm]
  have hone : byteBits [0x80] = [true] ++ List.replicate 7 false := by decide
  have hzeros : Fips180.zeroBits (input.length * 8) = 7 + 8 * ((119 - input.length % 64) % 64) := by
    unfold Fips180.zeroBits
    omega
  have hcount : byteBits (fourBytes (input.length * 8 / 2 ^ 32))
      ++ byteBits (fourBytes (input.length * 8 % 2 ^ 32)) = numberBits 64 (input.length * 8) := by
    rw [byteBits_fourBytes, byteBits_fourBytes, Fips180.numberBits_mod, ← Fips180.numberBits_add]
  rw [paddedBytes, Fips180.pad, hlength, hzeros, ← hcount, List.replicate_add]
  simp only [Fips180.byteBits_append, hone, byteBits_zeros, List.append_assoc]

theorem length_paddedBytes (input : List UInt8) : (paddedBytes input).length % 64 = 0 := by
  have hbits := Fips180.length_pad (byteBits input)
  rw [← byteBits_paddedBytes, Fips180.length_byteBits] at hbits
  omega

/-! ## Blocks -/

section Blocks

variable {message : List UInt8} {i : Nat}

theorem drop_four {k : Nat} (h : k + 4 ≤ message.length) :
    message.drop k = message.getD k 0 :: message.getD (k + 1) 0 :: message.getD (k + 2) 0
      :: message.getD (k + 3) 0 :: message.drop (k + 4) := by
  have hget : ∀ j, j < message.length →
      message.drop j = message.getD j 0 :: message.drop (j + 1) := fun j hj => by
    rw [List.drop_eq_getElem_cons hj, List.getD_eq_getElem _ _ hj]
  rw [hget k (by omega), hget (k + 1) (by omega), hget (k + 2) (by omega), hget (k + 3) (by omega)]

theorem length_block (bits : List Bool) : (Fips180.block bits i).length = 16 := by
  rw [Fips180.block, List.length_map, List.length_range]

theorem getD_block (bits : List Bool) {j : Nat} (hj : j < 16) :
    (Fips180.block bits i).getD j 0 = Fips180.wordAt bits (16 * i + j) := by
  have hlt : j < (Fips180.block bits i).length := by rw [length_block]; exact hj
  rw [List.getD_eq_getElem _ _ hlt]
  simp only [Fips180.block, List.getElem_map, List.getElem_range]

theorem loadWord_eq (w : List Int) {j : Nat} (h : 64 * i + 64 ≤ message.length) (hj : j < 16) :
    loadWord (numbers message) (64 * i) w j
      = w.set j ((Fips180.block (byteBits message) i).getD j 0).toNat := by
  have hdrop := @drop_four message (64 * i + j * 4) (by omega)
  have hindex : 4 * (16 * i + j) = 64 * i + j * 4 := by omega
  rw [← hindex] at hdrop
  rw [loadWord, getD_block _ hj, Fips180.wordAt_byteBits hdrop, entry_numbers, entry_numbers,
    entry_numbers, entry_numbers, ushr_zero, word_bytes, hindex]

theorem loadWords_holds {w : List Int} (hw : w.length = 64) (h : 64 * i + 64 ≤ message.length) :
    Holds ((List.range 16).foldl (loadWord (numbers message) (64 * i)) w)
      (Fips180.block (byteBits message) i) := by
  have hload : ∀ n ≤ 16,
      ((List.range n).foldl (loadWord (numbers message) (64 * i)) w).length = 64
        ∧ ∀ j < n, entry ((List.range n).foldl (loadWord (numbers message) (64 * i)) w) j
          = ((Fips180.block (byteBits message) i).getD j 0).toNat := by
    intro n
    induction n with
    | zero => exact fun _ => ⟨hw, fun j hj => absurd hj (Nat.not_lt_zero _)⟩
    | succ n ih =>
        intro hn
        obtain ⟨hlength, hentries⟩ := ih (by omega)
        rw [List.range_succ, List.foldl_append, List.foldl_cons, List.foldl_nil,
          loadWord_eq _ h (by omega)]
        refine ⟨by rw [List.length_set, hlength], fun j hj => ?_⟩
        rw [entry_set (by omega)]
        by_cases hlast : j = n
        · rw [if_pos hlast, hlast]
        · rw [if_neg hlast]
          exact hentries j (by omega)
  obtain ⟨hlength, hentries⟩ := hload 16 le_rfl
  exact ⟨hlength, fun j hj => hentries j (by rwa [length_block] at hj)⟩

/-- The hash of the code holds the words of a hash value. -/
def HashOf (state : List Int × List Int) (hash : State) : Prop :=
  state.1 = ofWords hash.toList ∧ state.2.length = 64

theorem processChunk_hash {state : List Int × List Int} {hash : State} (hstate : HashOf state hash)
    (h : 64 * i + 64 ≤ message.length) :
    HashOf (processChunk (numbers message) state (64 * i))
      (Fips180.compress hash (Fips180.block (byteBits message) i)) := by
  obtain ⟨words, w⟩ := state
  obtain ⟨rfl, hlength⟩ := hstate
  have hwords : Holds (blockWords (numbers message) w (64 * i))
      (Fips180.schedule (Fips180.block (byteBits message) i)) := by
    rw [blockWords, Fips180.schedule]
    exact (loadWords_holds hlength h).extends (length_block _) le_rfl
  have hscheduled : (Fips180.schedule (Fips180.block (byteBits message) i)).length = 64 := by
    rw [Fips180.schedule, Fips180.length_extends, length_block]
  have hrounds := rounds_eq (fun j hj => hwords.entries j (by rw [hscheduled]; exact hj)) hash
  rw [HashOf, processChunk]
  dsimp only
  refine ⟨?_, hwords.length⟩
  have hvars : (⟨entry (ofWords hash.toList) 0, entry (ofWords hash.toList) 1,
      entry (ofWords hash.toList) 2, entry (ofWords hash.toList) 3, entry (ofWords hash.toList) 4,
      entry (ofWords hash.toList) 5, entry (ofWords hash.toList) 6,
      entry (ofWords hash.toList) 7⟩ : Vars) = vars hash := rfl
  rw [hvars, hrounds, Fips180.compress]
  generalize Fips180.rounds _ _ = after
  simp only [entry_ofWords, vars, ushr_zero, word_add, word_toNat]
  simp only [ofWords, State.toList, State.add, List.map_cons, List.map_nil, List.getD_cons_zero,
    List.getD_cons_succ, BitVec.add_comm]

end Blocks

theorem chunks_eq (n : Nat) : chunks (64 * n) = (List.range n).map (64 * ·) := by
  rw [chunks, show (64 * n + 63) / 64 = n by omega]

theorem sha256Bytes_digest (input : List UInt8) :
    ∃ digest : List UInt8, sha256Bytes (numbers input) = numbers digest
      ∧ byteBits digest = Fips180.digest (byteBits input) := by
  obtain ⟨n, hn⟩ := Nat.dvd_of_mod_eq_zero (length_paddedBytes input)
  have hblocks : (Fips180.pad (byteBits input)).length / 512 = n := by
    rw [← byteBits_paddedBytes, Fips180.length_byteBits, hn]
    omega
  have hlength : (numbers (paddedBytes input)).length = 64 * n := by
    rw [numbers, List.length_map, hn]
  have hfold : HashOf
      ((chunks (64 * n)).foldl (processChunk (numbers (paddedBytes input)))
        (initialHash, List.replicate 64 0))
      (Fips180.hashValue (byteBits input)) := by
    rw [chunks_eq, List.foldl_map, Fips180.hashValue, hblocks]
    refine List.foldl_rel (r := HashOf) ⟨initialHash_eq, List.length_replicate⟩ ?_
    intro i hi state hash hstate
    rw [← byteBits_paddedBytes]
    have hlt := List.mem_range.mp hi
    exact processChunk_hash hstate (by rw [hn]; omega)
  refine ⟨(Fips180.hashValue (byteBits input)).toList.flatMap fun x => fourBytes x.toNat, ?_, ?_⟩
  · rw [sha256Bytes, padded_numbers, hlength, hfold.1, ofWords, List.flatMap_map, numbers, List.map_flatMap]
    exact List.flatMap_congr fun x _ => wordBytes_eq x.toNat
  · rw [Fips180.digest, byteBits, List.flatMap_assoc]
    exact List.flatMap_congr fun x _ => byteBits_fourBytes x.toNat

end Asimposium.Sha256
