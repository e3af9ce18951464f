import Asimposium.Codec.Utf8
import Asimposium.Protocol.Sha256Exact

/-!
# The bytes of a string

`utf8Bytes` is standard UTF-8 on the strings that spell Unicode scalars, and
gives half of a surrogate pair its three-byte form. Either way the bytes of a
code point tell it from every other, so no two strings share their bytes.
-/

namespace Asimposium.Sha256

open Bits32
open Fips180 (byteBits)
open Codec (basicBytes_append pairBytes_append basic_ne_pair basicBytes_ne_nil pairBytes_ne_nil
  surrogates)
open Asimposium.Text (isHighSurrogate isLowSurrogate basicBytes pairBytes codePoints)

/-! ## Code points -/

inductive IsPoint : Text → Prop
  | unit (u : UInt16) : IsPoint [u]
  | pair {u v : UInt16} (hhigh : isHighSurrogate u = true) (hlow : isLowSurrogate v = true) :
      IsPoint [u, v]

variable {point : Text}

theorem isPoint_of_mem {t : Text} (h : point ∈ codePoints t) : IsPoint point := by
  induction t using Text.codePoints.induct with
  | case1 => cases h
  | case2 u =>
      rw [codePoints, List.mem_singleton] at h
      rw [h]
      exact .unit u
  | case3 u v rest hpair ih =>
      rw [codePoints, if_pos hpair] at h
      rcases List.mem_cons.mp h with rfl | hrest
      · rw [Bool.and_eq_true] at hpair
        exact .pair hpair.1 hpair.2
      · exact ih hrest
  | case4 u v rest hpair ih =>
      rw [codePoints, if_neg hpair] at h
      rcases List.mem_cons.mp h with rfl | hrest
      · exact .unit u
      · exact ih hrest

theorem flatten_codePoints (t : Text) : (codePoints t).flatten = t := by
  induction t using Text.codePoints.induct with
  | case1 => rfl
  | case2 u => rfl
  | case3 u v rest hpair ih => rw [codePoints, if_pos hpair, List.flatten_cons, ih]; rfl
  | case4 u v rest hpair ih => rw [codePoints, if_neg hpair, List.flatten_cons, ih]; rfl

theorem codePoints_point (h : IsPoint point) : codePoints point = [point] := by
  cases h with
  | unit u => rfl
  | pair hhigh hlow => rw [codePoints, hhigh, hlow]; rfl

/-! ## The bytes of a code point -/

/-- The bytes of a code point, the three-byte form of half a pair included. -/
def pointBytes : Text → List Nat
  | [u] => basicBytes u.toNat
  | u :: v :: _ => pairBytes u v
  | [] => []

theorem pointBytes_ne_nil (h : IsPoint point) : pointBytes point ≠ [] := by
  cases h with
  | unit u => exact basicBytes_ne_nil _
  | pair => exact pairBytes_ne_nil _ _

theorem pointBytes_append {p q : Text} (hp : IsPoint p) (hq : IsPoint q) {r s : List Nat}
    (h : pointBytes p ++ r = pointBytes q ++ s) : p = q ∧ r = s := by
  cases hp with
  | unit u =>
      cases hq with
      | unit v =>
          obtain ⟨hunit, hrest⟩ := basicBytes_append u.toNat_lt v.toNat_lt h
          exact ⟨congrArg (fun w => [w]) (UInt16.toNat_inj.mp hunit), hrest⟩
      | pair => exact absurd h (basic_ne_pair u.toNat_lt)
  | pair hhigh hlow =>
      cases hq with
      | unit v => exact absurd h.symm (basic_ne_pair v.toNat_lt)
      | pair hhigh' hlow' =>
          obtain ⟨rfl, rfl, hrest⟩ := pairBytes_append hhigh hlow hhigh' hlow' h
          exact ⟨rfl, hrest⟩

theorem bor_band (a n : Nat) (k : Nat) (ha : a < 2 ^ 25) (hn : n < 2 ^ 6) (hk : a = 2 ^ 6 * k) :
    bor a n = (a + n : Nat) := by
  rw [bor_small (by omega) (by omega), hk, Nat.two_pow_add_eq_or_of_lt hn]

theorem band_low {n : Nat} (hn : n < 2 ^ 31) : band n 0x3f = (n % 64 : Nat) := by
  have hmask : n &&& 0x3f = n % 64 := Nat.and_two_pow_sub_one_eq_mod n 6
  have hsmall := @band_small n 0x3f hn (by decide)
  rw [hmask] at hsmall
  exact hsmall

theorem trailing {n : Nat} (hn : n < 2 ^ 31) : bor 0x80 (band n 0x3f) = (0x80 + n % 64 : Nat) := by
  rw [band_low hn]
  exact bor_band 0x80 (n % 64) 2 (by decide) (Nat.mod_lt _ (by decide)) rfl

/-- The code encodes a number below `0x110000` as the standard does. -/
def numberPoint (n : Nat) : List Nat :=
  if n < 0x10000 then basicBytes n
  else [0xf0 + n / 262144, 0x80 + n / 4096 % 64, 0x80 + n / 64 % 64, 0x80 + n % 64]

theorem encodePoint_eq {n : Nat} (hn : n < 0x110000) :
    encodePoint n = (numberPoint n).map fun b : Nat => (b : Int) := by
  have h6 : shr n 6 = (n / 64 : Nat) := @shr_small n 6 (by omega) (by decide)
  have h12 : shr n 12 = (n / 4096 : Nat) := @shr_small n 12 (by omega) (by decide)
  have h18 : shr n 18 = (n / 262144 : Nat) := @shr_small n 18 (by omega) (by decide)
  have hlow := @trailing n (by omega)
  have hmiddle := @trailing (n / 64) (by omega)
  have hhigh := @trailing (n / 4096) (by omega)
  rw [encodePoint, numberPoint, basicBytes, h6, h12, h18, hlow, hmiddle, hhigh]
  have h80 : (n : Int) < 0x80 ↔ n < 0x80 := Int.ofNat_lt (m := 0x80)
  have h800 : (n : Int) < 0x800 ↔ n < 0x800 := Int.ofNat_lt (m := 0x800)
  have h10000 : (n : Int) < 0x10000 ↔ n < 0x10000 := Int.ofNat_lt (m := 0x10000)
  by_cases h1 : n < 0x80
  · rw [if_pos (h80.mpr h1), if_pos (by omega), if_pos h1]
    rfl
  · rw [if_neg (mt h80.mp h1)]
    by_cases h2 : n < 0x800
    · have hfirst := bor_band 0xc0 (n / 64) 3 (by decide) (by omega) rfl
      rw [if_pos (h800.mpr h2), if_pos (by omega), if_neg h1, if_pos h2]
      exact congrArg (fun b => [b, _]) hfirst
    · rw [if_neg (mt h800.mp h2)]
      by_cases h3 : n < 0x10000
      · have hfirst : bor 0xe0 (n / 4096 : Nat) = (0xe0 + n / 4096 : Nat) := by
          rw [show (0xe0 : Int) = (0xe0 : Nat) from rfl, bor_small (by decide) (by omega),
            ← Nat.two_pow_add_eq_or_of_lt (i := 5) (by omega : n / 4096 < 2 ^ 5) 7]
        rw [if_pos (h10000.mpr h3), if_pos h3, if_neg h1, if_neg h2]
        exact congrArg (fun b => [b, _, _]) hfirst
      · have hfirst : bor 0xf0 (n / 262144 : Nat) = (0xf0 + n / 262144 : Nat) := by
          rw [show (0xf0 : Int) = (0xf0 : Nat) from rfl, bor_small (by decide) (by omega),
            ← Nat.two_pow_add_eq_or_of_lt (i := 4) (by omega : n / 262144 < 2 ^ 4) 15]
        rw [if_neg (mt h10000.mp h3), if_neg h3]
        exact congrArg (fun b => [b, _, _, _]) hfirst

theorem encodePoint_codePointAt (h : IsPoint point) :
    encodePoint (codePointAt point) = (pointBytes point).map fun b : Nat => (b : Int) := by
  cases h with
  | unit u =>
      have hlt := u.toNat_lt
      rw [codePointAt, encodePoint_eq (by omega), numberPoint, if_pos hlt]
      rfl
  | @pair u v hhigh hlow =>
      obtain ⟨hu, hu', hv, hv'⟩ := surrogates hhigh hlow
      have hpoint : codePointAt [u, v]
          = (0x10000 + (u.toNat - 0xd800) * 0x400 + (v.toNat - 0xdc00) : Nat) := by
        rw [codePointAt, hhigh, hlow]
        simp only [Bool.and_self, if_true]
        omega
      rw [hpoint, encodePoint_eq (by omega), numberPoint, if_neg (by omega)]
      rfl

theorem utf8Bytes_eq (t : Text) :
    utf8Bytes t = ((codePoints t).flatMap pointBytes).map fun b : Nat => (b : Int) := by
  rw [utf8Bytes, List.map_flatMap]
  exact List.flatMap_congr fun point hpoint => encodePoint_codePointAt (isPoint_of_mem hpoint)

/-! ## No two strings share their bytes -/

theorem points_eq {ps qs : List Text} (hps : ∀ p ∈ ps, IsPoint p) (hqs : ∀ q ∈ qs, IsPoint q)
    (h : ps.flatMap pointBytes = qs.flatMap pointBytes) : ps = qs := by
  induction ps generalizing qs with
  | nil =>
      cases qs with
      | nil => rfl
      | cons q qs =>
          exact absurd (List.append_eq_nil_iff.mp h.symm).1
            (pointBytes_ne_nil (hqs q (List.mem_cons_self ..)))
  | cons p ps ih =>
      rw [List.forall_mem_cons] at hps
      cases qs with
      | nil => exact absurd (List.append_eq_nil_iff.mp h).1 (pointBytes_ne_nil hps.1)
      | cons q qs =>
          rw [List.forall_mem_cons] at hqs
          obtain ⟨rfl, hrest⟩ := pointBytes_append hps.1 hqs.1 h
          rw [ih hps.2 hqs.2 hrest]

theorem utf8Bytes_injective : Function.Injective utf8Bytes := by
  intro s t h
  rw [utf8Bytes_eq, utf8Bytes_eq] at h
  have hbytes := List.map_injective_iff.mpr (fun _ _ hmn => Int.ofNat.inj hmn) h
  have hpoints := points_eq (fun _ hp => isPoint_of_mem hp) (fun _ hq => isPoint_of_mem hq) hbytes
  rw [← flatten_codePoints s, hpoints, flatten_codePoints]

theorem utf8Bytes_points (t : Text) : utf8Bytes t = (codePoints t).flatMap utf8Bytes := by
  rw [utf8Bytes]
  refine List.flatMap_congr fun point hpoint => ?_
  rw [utf8Bytes, codePoints_point (isPoint_of_mem hpoint), List.flatMap_singleton]

theorem utf8Bytes_lone {u : UInt16} (h : (isHighSurrogate u || isLowSurrogate u) = true) :
    utf8Bytes [u] = [0xe0 + u.toNat / 4096, 0x80 + u.toNat / 64 % 64, 0x80 + u.toNat % 64] := by
  have hlarge : 0xd800 ≤ u.toNat := by
    simp only [isHighSurrogate, isLowSurrogate, Bool.or_eq_true, Bool.and_eq_true,
      decide_eq_true_eq, UInt16.le_iff_toNat_le] at h
    simp at h
    omega
  have hbytes : pointBytes [u]
      = [0xe0 + u.toNat / 4096, 0x80 + u.toNat / 64 % 64, 0x80 + u.toNat % 64] := by
    rw [pointBytes, basicBytes, if_neg (by omega), if_neg (by omega)]
  rw [utf8Bytes_eq, codePoints, List.flatMap_singleton, hbytes]
  simp

/-! ## Strings of Unicode scalars -/

def charUnits (c : Char) : Text :=
  if c.toNat < 0x10000 then [c.toNat.toUInt16]
  else
    [(0xd800 + (c.toNat - 0x10000) / 0x400).toUInt16,
      (0xdc00 + (c.toNat - 0x10000) % 0x400).toUInt16]

def utf16 (s : String) : Text := s.toList.flatMap charUnits

theorem char_range (c : Char) :
    c.toNat < 0xd800 ∨ 0xdfff < c.toNat ∧ c.toNat < 0x110000 := c.valid

theorem toNat_toUInt16 {n : Nat} (h : n < 0x10000) : n.toUInt16.toNat = n :=
  Nat.mod_eq_of_lt h

theorem isHighSurrogate_iff {u : UInt16} :
    isHighSurrogate u = true ↔ 0xd800 ≤ u.toNat ∧ u.toNat ≤ 0xdbff := by
  rw [isHighSurrogate, Bool.and_eq_true, decide_eq_true_eq, decide_eq_true_eq,
    UInt16.le_iff_toNat_le, UInt16.le_iff_toNat_le]
  rfl

theorem isLowSurrogate_iff {u : UInt16} :
    isLowSurrogate u = true ↔ 0xdc00 ≤ u.toNat ∧ u.toNat ≤ 0xdfff := by
  rw [isLowSurrogate, Bool.and_eq_true, decide_eq_true_eq, decide_eq_true_eq,
    UInt16.le_iff_toNat_le, UInt16.le_iff_toNat_le]
  rfl

/-- A scalar is one unit that is no surrogate, or a pair. -/
inductive ScalarUnits : Text → Prop
  | unit {u : UInt16} : isHighSurrogate u = false → isLowSurrogate u = false → ScalarUnits [u]
  | pair {u v : UInt16} : isHighSurrogate u = true → isLowSurrogate v = true → ScalarUnits [u, v]

theorem scalarUnits (c : Char) : ScalarUnits (charUnits c) := by
  have hrange := char_range c
  rw [charUnits]
  by_cases h : c.toNat < 0x10000
  · have hn := toNat_toUInt16 h
    rw [if_pos h]
    refine .unit ?_ ?_
    · rw [Bool.eq_false_iff, ne_eq, isHighSurrogate_iff, hn]
      omega
    · rw [Bool.eq_false_iff, ne_eq, isLowSurrogate_iff, hn]
      omega
  · rw [if_neg h]
    refine .pair ?_ ?_
    · rw [isHighSurrogate_iff, toNat_toUInt16 (by omega)]
      omega
    · rw [isLowSurrogate_iff, toNat_toUInt16 (by omega)]
      omega

theorem ScalarUnits.wellFormed {units : Text} (h : ScalarUnits units) : Codec.WellFormed units := by
  cases h with
  | unit hhigh hlow => exact .unit hhigh hlow .nil
  | pair hhigh hlow => exact .pair hhigh hlow .nil

theorem ScalarUnits.codePoints_append {units : Text} (h : ScalarUnits units) (t : Text) :
    codePoints (units ++ t) = units :: codePoints t := by
  cases h with
  | pair hhigh hlow =>
      show codePoints (_ :: _ :: t) = _
      rw [codePoints, if_pos (by rw [hhigh, hlow]; rfl)]
  | @unit u hhigh hlow =>
      cases t with
      | nil => rfl
      | cons v rest =>
          show codePoints (u :: v :: rest) = _
          rw [codePoints, if_neg (by rw [hhigh]; exact Bool.false_ne_true)]

theorem wellFormed_utf16 (s : String) : Codec.WellFormed (utf16 s) := by
  rw [utf16]
  induction s.toList with
  | nil => exact .nil
  | cons c cs ih => exact (scalarUnits c).wellFormed.append ih

theorem exists_charUnits {units : Text} (h : ScalarUnits units) : ∃ c, charUnits c = units := by
  cases h with
  | @unit u hhigh hlow =>
      rw [Bool.eq_false_iff, ne_eq, isHighSurrogate_iff] at hhigh
      rw [Bool.eq_false_iff, ne_eq, isLowSurrogate_iff] at hlow
      have hlt := u.toNat_lt
      have hvalid : u.toNat.isValidChar := by
        rw [Nat.isValidChar]
        omega
      refine ⟨Char.ofNatAux u.toNat hvalid, ?_⟩
      have hn : (Char.ofNatAux u.toNat hvalid).toNat = u.toNat := rfl
      rw [charUnits, hn, if_pos hlt]
      exact congrArg (fun w => [w]) (UInt16.toNat_inj.mp (toNat_toUInt16 hlt))
  | @pair u v hhigh hlow =>
      obtain ⟨hu, hu', hv, hv'⟩ := surrogates hhigh hlow
      have hvalid : (0x10000 + (u.toNat - 0xd800) * 0x400 + (v.toNat - 0xdc00)).isValidChar := by
        rw [Nat.isValidChar]
        omega
      refine ⟨Char.ofNatAux _ hvalid, ?_⟩
      have hn : (Char.ofNatAux _ hvalid).toNat
          = 0x10000 + (u.toNat - 0xd800) * 0x400 + (v.toNat - 0xdc00) := rfl
      rw [charUnits, hn, if_neg (by omega)]
      have hfirst : (0xd800 + (0x10000 + (u.toNat - 0xd800) * 0x400 + (v.toNat - 0xdc00) - 0x10000)
          / 0x400).toUInt16 = u :=
        UInt16.toNat_inj.mp (by rw [toNat_toUInt16] <;> omega)
      have hsecond : (0xdc00 + (0x10000 + (u.toNat - 0xd800) * 0x400 + (v.toNat - 0xdc00) - 0x10000)
          % 0x400).toUInt16 = v :=
        UInt16.toNat_inj.mp (by rw [toNat_toUInt16] <;> omega)
      rw [hfirst, hsecond]

theorem wellFormed_iff {t : Text} : Codec.WellFormed t ↔ ∃ s, utf16 s = t := by
  constructor
  · intro h
    have hlist : ∃ cs : List Char, cs.flatMap charUnits = t := by
      induction h with
      | nil => exact ⟨[], rfl⟩
      | unit hhigh hlow _ ih =>
          obtain ⟨cs, rfl⟩ := ih
          obtain ⟨c, hc⟩ := exists_charUnits (.unit hhigh hlow)
          exact ⟨c :: cs, by rw [List.flatMap_cons, hc]; rfl⟩
      | pair hhigh hlow _ ih =>
          obtain ⟨cs, rfl⟩ := ih
          obtain ⟨c, hc⟩ := exists_charUnits (.pair hhigh hlow)
          exact ⟨c :: cs, by rw [List.flatMap_cons, hc]; rfl⟩
    obtain ⟨cs, rfl⟩ := hlist
    exact ⟨String.ofList cs, by rw [utf16, String.toList_ofList]⟩
  · rintro ⟨s, rfl⟩
    exact wellFormed_utf16 s

theorem codePoints_utf16 (s : String) : codePoints (utf16 s) = s.toList.map charUnits := by
  rw [utf16]
  induction s.toList with
  | nil => rfl
  | cons c cs ih =>
      rw [List.flatMap_cons, (scalarUnits c).codePoints_append, ih, List.map_cons]

theorem pointBytes_charUnits (c : Char) :
    pointBytes (charUnits c) = (String.utf8EncodeChar c).map UInt8.toNat := by
  have hrange := char_range c
  have hbyte : ∀ n < 256, (UInt8.ofNat n).toNat = n := fun n hn => Nat.mod_eq_of_lt hn
  have hval : c.val.toNat = c.toNat := rfl
  have h₀ : 0x80 + c.toNat % 64 = c.toNat % 64 + 0x80 := Nat.add_comm ..
  have h₁ : 0x80 + c.toNat / 64 % 64 = c.toNat / 64 % 64 + 0x80 := Nat.add_comm ..
  rw [charUnits, String.utf8EncodeChar, hval]
  by_cases h : c.toNat < 0x10000
  · rw [if_pos h, pointBytes, basicBytes, toNat_toUInt16 h]
    by_cases h7f : c.toNat ≤ 0x7f
    · rw [if_pos h7f, if_pos (by omega : c.toNat < 0x80), List.map_cons, List.map_nil,
        hbyte c.toNat (by omega)]
    · rw [if_neg h7f, if_neg (by omega : ¬c.toNat < 0x80)]
      by_cases h7ff : c.toNat ≤ 0x7ff
      · have hfirst : 0xc0 + c.toNat / 64 = c.toNat / 64 % 32 + 0xc0 := by omega
        rw [if_pos h7ff, if_pos (by omega : c.toNat < 0x800), h₀, hfirst]
        simp only [List.map_cons, List.map_nil]
        rw [hbyte _ (by omega), hbyte _ (by omega)]
      · have hfirst : 0xe0 + c.toNat / 4096 = c.toNat / 4096 % 16 + 0xe0 := by omega
        rw [if_neg h7ff, if_neg (by omega : ¬c.toNat < 0x800), if_pos (by omega : c.toNat ≤ 0xffff),
          h₀, h₁, hfirst]
        simp only [List.map_cons, List.map_nil]
        rw [hbyte _ (by omega), hbyte _ (by omega), hbyte _ (by omega)]
  · have hpoint : 0x10000 + (0xd800 + (c.toNat - 0x10000) / 0x400 - 0xd800) * 0x400
        + (0xdc00 + (c.toNat - 0x10000) % 0x400 - 0xdc00) = c.toNat := by
      omega
    have hfirst : 0xf0 + c.toNat / 262144 = c.toNat / 262144 % 8 + 0xf0 := by omega
    have hsecond : 0x80 + c.toNat / 4096 % 64 = c.toNat / 4096 % 64 + 0x80 := Nat.add_comm ..
    rw [if_neg h, pointBytes, pairBytes, toNat_toUInt16 (by omega), toNat_toUInt16 (by omega), hpoint]
    rw [if_neg (by omega : ¬c.toNat ≤ 0x7f), if_neg (by omega : ¬c.toNat ≤ 0x7ff),
      if_neg (by omega : ¬c.toNat ≤ 0xffff), h₀, h₁, hfirst, hsecond]
    simp only [List.map_cons, List.map_nil]
    rw [hbyte _ (by omega), hbyte _ (by omega), hbyte _ (by omega), hbyte _ (by omega)]

theorem utf8Bytes_utf16 (s : String) :
    utf8Bytes (utf16 s) = numbers s.toByteArray.data.toList := by
  have hbytes : s.toByteArray.data.toList = s.toList.flatMap String.utf8EncodeChar := by
    rw [← String.utf8Encode_toList, List.utf8Encode, List.toList_data_toByteArray]
  rw [utf8Bytes_eq, codePoints_utf16, List.flatMap_map, hbytes, numbers, List.map_flatMap,
    List.map_flatMap]
  refine List.flatMap_congr fun c _ => ?_
  rw [pointBytes_charUnits, List.map_map]
  rfl

/-- `sha256Bytes` is the digest of the standard, whose length field holds the
low 64 bits of the length of the message. `utf8Bytes` tells strings apart, is
UTF-8 on those without lone surrogates, and encodes any other string by code
point, a lone surrogate in three bytes. -/
theorem sha256_standard :
    (∀ input : List UInt8, ∃ digest : List UInt8, sha256Bytes (numbers input) = numbers digest
      ∧ byteBits digest = Fips180.digest (byteBits input))
    ∧ Function.Injective utf8Bytes
    ∧ (∀ t, Codec.WellFormed t → ∃ s : String, utf16 s = t
      ∧ utf8Bytes t = numbers s.toByteArray.data.toList)
    ∧ (∀ s : String, Codec.WellFormed (utf16 s)
      ∧ utf8Bytes (utf16 s) = numbers s.toByteArray.data.toList)
    ∧ (∀ t, utf8Bytes t = (codePoints t).flatMap utf8Bytes)
    ∧ ∀ u, (isHighSurrogate u || isLowSurrogate u) = true →
      utf8Bytes [u] = [0xe0 + u.toNat / 4096, 0x80 + u.toNat / 64 % 64, 0x80 + u.toNat % 64] := by
  refine ⟨sha256Bytes_digest, utf8Bytes_injective, ?_, ?_, utf8Bytes_points, ?_⟩
  · intro t ht
    obtain ⟨s, rfl⟩ := wellFormed_iff.mp ht
    exact ⟨s, rfl, utf8Bytes_utf16 s⟩
  · intro s
    exact ⟨wellFormed_utf16 s, utf8Bytes_utf16 s⟩
  · intro u h
    exact utf8Bytes_lone h

/-- A high surrogate before a letter. -/
theorem sha256_standard_lone : utf8Bytes [0xd83d, 0x61] = [0xed, 0xa0, 0xbd, 0x61] :=
  (sha256_standard.2.2.2.2.1 [0xd83d, 0x61]).trans
    (congrArg (· ++ [0x61]) (sha256_standard.2.2.2.2.2 0xd83d (by decide)))

end Asimposium.Sha256
