import Asimposium.Lib.Radix
import Asimposium.Render.Text

/-!
# Binary data as text

The base64url of secrets and sealed replies and the base-32 identifiers shift
bytes through a buffer of 32 bits that is never emptied. The buffer is the
number read so far up to what ran over, and each digit is taken from bits that
did not: what is emitted are the digits of one number.
-/

namespace Asimposium.Enrollment

open Radix (digits value bytesValue)

/-! ## The code -/

/-- `BASE64URL`. -/
def base64Url : Text := text "ABCDEFGHIJKLMNOPQRSTUVWXYZabcdefghijklmnopqrstuvwxyz0123456789-_"

/-- `CROCKFORD32`. -/
def crockford32 : Text := text "0123456789ABCDEFGHJKMNPQRSTVWXYZ"

structure Encoder where
  output : Text
  buffer : BitVec 32
  bits : Nat

def Encoder.start : Encoder := ⟨[], 0, 0⟩

/-- `(buffer >> shift) & mask`, with a mask of some width. -/
def group (width : Nat) (buffer : BitVec 32) (shift : Nat) : Nat :=
  (buffer.sshiftRight shift &&& BitVec.ofNat 32 (2 ^ width - 1)).toNat

/-- The inner loop: groups of a width, while there are enough bits and room. -/
def drain (width : Nat) (alphabet : Text) (buffer : BitVec 32) : Nat → Nat → Text × Nat
  | 0, bits => ([], bits)
  | room + 1, bits =>
      if width ≤ bits then
        let rest := drain width alphabet buffer room (bits - width)
        (alphabet.getD (group width buffer (bits - width)) 0 :: rest.1, rest.2)
      else ([], bits)

def Encoder.push (width : Nat) (alphabet : Text) (room : Nat) (encoder : Encoder) (byte : UInt8) :
    Encoder :=
  let buffer := encoder.buffer <<< 8 ||| BitVec.ofNat 32 byte.toNat
  let drained := drain width alphabet buffer room (encoder.bits + 8)
  ⟨encoder.output ++ drained.1, buffer, drained.2⟩

def Encoder.last (width : Nat) (alphabet : Text) (encoder : Encoder) : UInt16 :=
  alphabet.getD
    (encoder.buffer <<< (width - encoder.bits) &&& BitVec.ofNat 32 (2 ^ width - 1)).toNat 0

def bytesToBase64Url (bytes : List UInt8) : Text :=
  let encoder := bytes.foldl (fun encoder byte =>
    Encoder.push 6 base64Url (encoder.bits + 8) encoder byte) Encoder.start
  if 0 < encoder.bits then encoder.output ++ [encoder.last 6 base64Url] else encoder.output

/-- `bytesToCrockford`; `padEnd` fills up with zeros. -/
def bytesToCrockford (bytes : List UInt8) (length : Nat) : Text :=
  let encoder := bytes.foldl (fun encoder byte =>
    Encoder.push 5 crockford32 (length - encoder.output.length) encoder byte) Encoder.start
  let output :=
    if 0 < encoder.bits ∧ encoder.output.length < length then
      encoder.output ++ [encoder.last 5 crockford32]
    else encoder.output
  output ++ List.replicate (length - output.length) (unit '0')

structure Decoder where
  output : List UInt8
  buffer : BitVec 32
  bits : Nat

def Decoder.start : Decoder := ⟨[], 0, 0⟩

def Decoder.push (decoder : Decoder) (index : Nat) : Decoder :=
  let buffer := decoder.buffer <<< 6 ||| BitVec.ofNat 32 index
  let bits := decoder.bits + 6
  if 8 ≤ bits then
    ⟨decoder.output ++ [UInt8.ofNat (group 8 buffer (bits - 8))], buffer, bits - 8⟩
  else ⟨decoder.output, buffer, bits⟩

/-- `BASE64URL.indexOf(character)`, of a code point. -/
def base64UrlIndex : Text → Option Nat
  | [u] => base64Url.idxOf? u
  | _ => none

def Decoder.pushAll : Decoder → List Text → Except String Decoder
  | decoder, [] => .ok decoder
  | decoder, character :: rest =>
      match base64UrlIndex character with
      | none => .error "invalid base64url replay encoding"
      | some index => (decoder.push index).pushAll rest

def base64UrlToBytes (value : Text) : Except String (List UInt8) :=
  (Decoder.start.pushAll value.codePoints).map (·.output)

/-- The loop of `generateUlid`. -/
def ulidTime : Nat → Nat → Text → Text
  | 0, _, time => time
  | index + 1, timestamp, time =>
      ulidTime index (timestamp / 32) (crockford32.getD (timestamp % 32) 0 :: time)

/-- `generateUlid`, on what the clock and the random source return. -/
def generateUlid (now : Int) (random : List UInt8) : Except String Text :=
  if now < 0 ∨ 9007199254740991 < now then .error "clock returned invalid time"
  else if random.length ≠ 10 then .error "secure random source returned incorrect length"
  else .ok (ulidTime 10 now.toNat [] ++ bytesToCrockford random 16)

/-! ## Groups of bits -/

variable {width n : Nat}

theorem group_eq {shift : Nat} {buffer : BitVec 32} (hbuffer : buffer.toNat = n % 2 ^ 32)
    (h : shift + width ≤ 32) : group width buffer shift = n / 2 ^ shift % 2 ^ width := by
  refine Nat.eq_of_testBit_eq fun i => ?_
  rw [group, BitVec.testBit_toNat, BitVec.getLsbD_and, BitVec.getLsbD_sshiftRight,
    BitVec.getLsbD_ofNat, Nat.testBit_two_pow_sub_one, Nat.testBit_mod_two_pow,
    Nat.testBit_div_two_pow]
  by_cases hi : i < width
  · have hin : i < 32 := by omega
    have hshift : shift + i < 32 := by omega
    have hbit : buffer.getLsbD (shift + i) = n.testBit (i + shift) := by
      rw [← BitVec.testBit_toNat, hbuffer, Nat.testBit_mod_two_pow, Nat.add_comm]
      simp only [Nat.add_comm i shift, hshift, decide_true, Bool.true_and]
    simp only [hi, hin, hshift, if_true, hbit, decide_true, Nat.not_le.mpr hin, decide_false,
      Bool.not_false, Bool.true_and, Bool.and_true]
  · simp only [hi, decide_false, Bool.and_false, Bool.false_and]

theorem buffer_push {low : Nat} {buffer : BitVec 32} (hbuffer : buffer.toNat = n % 2 ^ 32)
    (hwidth : width ≤ 32) (hlow : low < 2 ^ width) :
    (buffer <<< width ||| BitVec.ofNat 32 low).toNat = (n * 2 ^ width + low) % 2 ^ 32 := by
  have hsum : n * 2 ^ width + low = n <<< width ||| low := by
    rw [Nat.shiftLeft_eq, Nat.mul_comm, Nat.two_pow_add_eq_or_of_lt hlow]
  rw [hsum, BitVec.toNat_or, BitVec.toNat_shiftLeft, BitVec.toNat_ofNat, hbuffer]
  refine Nat.eq_of_testBit_eq fun i => ?_
  simp only [Nat.testBit_or, Nat.testBit_mod_two_pow, Nat.testBit_shiftLeft]
  by_cases hi : i < 32
  · have hback : i - width < 32 := by omega
    simp only [hi, hback, decide_true, Bool.true_and]
  · simp only [hi, decide_false, Bool.false_and, Bool.or_false]

/-! ## Encoding -/

def spell (alphabet : Text) (ds : List Nat) : Text := ds.map fun d => alphabet.getD d 0

theorem drain_eq (alphabet : Text) {bits room : Nat} {buffer : BitVec 32} (hwidth : 0 < width)
    (hbuffer : buffer.toNat = n % 2 ^ 32) (hbits : bits ≤ 32) (hroom : bits / width ≤ room)
    (k : Nat) :
    spell alphabet (digits (2 ^ width) k (n / 2 ^ bits)) ++ (drain width alphabet buffer room bits).1
        = spell alphabet (digits (2 ^ width) (k + bits / width) (n / 2 ^ (bits % width)))
      ∧ (drain width alphabet buffer room bits).2 = bits % width := by
  induction room generalizing bits k with
  | zero =>
      have hlt : bits < width := by
        by_contra hle
        have hone := Nat.div_pos (Nat.not_lt.mp hle) hwidth
        omega
      rw [drain, Nat.div_eq_of_lt hlt, Nat.mod_eq_of_lt hlt, List.append_nil, Nat.add_zero]
      exact ⟨rfl, rfl⟩
  | succ room ih =>
      rw [drain]
      by_cases hle : width ≤ bits
      · have hdiv : bits / width = (bits - width) / width + 1 := Nat.div_eq_sub_div hwidth hle
        have hmod : bits % width = (bits - width) % width := Nat.mod_eq_sub_mod hle
        have hpow : n / 2 ^ (bits - width) / 2 ^ width = n / 2 ^ bits := by
          rw [Nat.div_div_eq_div_mul, ← pow_add, Nat.sub_add_cancel hle]
        obtain ⟨hemitted, hleft⟩ := ih (show bits - width ≤ 32 by omega)
          (show (bits - width) / width ≤ room by omega) (k + 1)
        rw [if_pos hle, hdiv, hmod]
        refine ⟨?_, hleft⟩
        rw [group_eq hbuffer (by omega), ← Nat.add_assoc, Nat.add_right_comm, ← hemitted, digits,
          hpow, spell, spell, List.map_append, List.append_assoc]
        rfl
      · have hlt : bits < width := Nat.not_le.mp hle
        rw [if_neg hle, Nat.div_eq_of_lt hlt, Nat.mod_eq_of_lt hlt, List.append_nil, Nat.add_zero]
        exact ⟨rfl, rfl⟩

/-- An encoder that has read some bytes, as one number: it has emitted the
digits above the bits that it holds. -/
structure Encodes (width : Nat) (alphabet : Text) (bytes : List UInt8) (encoder : Encoder) :
    Prop where
  buffer : encoder.buffer.toNat = bytesValue bytes % 2 ^ 32
  bits : encoder.bits < width
  output : ∃ k, width * k + encoder.bits = 8 * bytes.length
    ∧ encoder.output = spell alphabet (digits (2 ^ width) k (bytesValue bytes / 2 ^ encoder.bits))

theorem Encodes.start (hwidth : 0 < width) (alphabet : Text) : Encodes width alphabet [] .start :=
  ⟨rfl, hwidth, 0, rfl, rfl⟩

theorem Encodes.push {alphabet : Text} {bytes : List UInt8} {encoder : Encoder}
    (h : Encodes width alphabet bytes encoder) (hwidth : width ≤ 24) {room : Nat}
    (hroom : (encoder.bits + 8) / width ≤ room) (byte : UInt8) :
    Encodes width alphabet (bytes ++ [byte]) (encoder.push width alphabet room byte) := by
  have hpos : 0 < width := Nat.lt_of_le_of_lt (Nat.zero_le _) h.bits
  have hbits := h.bits
  have hbuffer := buffer_push h.buffer (show 8 ≤ 32 by decide) byte.toNat_lt
  obtain ⟨k, hk, houtput⟩ := h.output
  have hvalue : bytesValue (bytes ++ [byte]) = bytesValue bytes * 2 ^ 8 + byte.toNat :=
    Radix.bytesValue_snoc bytes byte
  have hshift : bytesValue (bytes ++ [byte]) / 2 ^ (encoder.bits + 8)
      = bytesValue bytes / 2 ^ encoder.bits := by
    have hbyte := byte.toNat_lt
    have hlow : (bytesValue bytes * 2 ^ 8 + byte.toNat) / 2 ^ 8 = bytesValue bytes := by omega
    rw [hvalue, Nat.add_comm encoder.bits, pow_add, ← Nat.div_div_eq_div_mul, hlow]
  rw [← hvalue] at hbuffer
  obtain ⟨hemitted, hleft⟩ := drain_eq alphabet hpos hbuffer
    (show encoder.bits + 8 ≤ 32 by omega) hroom k
  refine ⟨hbuffer, ?_, k + (encoder.bits + 8) / width, ?_, ?_⟩
  · rw [Encoder.push, hleft]
    exact Nat.mod_lt _ hpos
  · have hdivmod := Nat.div_add_mod (encoder.bits + 8) width
    rw [Encoder.push, hleft, Nat.mul_add, List.length_append, List.length_singleton]
    simp only
    omega
  · rw [Encoder.push, hleft]
    simp only
    rw [← hemitted, hshift, houtput]

theorem encodes_base64 (bytes : List UInt8) :
    Encodes 6 base64Url bytes (bytes.foldl (fun encoder byte =>
      Encoder.push 6 base64Url (encoder.bits + 8) encoder byte) Encoder.start) := by
  induction bytes using List.reverseRecOn with
  | nil => exact .start (by decide) _
  | append_singleton bytes byte ih =>
      rw [List.foldl_append]
      exact ih.push (by decide) (Nat.div_le_self _ _) byte

theorem encodes_crockford {length : Nat} {bytes : List UInt8}
    (hlength : 8 * bytes.length ≤ 5 * length) :
    Encodes 5 crockford32 bytes (bytes.foldl (fun encoder byte =>
      Encoder.push 5 crockford32 (length - encoder.output.length) encoder byte) Encoder.start) := by
  induction bytes using List.reverseRecOn with
  | nil => exact .start (by decide) _
  | append_singleton bytes byte ih =>
      rw [List.length_append, List.length_singleton] at hlength
      have hbytes := ih (by omega)
      rw [List.foldl_append]
      refine hbytes.push (by decide) ?_ byte
      obtain ⟨k, hk, houtput⟩ := hbytes.output
      have hk' := congrArg List.length houtput
      rw [spell, List.length_map, Radix.length_digits] at hk'
      omega

theorem Encodes.last {width : Nat} {alphabet : Text} {bytes : List UInt8} {encoder : Encoder}
    (h : Encodes width alphabet bytes encoder) (hwidth : width ≤ 32) :
    encoder.last width alphabet = alphabet.getD
      (bytesValue bytes * 2 ^ (width - encoder.bits) % 2 ^ width) 0 := by
  have hzero : 0 < 2 ^ (width - encoder.bits) := Nat.pow_pos (by decide)
  have hbuffer := buffer_push h.buffer (show width - encoder.bits ≤ 32 by omega) hzero
  rw [BitVec.or_zero, Nat.add_zero] at hbuffer
  have hgroup := group_eq hbuffer (show 0 + width ≤ 32 by omega)
  rw [group, BitVec.sshiftRight_zero, pow_zero, Nat.div_one] at hgroup
  rw [Encoder.last, hgroup]

theorem bytesToBase64Url_eq (bytes : List UInt8) :
    ∃ width fill, 6 * width = 8 * bytes.length + fill ∧ fill < 6
      ∧ bytesToBase64Url bytes = spell base64Url (digits 64 width (bytesValue bytes * 2 ^ fill)) := by
  have h := encodes_base64 bytes
  rw [bytesToBase64Url]
  generalize bytes.foldl (fun encoder byte =>
    Encoder.push 6 base64Url (encoder.bits + 8) encoder byte) Encoder.start = encoder at h ⊢
  have hbits := h.bits
  obtain ⟨k, hk, houtput⟩ := h.output
  by_cases hleft : 0 < encoder.bits
  · refine ⟨k + 1, 6 - encoder.bits, by omega, by omega, ?_⟩
    have hdiv : bytesValue bytes * 2 ^ (6 - encoder.bits) / 64 = bytesValue bytes / 2 ^ encoder.bits := by
      have hsplit : (64 : Nat) = 2 ^ (6 - encoder.bits) * 2 ^ encoder.bits := by
        rw [← pow_add, Nat.sub_add_cancel hbits.le]
        rfl
      rw [hsplit, ← Nat.div_div_eq_div_mul, Nat.mul_div_cancel _ (Nat.pow_pos (by decide))]
    simp only [if_pos hleft]
    rw [h.last (by decide), houtput, digits, hdiv, spell, spell, List.map_append]
    rfl
  · have hzero : encoder.bits = 0 := Nat.eq_zero_of_not_pos hleft
    refine ⟨k, 0, by omega, by decide, ?_⟩
    simp only [if_neg hleft]
    rw [houtput, hzero, pow_zero, Nat.div_one, Nat.mul_one]
    rfl

theorem bytesToCrockford_eq {length : Nat} {bytes : List UInt8}
    (hlength : 8 * bytes.length = 5 * length) :
    bytesToCrockford bytes length = spell crockford32 (digits 32 length (bytesValue bytes)) := by
  have h := encodes_crockford (Nat.le_of_eq hlength)
  rw [bytesToCrockford]
  generalize bytes.foldl (fun encoder byte => Encoder.push 5 crockford32
    (length - encoder.output.length) encoder byte) Encoder.start = encoder at h ⊢
  have hbits := h.bits
  obtain ⟨k, hk, houtput⟩ := h.output
  have hzero : encoder.bits = 0 := by omega
  have hkeq : k = length := by omega
  rw [hzero, pow_zero, Nat.div_one, hkeq] at houtput
  have hfull : encoder.output.length = length := by
    rw [houtput, spell, List.length_map, Radix.length_digits]
  have hnone : ¬ (0 < encoder.bits ∧ encoder.output.length < length) := by omega
  simp only [if_neg hnone]
  rw [hfull, Nat.sub_self, List.replicate_zero, List.append_nil, houtput]
  rfl

/-! ## Decoding -/

structure Decodes (ds : List Nat) (decoder : Decoder) : Prop where
  buffer : decoder.buffer.toNat = value 64 ds % 2 ^ 32
  bits : decoder.bits < 8
  output : ∃ k, 8 * k + decoder.bits = 6 * ds.length
    ∧ decoder.output.map UInt8.toNat = digits 256 k (value 64 ds / 2 ^ decoder.bits)

variable {d : Nat}

theorem Decodes.push {ds : List Nat} {decoder : Decoder} (h : Decodes ds decoder) (hd : d < 64) :
    Decodes (ds ++ [d]) (decoder.push d) := by
  have hbits := h.bits
  have hbuffer := buffer_push h.buffer (show 6 ≤ 32 by decide) hd
  obtain ⟨k, hk, houtput⟩ := h.output
  have hvalue : value 64 (ds ++ [d]) = value 64 ds * 2 ^ 6 + d := Radix.value_snoc ds d
  rw [← hvalue] at hbuffer
  have hshift : value 64 (ds ++ [d]) / 2 ^ (decoder.bits + 6) = value 64 ds / 2 ^ decoder.bits := by
    have hlow : (value 64 ds * 2 ^ 6 + d) / 2 ^ 6 = value 64 ds := by omega
    rw [hvalue, Nat.add_comm decoder.bits, pow_add, ← Nat.div_div_eq_div_mul, hlow]
  rw [Decoder.push]
  by_cases hle : 8 ≤ decoder.bits + 6
  · rw [if_pos hle]
    refine ⟨hbuffer, by simp only; omega, k + 1, ?_, ?_⟩
    · rw [List.length_append, List.length_singleton]
      simp only
      omega
    · have hgroup := group_eq hbuffer (show decoder.bits + 6 - 8 + 8 ≤ 32 by omega)
      have hdiv : value 64 (ds ++ [d]) / 2 ^ (decoder.bits + 6 - 8) / 256
          = value 64 ds / 2 ^ decoder.bits := by
        have hsplit : (256 : Nat) = 2 ^ 8 := rfl
        rw [hsplit, Nat.div_div_eq_div_mul, ← pow_add, Nat.sub_add_cancel hle, hshift]
      have hbyte : (UInt8.ofNat (group 8 (decoder.buffer <<< 6 ||| BitVec.ofNat 32 d)
          (decoder.bits + 6 - 8))).toNat
          = value 64 (ds ++ [d]) / 2 ^ (decoder.bits + 6 - 8) % 256 := by
        rw [hgroup]
        exact Nat.mod_mod _ _
      rw [List.map_append, List.map_singleton, hbyte, houtput, digits, hdiv]
  · rw [if_neg hle]
    refine ⟨hbuffer, by simp only; omega, k, ?_, ?_⟩
    · rw [List.length_append, List.length_singleton]
      simp only
      omega
    · simp only
      rw [houtput, hshift]

set_option maxRecDepth 4096 in
theorem base64Url_letter (hd : d < 64) :
    base64UrlIndex [base64Url.getD d 0] = some d ∧ base64Url.getD d 0 ∈ base64Url
      ∧ Text.isHighSurrogate (base64Url.getD d 0) = false := by
  have hall : ∀ d < 64, base64UrlIndex [base64Url.getD d 0] = some d
      ∧ base64Url.getD d 0 ∈ base64Url ∧ Text.isHighSurrogate (base64Url.getD d 0) = false := by
    decide
  exact hall d hd

theorem codePoints_spell {ds : List Nat} (h : ∀ d ∈ ds, d < 64) :
    (spell base64Url ds).codePoints = ds.map fun d => [base64Url.getD d 0] := by
  induction ds with
  | nil => rfl
  | cons d ds ih =>
      rw [List.forall_mem_cons] at h
      have hrest := ih h.2
      have hhigh := (base64Url_letter h.1).2.2
      cases ds with
      | nil => rfl
      | cons e ds =>
          show Text.codePoints (base64Url.getD d 0 :: base64Url.getD e 0 :: spell base64Url ds) = _
          rw [Text.codePoints, hhigh, Bool.false_and, if_neg Bool.false_ne_true]
          exact congrArg _ hrest

theorem decodes_spell {before ds : List Nat} {decoder : Decoder} (h : Decodes before decoder)
    (hds : ∀ d ∈ ds, d < 64) :
    ∃ last, decoder.pushAll (ds.map fun d => [base64Url.getD d 0]) = .ok last
      ∧ Decodes (before ++ ds) last := by
  induction ds generalizing before decoder with
  | nil => exact ⟨decoder, rfl, by rwa [List.append_nil]⟩
  | cons d ds ih =>
      rw [List.forall_mem_cons] at hds
      obtain ⟨last, hlast, hdecodes⟩ := ih (h.push hds.1) hds.2
      refine ⟨last, ?_, ?_⟩
      · rw [List.map_cons, Decoder.pushAll, (base64Url_letter hds.1).1]
        exact hlast
      · rwa [List.append_assoc, List.singleton_append] at hdecodes

theorem base64UrlToBytes_bytesToBase64Url (bytes : List UInt8) :
    base64UrlToBytes (bytesToBase64Url bytes) = .ok bytes := by
  obtain ⟨width, fill, hwidth, hfill, heq⟩ := bytesToBase64Url_eq bytes
  have hdigits : ∀ d ∈ digits 64 width (bytesValue bytes * 2 ^ fill), d < 64 := fun d hd =>
    Radix.digits_lt (by decide) hd
  have hstart : Decodes [] .start := ⟨rfl, by decide, 0, rfl, rfl⟩
  obtain ⟨last, hlast, hdecodes⟩ := decodes_spell hstart hdigits
  obtain ⟨k, hk, houtput⟩ := hdecodes.output
  have hbits := hdecodes.bits
  rw [List.nil_append, Radix.length_digits] at hk
  -- The bits that are left are those that were filled up.
  have hkeq : k = bytes.length := by omega
  have hleft : last.bits = fill := by omega
  have hlt : bytesValue bytes * 2 ^ fill < 64 ^ width := by
    have hbytes := Radix.bytesValue_lt bytes
    have hpow : 64 ^ width = 256 ^ bytes.length * 2 ^ fill := by
      rw [show (64 : Nat) = 2 ^ 6 from rfl, show (256 : Nat) = 2 ^ 8 from rfl, ← pow_mul, ← pow_mul,
        ← pow_add, hwidth]
    rw [hpow]
    exact Nat.mul_lt_mul_of_pos_right hbytes (Nat.pow_pos (by decide))
  have hbytes : last.output = bytes := by
    refine List.map_injective_iff.mpr (fun _ _ => UInt8.toNat_inj.mp) ?_
    rw [houtput, List.nil_append, Radix.value_digits, Nat.mod_eq_of_lt hlt, hleft,
      Nat.mul_div_cancel _ (Nat.pow_pos (by decide)), hkeq, Radix.digits_bytesValue]
  rw [base64UrlToBytes, heq, codePoints_spell hdigits, hlast]
  exact congrArg Except.ok hbytes

/-! ## Identifiers -/

theorem ulidTime_eq (index timestamp : Nat) (time : Text) :
    ulidTime index timestamp time = spell crockford32 (digits 32 index timestamp) ++ time := by
  induction index generalizing timestamp time with
  | zero => rfl
  | succ index ih =>
      rw [ulidTime, ih, digits, spell, spell, List.map_append, List.append_assoc]
      rfl

variable {now : Nat} {random : List UInt8}

theorem generateUlid_eq (hnow : now < 2 ^ 48) (hrandom : random.length = 10) :
    generateUlid now random
      = .ok (spell crockford32 (digits 32 26 (now * 2 ^ 80 + bytesValue random))) := by
  have hclock : ¬ ((now : Int) < 0 ∨ 9007199254740991 < (now : Int)) := by omega
  have hbytes := Radix.bytesValue_lt random
  rw [hrandom] at hbytes
  have hhigh : (now * 2 ^ 80 + bytesValue random) / 32 ^ 16 = now := by omega
  have hlow : (now * 2 ^ 80 + bytesValue random) % 32 ^ 16 = bytesValue random := by omega
  rw [generateUlid, if_neg hclock, if_neg (not_not.mpr hrandom), Int.toNat_natCast, ulidTime_eq,
    List.append_nil, bytesToCrockford_eq (by rw [hrandom]), Radix.digits_add 10 16, hhigh,
    ← Radix.digits_mod 16 (now * 2 ^ 80 + _), hlow, spell, spell, spell, List.map_append]

theorem crockford32_lt_iff {e : Nat} (hd : d < 32) (he : e < 32) :
    crockford32.getD d 0 < crockford32.getD e 0 ↔ d < e := by
  have hall : ∀ d < 32, ∀ e < 32, crockford32.getD d 0 < crockford32.getD e 0 ↔ d < e := by decide
  exact hall d hd e he

theorem crockford32_inj {e : Nat} (hd : d < 32) (he : e < 32) :
    crockford32.getD d 0 = crockford32.getD e 0 ↔ d = e := by
  have hall : ∀ d < 32, ∀ e < 32, crockford32.getD d 0 = crockford32.getD e 0 ↔ d = e := by decide
  exact hall d hd e he

theorem spell_lt_iff {m : Nat} (hm : m < 32 ^ width) (hn : n < 32 ^ width) :
    spell crockford32 (digits 32 width m) < spell crockford32 (digits 32 width n) ↔ m < n := by
  have hdigit : ∀ {n : Nat}, ∀ d ∈ digits 32 width n, d < 32 := fun d hd =>
    Radix.digits_lt (by decide) hd
  rw [spell, spell, Radix.map_lt_map_iff crockford32_lt_iff crockford32_inj hdigit hdigit,
    Radix.digits_lt_iff hm hn]

theorem spell_inj {m : Nat} (hm : m < 32 ^ width) (hn : n < 32 ^ width)
    (h : spell crockford32 (digits 32 width m) = spell crockford32 (digits 32 width n)) :
    m = n := by
  have hdigit : ∀ {n : Nat}, ∀ d ∈ digits 32 width n, d < 32 := fun d hd =>
    Radix.digits_lt (by decide) hd
  exact Radix.digits_injective hm hn (Radix.map_injective
    (fun hd he h => (crockford32_inj hd he).mp h) hdigit hdigit h)

theorem spelled_ordered {m : Nat} {now' : Nat} {random' : List UInt8} (hm : m < 32 ^ width)
    (hn : n < 32 ^ width) (hsame : m = n → now = now' ∧ random = random')
    (hless : now < now' → m < n) :
    (spell crockford32 (digits 32 width m) = spell crockford32 (digits 32 width n) →
        now = now' ∧ random = random')
      ∧ (now < now' →
        spell crockford32 (digits 32 width m) < spell crockford32 (digits 32 width n)) := by
  refine ⟨fun heq => hsame (spell_inj hm hn heq), fun hearlier => ?_⟩
  rw [spell_lt_iff hm hn]
  exact hless hearlier

theorem generateUlid_spelled (hnow : now < 2 ^ 48) (hrandom : random.length = 10) :
    ∃ number, generateUlid now random = .ok (spell crockford32 (digits 32 26 number))
      ∧ number < 32 ^ 26 ∧ number = now * 2 ^ 80 + bytesValue random := by
  have hbytes := Radix.bytesValue_lt random
  rw [hrandom] at hbytes
  exact ⟨_, generateUlid_eq hnow hrandom, by omega, rfl⟩

theorem generateUlid_ordered {now' : Nat} {random' : List UInt8} (hnow : now < 2 ^ 48)
    (hnow' : now' < 2 ^ 48) (hrandom : random.length = 10) (hrandom' : random'.length = 10) :
    ∃ id id', generateUlid now random = .ok id ∧ generateUlid now' random' = .ok id'
      ∧ (id = id' → now = now' ∧ random = random') ∧ (now < now' → id < id') := by
  obtain ⟨m, hid, hm, hmeq⟩ := generateUlid_spelled hnow hrandom
  obtain ⟨n, hid', hn, hneq⟩ := generateUlid_spelled hnow' hrandom'
  have hbytes := Radix.bytesValue_lt random
  have hbytes' := Radix.bytesValue_lt random'
  rw [hrandom] at hbytes
  rw [hrandom'] at hbytes'
  refine ⟨_, _, hid, hid', spelled_ordered hm hn ?_ ?_⟩
  · intro h
    clear hm hn hid hid'
    have hvalues : bytesValue random = bytesValue random' := by omega
    exact ⟨by omega, Radix.bytesValue_injective (by rw [hrandom, hrandom']) hvalues⟩
  · intro hearlier
    clear hm hn hid hid'
    omega

/-- Bytes are read back from their base64url text, which has the length of an
unpadded one, holds letters of the alphabet only and is no other's. Identifiers
are in the order of their times, and tell times and bytes apart. -/
theorem codecs_lossless :
    (∀ bytes, base64UrlToBytes (bytesToBase64Url bytes) = .ok bytes
      ∧ (bytesToBase64Url bytes).length = (8 * bytes.length + 5) / 6
      ∧ ∀ u ∈ bytesToBase64Url bytes, u ∈ base64Url)
    ∧ Function.Injective bytesToBase64Url
    ∧ ∀ now now' : Nat, now < 2 ^ 48 → now' < 2 ^ 48 → ∀ random random' : List UInt8,
      random.length = 10 → random'.length = 10 → ∃ id id', generateUlid now random = .ok id
        ∧ generateUlid now' random' = .ok id' ∧ (id = id' → now = now' ∧ random = random')
        ∧ (now < now' → id < id') := by
  refine ⟨fun bytes => ⟨base64UrlToBytes_bytesToBase64Url bytes, ?_, ?_⟩, ?_, ?_⟩
  · obtain ⟨width, fill, hwidth, hfill, heq⟩ := bytesToBase64Url_eq bytes
    rw [heq, spell, List.length_map, Radix.length_digits]
    omega
  · obtain ⟨width, fill, -, -, heq⟩ := bytesToBase64Url_eq bytes
    intro u hu
    rw [heq, spell] at hu
    obtain ⟨d, hd, rfl⟩ := List.mem_map.mp hu
    exact (base64Url_letter (Radix.digits_lt (by decide) hd)).2.1
  · intro bytes bytes' h
    have hdecoded := base64UrlToBytes_bytesToBase64Url bytes
    rw [show bytesToBase64Url bytes = bytesToBase64Url bytes' from h,
      base64UrlToBytes_bytesToBase64Url] at hdecoded
    exact (Except.ok.inj hdecoded).symm
  · intro now now' hnow hnow' random random' hrandom hrandom'
    exact generateUlid_ordered hnow hnow' hrandom hrandom'

end Asimposium.Enrollment
