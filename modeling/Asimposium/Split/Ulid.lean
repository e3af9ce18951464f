import Asimposium.Lib.Radix
import Asimposium.Render.Text

/-!
# Monotonic identifiers

A timestamp and ten random bytes, kept between calls: within a millisecond, or
while the clock stands behind the last reading, the bytes count up. A counter
that runs over is left at zero by the call that throws, so that the next call
of that millisecond starts again below the identifiers it has issued.
-/

namespace Asimposium.Split

open Radix (digits bytesValue)

/-! ## The code -/

/-- `CROCKFORD_BASE32[digit]`. -/
def crockford (digit : Nat) : UInt16 := (text "0123456789ABCDEFGHJKMNPQRSTVWXYZ").getD digit 0

/-- The loop of `encodeBase32`. -/
def encodeBase32From : Nat → Nat → Text → Text
  | 0, _, encoded => encoded
  | index + 1, remaining, encoded =>
      encodeBase32From index (remaining >>> 5) (crockford (remaining &&& 31) :: encoded)

def encodeBase32 (value length : Nat) : Text := encodeBase32From length value []

/-- The loop of `incrementUlidRandomness`, from the last byte on; whether
there was no byte to count up. -/
def incrementFrom : List UInt8 → List UInt8 × Bool
  | [] => ([], true)
  | byte :: rest =>
      if byte < 255 then ((byte + 1) :: rest, false)
      else ((0 :: (incrementFrom rest).1), (incrementFrom rest).2)

def incrementUlidRandomness (randomness : List UInt8) : List UInt8 × Bool :=
  ((incrementFrom randomness.reverse).1.reverse, (incrementFrom randomness.reverse).2)

/-- `lastUlidTimestamp` and `lastUlidRandomness`. -/
structure UlidState where
  timestamp : Int
  randomness : List UInt8

def UlidState.initial : UlidState := ⟨-1, List.replicate 10 0⟩

/-- What a call reads: the clock, and the bytes it gets if it asks for some. -/
structure UlidCall where
  clock : Nat
  fill : Vector UInt8 10

/-- `BigInt` of the bytes. -/
def randomValue (randomness : List UInt8) : Nat :=
  randomness.foldl (fun n byte => n <<< 8 ||| byte.toNat) 0

/-- `nextMonotonicUlid`: the state it leaves, and what it returns unless it
throws. -/
def nextMonotonicUlid (σ : UlidState) (call : UlidCall) : UlidState × Option Text :=
  let now := max (call.clock : Int) σ.timestamp
  let encoded (randomness : List UInt8) : Text :=
    encodeBase32 now.toNat 10 ++ encodeBase32 (randomValue randomness) 16
  if now = σ.timestamp then
    let (randomness, exhausted) := incrementUlidRandomness σ.randomness
    (⟨σ.timestamp, randomness⟩, if exhausted then none else some (encoded randomness))
  else (⟨now, call.fill.toList⟩, some (encoded call.fill.toList))

def issued : UlidState → List UlidCall → List Text
  | _, [] => []
  | σ, call :: calls =>
      (nextMonotonicUlid σ call).2.toList ++ issued (nextMonotonicUlid σ call).1 calls

/-! ## Numerals -/

theorem crockford_lt_iff {d e : Nat} (hd : d < 32) (he : e < 32) :
    crockford d < crockford e ↔ d < e := by
  have hall : ∀ d < 32, ∀ e < 32, crockford d < crockford e ↔ d < e := by decide
  exact hall d hd e he

theorem crockford_inj {d e : Nat} (hd : d < 32) (he : e < 32) :
    crockford d = crockford e ↔ d = e := by
  have hall : ∀ d < 32, ∀ e < 32, crockford d = crockford e ↔ d = e := by decide
  exact hall d hd e he

def numeral (width n : Nat) : Text := (digits 32 width n).map crockford

theorem numeral_lt_iff {width m n : Nat} (hm : m < 32 ^ width) (hn : n < 32 ^ width) :
    numeral width m < numeral width n ↔ m < n := by
  have hdigit : ∀ {n : Nat}, ∀ d ∈ digits 32 width n, d < 32 := fun d hd =>
    Radix.digits_lt (by decide) hd
  rw [numeral, numeral, Radix.map_lt_map_iff crockford_lt_iff crockford_inj hdigit hdigit,
    Radix.digits_lt_iff hm hn]

theorem encodeBase32From_eq (length remaining : Nat) (encoded : Text) :
    encodeBase32From length remaining encoded = numeral length remaining ++ encoded := by
  induction length generalizing remaining encoded with
  | zero => rfl
  | succ length ih =>
      have hshift : remaining >>> 5 = remaining / 32 := Nat.shiftRight_eq_div_pow remaining 5
      have hlow : remaining &&& 31 = remaining % 32 := Nat.and_two_pow_sub_one_eq_mod remaining 5
      rw [encodeBase32From, ih, hshift, hlow, numeral, numeral, digits, List.map_append,
        List.append_assoc]
      rfl

theorem encodeBase32_eq (n length : Nat) : encodeBase32 n length = numeral length n := by
  rw [encodeBase32, encodeBase32From_eq, List.append_nil]

theorem randomValue_eq (randomness : List UInt8) : randomValue randomness = bytesValue randomness := by
  induction randomness using List.reverseRecOn with
  | nil => rfl
  | append_singleton bytes byte ih =>
      have hshift : bytesValue bytes <<< 8 ||| byte.toNat = bytesValue bytes * 256 + byte.toNat := by
        rw [Nat.shiftLeft_eq, Nat.mul_comm, ← Nat.two_pow_add_eq_or_of_lt byte.toNat_lt, Nat.mul_comm]
      rw [randomValue, List.foldl_append, Radix.bytesValue_snoc]
      exact (congrArg (fun n => n <<< 8 ||| byte.toNat) ih).trans hshift

/-! ## Counting up -/

theorem length_incrementFrom (bytes : List UInt8) :
    (incrementFrom bytes).1.length = bytes.length := by
  induction bytes with
  | nil => rfl
  | cons byte rest ih =>
      rw [incrementFrom]
      split
      · rfl
      · exact congrArg (· + 1) ih

theorem incrementFrom_value (bytes : List UInt8) :
    bytesValue (incrementFrom bytes).1.reverse
        + (if (incrementFrom bytes).2 then 256 ^ bytes.length else 0)
      = bytesValue bytes.reverse + 1 := by
  induction bytes with
  | nil => rfl
  | cons byte rest ih =>
      have hsnoc : ∀ (bytes : List UInt8) (byte : UInt8),
          bytesValue (byte :: bytes).reverse = bytesValue bytes.reverse * 256 + byte.toNat := by
        intro bytes byte
        rw [List.reverse_cons, Radix.bytesValue_snoc]
      rw [incrementFrom, hsnoc]
      split
      · next hlt =>
          have hbyte : (byte + 1).toNat = byte.toNat + 1 := by
            rw [UInt8.lt_iff_toNat_lt] at hlt
            rw [UInt8.toNat_add]
            exact Nat.mod_eq_of_lt (Nat.add_lt_add_right hlt 1)
          rw [hsnoc, hbyte, if_neg Bool.false_ne_true, Nat.add_zero, Nat.add_assoc]
      · next hge =>
          have hbyte : byte.toNat = 255 := by
            rw [UInt8.lt_iff_toNat_lt, Nat.not_lt] at hge
            exact Nat.le_antisymm (Nat.le_of_lt_succ byte.toNat_lt) hge
          rw [hsnoc, hbyte, List.length_cons, pow_succ]
          simp only [UInt8.toNat_zero, Nat.add_zero]
          cases hout : (incrementFrom rest).2 with
          | true =>
              rw [hout, if_pos rfl] at ih
              rw [if_pos rfl, ← Nat.add_mul, ih]
              omega
          | false =>
              rw [hout, if_neg Bool.false_ne_true] at ih
              rw [if_neg Bool.false_ne_true, Nat.add_zero, Nat.add_zero] at *
              omega

theorem bytesValue_increment (randomness : List UInt8) :
    bytesValue (incrementUlidRandomness randomness).1
        + (if (incrementUlidRandomness randomness).2 then 256 ^ randomness.length else 0)
      = bytesValue randomness + 1 := by
  have h := incrementFrom_value randomness.reverse
  rwa [List.reverse_reverse, List.length_reverse] at h

theorem length_increment (randomness : List UInt8) :
    (incrementUlidRandomness randomness).1.length = randomness.length := by
  rw [incrementUlidRandomness, List.length_reverse, length_incrementFrom, List.length_reverse]

/-! ## One call -/

structure UlidState.Valid (σ : UlidState) : Prop where
  least : -1 ≤ σ.timestamp
  most : σ.timestamp < 2 ^ 48
  length : σ.randomness.length = 10

/-- The state as one number: the timestamp before the counter. -/
def UlidState.number (σ : UlidState) : Int := σ.timestamp * 2 ^ 80 + bytesValue σ.randomness

variable {σ : UlidState}

theorem UlidState.Valid.lt (h : σ.Valid) : bytesValue σ.randomness < 2 ^ 80 := by
  have hlt := Radix.bytesValue_lt σ.randomness
  rw [h.length] at hlt
  exact hlt

@[irreducible] def ulid (number : Int) : Text := numeral 26 number.toNat

theorem ulid_lt_iff {m n : Int} (hm : 0 ≤ m) (hn : 0 ≤ n) (hm' : m < 2 ^ 128) (hn' : n < 2 ^ 128) :
    ulid m < ulid n ↔ m < n := by
  rw [ulid, ulid, numeral_lt_iff (by omega) (by omega)]
  omega

theorem encoded_eq {now : Int} (hnow : 0 ≤ now) {randomness : List UInt8}
    (hlt : bytesValue randomness < 2 ^ 80) :
    encodeBase32 now.toNat 10 ++ encodeBase32 (randomValue randomness) 16
      = ulid (now * 2 ^ 80 + bytesValue randomness) := by
  have hnumber : (now * 2 ^ 80 + bytesValue randomness).toNat
      = now.toNat * 32 ^ 16 + bytesValue randomness := by omega
  have hhigh : (now.toNat * 32 ^ 16 + bytesValue randomness) / 32 ^ 16 = now.toNat := by omega
  have hlow : (now.toNat * 32 ^ 16 + bytesValue randomness) % 32 ^ 16 = bytesValue randomness := by
    omega
  rw [encodeBase32_eq, encodeBase32_eq, randomValue_eq, ulid, hnumber, numeral, numeral, numeral,
    Radix.digits_add 10 16, hhigh, ← Radix.digits_mod 16 (now.toNat * 32 ^ 16 + _), hlow,
    List.map_append]

/-- The call counts up past the last value of its millisecond. -/
def Exhausts (σ : UlidState) (call : UlidCall) : Prop :=
  (call.clock : Int) ≤ σ.timestamp ∧ bytesValue σ.randomness + 1 = 2 ^ 80

instance (σ : UlidState) (call : UlidCall) : Decidable (Exhausts σ call) :=
  inferInstanceAs (Decidable (_ ∧ _))

theorem nextMonotonicUlid_cases (hσ : σ.Valid) {call : UlidCall} (hcall : call.clock < 2 ^ 48) :
    (nextMonotonicUlid σ call).1.Valid ∧
    ((σ.timestamp < call.clock ∧ (nextMonotonicUlid σ call).1.timestamp = call.clock
        ∧ (nextMonotonicUlid σ call).2 = some (ulid (nextMonotonicUlid σ call).1.number))
      ∨ ((call.clock : Int) ≤ σ.timestamp ∧ ¬ Exhausts σ call
        ∧ (nextMonotonicUlid σ call).1.timestamp = σ.timestamp
        ∧ (nextMonotonicUlid σ call).1.number = σ.number + 1
        ∧ (nextMonotonicUlid σ call).2 = some (ulid (nextMonotonicUlid σ call).1.number))
      ∨ (Exhausts σ call ∧ (nextMonotonicUlid σ call).1.timestamp = σ.timestamp
        ∧ bytesValue (nextMonotonicUlid σ call).1.randomness = 0
        ∧ (nextMonotonicUlid σ call).2 = none)) := by
  by_cases hclock : (call.clock : Int) ≤ σ.timestamp
  · have hnow : max (call.clock : Int) σ.timestamp = σ.timestamp := max_eq_right hclock
    have hpositive : 0 ≤ σ.timestamp := (Int.natCast_nonneg _).trans hclock
    have hlength : (incrementUlidRandomness σ.randomness).1.length = 10 :=
      (length_increment _).trans hσ.length
    have hvalid : UlidState.Valid ⟨σ.timestamp, (incrementUlidRandomness σ.randomness).1⟩ :=
      ⟨hσ.least, hσ.most, hlength⟩
    have hbytes := bytesValue_increment σ.randomness
    have hlt := hvalid.lt
    rw [hσ.length] at hbytes
    simp only [nextMonotonicUlid, hnow, if_true]
    refine ⟨hvalid, .inr ?_⟩
    cases hout : (incrementUlidRandomness σ.randomness).2 with
    | true =>
        rw [hout, if_pos rfl] at hbytes
        have hσlt := hσ.lt
        refine .inr ⟨⟨hclock, by omega⟩, trivial, ?_, rfl⟩
        simp only at hlt ⊢
        omega
    | false =>
        rw [hout, if_neg Bool.false_ne_true, Nat.add_zero] at hbytes
        refine .inl ⟨hclock, fun hexhausts => ?_, trivial, ?_, ?_⟩
        · have hfull := hexhausts.2
          simp only at hlt
          omega
        · simp only [UlidState.number]
          omega
        · rw [if_neg Bool.false_ne_true, encoded_eq hpositive hlt]
          rfl
  · have hlt : σ.timestamp < call.clock := Int.not_le.mp hclock
    have hnow : max (call.clock : Int) σ.timestamp = call.clock := max_eq_left hlt.le
    have hvalid : UlidState.Valid ⟨call.clock, call.fill.toList⟩ :=
      ⟨by simp only; omega, by simp only; omega, by simp⟩
    simp only [nextMonotonicUlid, hnow, if_neg (ne_of_gt hlt)]
    refine ⟨hvalid, .inl ⟨hlt, trivial, ?_⟩⟩
    rw [encoded_eq (Int.natCast_nonneg _) hvalid.lt]
    rfl

/-! ## Runs -/

theorem issued_length {calls : List UlidCall} (hσ : σ.Valid)
    (hcalls : ∀ call ∈ calls, call.clock < 2 ^ 48) : ∀ id ∈ issued σ calls, id.length = 26 := by
  induction calls generalizing σ with
  | nil => exact fun id hid => nomatch hid
  | cons call calls ih =>
      obtain ⟨hcall, hrest⟩ := List.forall_mem_cons.mp hcalls
      obtain ⟨hvalid, hcases⟩ := nextMonotonicUlid_cases hσ hcall
      have hulid : ∀ n : Int, (ulid n).length = 26 := by
        intro n
        rw [ulid, numeral, List.length_map, Radix.length_digits]
      intro id hid
      rw [issued] at hid
      rcases List.mem_append.mp hid with hid | hid
      · rcases hcases with ⟨-, -, hout⟩ | ⟨-, -, -, -, hout⟩ | ⟨-, -, -, hout⟩ <;> rw [hout] at hid
        · rw [List.mem_singleton.mp hid, hulid]
        · rw [List.mem_singleton.mp hid, hulid]
        · cases hid
      · exact ih hvalid hrest id hid

/-- After a call that counts past the last value, the clock has left the
millisecond when the next call reads it. -/
def RenewedAfter : UlidState → List UlidCall → Prop
  | _, [] => True
  | σ, call :: calls =>
      (Exhausts σ call → ∀ next ∈ calls.head?, σ.timestamp < next.clock)
        ∧ RenewedAfter (nextMonotonicUlid σ call).1 calls

instance decidableRenewedAfter : ∀ (σ : UlidState) (calls : List UlidCall),
    Decidable (RenewedAfter σ calls)
  | _, [] => isTrue trivial
  | σ, call :: calls =>
      have := decidableRenewedAfter (nextMonotonicUlid σ call).1 calls
      inferInstanceAs (Decidable
        ((Exhausts σ call → ∀ next ∈ calls.head?, σ.timestamp < next.clock) ∧ _))

/-- The identifiers to come are above a number: the state is, or the state's
millisecond is over. -/
def Above (σ : UlidState) (m : Int) (calls : List UlidCall) : Prop :=
  m ≤ σ.number ∨ m < (σ.timestamp + 1) * 2 ^ 80 ∧ ∀ next ∈ calls.head?, σ.timestamp < next.clock

theorem UlidState.Valid.number_lt (h : σ.Valid) : σ.number < (σ.timestamp + 1) * 2 ^ 80 := by
  have hlt := h.lt
  rw [number]
  omega

theorem UlidState.Valid.number_bounds (h : σ.Valid) (htime : 0 ≤ σ.timestamp) :
    0 ≤ σ.number ∧ σ.number < 2 ^ 128 := by
  have hlt := h.lt
  have hmost := h.most
  rw [number]
  omega

theorem issued_increasing {calls : List UlidCall} {m : Int} (hσ : σ.Valid)
    (hcalls : ∀ call ∈ calls, call.clock < 2 ^ 48) (hrenewed : RenewedAfter σ calls)
    (habove : Above σ m calls) :
    (issued σ calls).Pairwise (· < ·)
      ∧ ∀ id ∈ issued σ calls, ∃ n : Int, m < n ∧ 0 ≤ n ∧ n < 2 ^ 128 ∧ id = ulid n := by
  induction calls generalizing σ m with
  | nil => exact ⟨.nil, fun id hid => nomatch hid⟩
  | cons call calls ih =>
      obtain ⟨hcall, hrest⟩ := List.forall_mem_cons.mp hcalls
      obtain ⟨hvalid, hcases⟩ := nextMonotonicUlid_cases hσ hcall
      obtain ⟨hnext, hafter⟩ := hrenewed
      have hbelow := hσ.number_lt
      rw [issued]
      generalize nextMonotonicUlid σ call = result at hvalid hcases hafter ⊢
      obtain ⟨τ, out⟩ := result
      simp only at hvalid hcases hafter ⊢
      -- An identifier is issued, above the bound; the others are above it.
      have hissued : m < τ.number → 0 ≤ τ.timestamp → out = some (ulid τ.number) →
          (out.toList ++ issued τ calls).Pairwise (· < ·) ∧ ∀ id ∈ out.toList ++ issued τ calls,
            ∃ n : Int, m < n ∧ 0 ≤ n ∧ n < 2 ^ 128 ∧ id = ulid n := by
        intro hlt htime hout
        obtain ⟨hpositive, hmost⟩ := hvalid.number_bounds htime
        have hstart : Above τ τ.number calls := .inl (le_refl _)
        obtain ⟨hpairwise, hlater⟩ := ih hvalid hrest hafter hstart
        rw [hout, Option.toList_some, List.singleton_append, List.pairwise_cons]
        refine ⟨⟨?_, hpairwise⟩, ?_⟩
        · intro id hid
          obtain ⟨n, hn, hn0, hn', heq⟩ := hlater id hid
          rw [heq]
          exact (ulid_lt_iff hpositive hn0 hmost hn').mpr hn
        · intro id hid
          rcases List.mem_cons.mp hid with rfl | hid
          · exact ⟨_, hlt, hpositive, hmost, rfl⟩
          · obtain ⟨n, hn, hrange⟩ := hlater id hid
            exact ⟨n, hlt.trans hn, hrange⟩
      rcases hcases with ⟨hclock, htime, hout⟩ | ⟨hclock, -, htime, hnumber, hout⟩
        | ⟨hexhausts, htime, -, hout⟩
      · have hnumber : (call.clock : Int) * 2 ^ 80 ≤ τ.number := by
          rw [UlidState.number, htime]
          omega
        refine hissued ?_ (by rw [htime]; exact Int.natCast_nonneg _) hout
        rcases habove with hle | ⟨hlt, -⟩ <;> omega
      · refine hissued ?_ (by rw [htime]; exact (Int.natCast_nonneg _).trans hclock) hout
        rcases habove with hle | ⟨-, hhead⟩
        · omega
        · have hlater := hhead call rfl
          omega
      · have hstart : Above τ m calls := by
          refine .inr ⟨?_, by rw [htime]; exact hnext hexhausts⟩
          rw [htime]
          rcases habove with hle | ⟨hlt, -⟩ <;> omega
        rw [hout]
        exact ih hvalid hrest hafter hstart

/-- The last identifier is the state's, or the state is not at its last value. -/
def Settled (σ : UlidState) (before : List Text) : Prop :=
  ulid σ.number ∈ before ∨ bytesValue σ.randomness + 1 < 2 ^ 80

theorem renewed_of_increasing {calls : List UlidCall} {before : List Text} (hσ : σ.Valid)
    (hcalls : ∀ call ∈ calls, call.clock < 2 ^ 48) (hsettled : Settled σ before)
    (hincreasing : (before ++ issued σ calls).Pairwise (· < ·)) : RenewedAfter σ calls := by
  induction calls generalizing σ before with
  | nil => exact trivial
  | cons call calls ih =>
      obtain ⟨hcall, hrest⟩ := List.forall_mem_cons.mp hcalls
      obtain ⟨hvalid, hcases⟩ := nextMonotonicUlid_cases hσ hcall
      rw [issued, ← List.append_assoc] at hincreasing
      refine ⟨fun hexhausts next hnext => ?_, ih hvalid hrest ?_ hincreasing⟩
      · by_contra hnot
        have hclock : (next.clock : Int) ≤ σ.timestamp := Int.not_lt.mp hnot
        -- The last identifier has the greatest counter of the millisecond, the
        -- next call issues the least but one.
        have hlast : ulid σ.number ∈ before :=
          hsettled.resolve_right fun hlt => absurd hexhausts.2 (ne_of_lt hlt)
        have hpositive : 0 ≤ σ.timestamp := (Int.natCast_nonneg _).trans hexhausts.1
        obtain ⟨rest, rfl⟩ : ∃ rest, calls = next :: rest := by
          cases calls with
          | nil => cases hnext
          | cons first rest => exact ⟨rest, by rw [Option.some.inj hnext]⟩
        have hthrown : (nextMonotonicUlid σ call).1.timestamp = σ.timestamp
            ∧ bytesValue (nextMonotonicUlid σ call).1.randomness = 0 := by
          rcases hcases with ⟨hlt, -⟩ | ⟨-, hnone, -⟩ | ⟨-, htime, hzero, -⟩
          · exact absurd hexhausts.1 (Int.not_le.mpr hlt)
          · exact absurd hexhausts hnone
          · exact ⟨htime, hzero⟩
        rw [issued] at hincreasing
        generalize nextMonotonicUlid σ call = result at hvalid hthrown hincreasing
        obtain ⟨τ, out⟩ := result
        obtain ⟨htime, hzero⟩ := hthrown
        simp only at hvalid htime hzero hincreasing
        obtain ⟨hvalid', hcases'⟩ :=
          nextMonotonicUlid_cases hvalid (hrest next (List.mem_cons_self ..))
        have hsecond : (nextMonotonicUlid τ next).1.number = τ.number + 1
            ∧ (nextMonotonicUlid τ next).1.timestamp = σ.timestamp
            ∧ (nextMonotonicUlid τ next).2 = some (ulid (nextMonotonicUlid τ next).1.number) := by
          rcases hcases' with ⟨hlt, -⟩ | ⟨-, -, htime', hnumber, hout⟩ | ⟨hagain, -⟩
          · rw [htime] at hlt
            exact absurd hclock (Int.not_le.mpr hlt)
          · exact ⟨hnumber, htime'.trans htime, hout⟩
          · have hfull := hagain.2
            rw [hzero] at hfull
            exact absurd hfull (by decide)
        obtain ⟨hnumber, htime', hout⟩ := hsecond
        have hbounds := hvalid'.number_bounds (by rw [htime']; exact hpositive)
        rw [hout, Option.toList_some, List.singleton_append] at hincreasing
        have hlt := (List.pairwise_append.mp hincreasing).2.2 _
          (List.mem_append_left _ hlast) _ (List.mem_cons_self ..)
        rw [ulid_lt_iff (hσ.number_bounds hpositive).1 hbounds.1 (hσ.number_bounds hpositive).2
          hbounds.2, hnumber] at hlt
        have hσnumber : σ.number = σ.timestamp * 2 ^ 80 + bytesValue σ.randomness := rfl
        have hτnumber : τ.number = τ.timestamp * 2 ^ 80 + bytesValue τ.randomness := rfl
        have hfull := hexhausts.2
        rw [hzero, htime] at hτnumber
        omega
      · rcases hcases with ⟨-, -, hout⟩ | ⟨-, -, -, -, hout⟩ | ⟨-, -, hzero, -⟩
        · exact .inl (by rw [hout]; exact List.mem_append_right _ (List.mem_singleton_self _))
        · exact .inl (by rw [hout]; exact List.mem_append_right _ (List.mem_singleton_self _))
        · exact .inr (by rw [hzero]; decide)

theorem UlidState.initial_valid : UlidState.initial.Valid :=
  ⟨le_refl _, by decide, List.length_replicate⟩

/-- Every identifier has 26 characters, and they go up as long as no call
follows in its millisecond one that counted past the last value: that call
throws and leaves the counter at zero, and the next one repeats identifiers. -/
theorem issued_increasing_iff {calls : List UlidCall} (hcalls : ∀ call ∈ calls, call.clock < 2 ^ 48) :
    (∀ id ∈ issued .initial calls, id.length = 26)
      ∧ ((issued .initial calls).Pairwise (· < ·) ↔ RenewedAfter .initial calls) := by
  refine ⟨issued_length UlidState.initial_valid hcalls, ?_, ?_⟩
  · intro hincreasing
    have hsettled : Settled .initial [] := .inr (by decide)
    exact renewed_of_increasing UlidState.initial_valid hcalls hsettled hincreasing
  · intro hrenewed
    have habove : Above .initial UlidState.initial.number calls := .inl (le_refl _)
    exact (issued_increasing UlidState.initial_valid hcalls hrenewed habove).1

/-! ## On fixed calls -/

/-- A call at an instant, with all random bytes the same. -/
def callAt (clock : Nat) (byte : UInt8) : UlidCall := ⟨clock, Vector.replicate 10 byte⟩

theorem issued_increasing_iff_sample :
    (issued .initial [callAt 5 7, callAt 3 0, callAt 6 0]).Pairwise (· < ·) :=
  (@issued_increasing_iff [callAt 5 7, callAt 3 0, callAt 6 0] (by decide)).2.mpr (by decide)

/-- Random bytes that are all 255, and two more calls in the millisecond: the
second throws, the third repeats the millisecond from its start. -/
theorem exhausted_counter_restarts :
    ¬ ∀ calls : List UlidCall, (∀ call ∈ calls, call.clock < 2 ^ 48) →
      (issued .initial calls).Pairwise (· < ·) := by
  intro h
  have hincreasing := h [callAt 5 255, callAt 5 0, callAt 5 0] (by decide)
  exact absurd hincreasing (by decide)

end Asimposium.Split
