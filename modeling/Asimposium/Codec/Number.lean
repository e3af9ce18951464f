import Mathlib
import Asimposium.Render.Text

/-!
# The spelling of numbers

`JSON.stringify` prints a finite number by the shortest decimal that rounds to
it, laid out in one of four ways, and `JSON.parse` rounds the decimal it
reads. Which decimals round to which numbers is the floating-point format's:
`FloatFormat` has the choice of digits and the rounding. The layouts and the
grammar of number tokens are definitions, and each layout is read as the
decimal it prints.
-/

namespace Asimposium.Codec

open Text (isDigit decimal)

/-! ## Decimals -/

/-- The digits of a positive number and the place of its point: `s` and `n` of
`Number::toString`. -/
structure Decimal where
  significand : Nat
  point : Int
  pos : 0 < significand

def Decimal.digits (d : Decimal) : Text := decimal d.significand

def Decimal.value (d : Decimal) : ℚ :=
  d.significand * (10 : ℚ) ^ (d.point - d.digits.length)

/-- The exponent of a layout with one digit before the point. -/
def exponentText (e : Int) : Text :=
  unit 'e' :: (if e < 0 then unit '-' else unit '+') :: decimal e.natAbs

/-- `Number::toString` of a positive number. -/
def Decimal.toText (d : Decimal) : Text :=
  let k := (d.digits.length : Int)
  if k ≤ d.point ∧ d.point ≤ 21 then
    d.digits ++ List.replicate (d.point - k).toNat (unit '0')
  else if 0 < d.point ∧ d.point ≤ 21 then
    d.digits.take d.point.toNat ++ unit '.' :: d.digits.drop d.point.toNat
  else if -6 < d.point ∧ d.point ≤ 0 then
    unit '0' :: unit '.' :: (List.replicate (-d.point).toNat (unit '0') ++ d.digits)
  else match d.digits with
    | [digit] => digit :: exponentText (d.point - 1)
    | digits =>
        digits.take 1 ++ unit '.' :: (digits.drop 1 ++ exponentText (d.point - 1))

/-! ## Numbers -/

inductive Rounded (F : Type) where
  | zero
  | finite (magnitude : F)
  | infinite

/-- A floating-point format, by its positive finite magnitudes. -/
structure FloatFormat (F : Type) where
  /-- The digits `Number::toString` chooses. -/
  shortest : F → Decimal
  /-- To the nearest. -/
  round : ℚ → Rounded F

/-- The digits chosen for a number are of a decimal that rounds to it. -/
def FloatFormat.Lawful {F : Type} (format : FloatFormat F) : Prop :=
  ∀ magnitude, format.round (format.shortest magnitude).value = .finite magnitude

inductive Number (F : Type) where
  | nan
  | infinity (negative : Bool)
  | zero (negative : Bool)
  | finite (negative : Bool) (magnitude : F)
deriving DecidableEq

namespace Number

variable {F : Type}

def isFinite : Number F → Bool
  | .nan => false
  | .infinity _ => false
  | .zero _ => true
  | .finite _ _ => true

def unsigned : Number F → Number F
  | .zero _ => .zero false
  | x => x

/-- `JSON.stringify(value)` of a number. -/
def toText (format : FloatFormat F) : Number F → Text
  | .nan => text "null"
  | .infinity _ => text "null"
  | .zero _ => text "0"
  | .finite negative magnitude =>
      let digits := (format.shortest magnitude).toText
      if negative then unit '-' :: digits else digits

end Number

/-! ## Number tokens -/

def numeral (digits : Text) : Nat := digits.foldl (fun n u => 10 * n + (u.toNat - 48)) 0

structure NumberToken where
  negative : Bool
  significand : Nat
  exponent : Int

def NumberToken.value (token : NumberToken) : ℚ := token.significand * (10 : ℚ) ^ token.exponent

def scanSign : Text → Bool × Text
  | [] => (false, [])
  | u :: rest => if u = unit '-' then (true, rest) else (false, u :: rest)

def scanFraction : Text → Option (Text × Text)
  | [] => some ([], [])
  | u :: rest =>
      if u = unit '.' then
        if (rest.takeWhile isDigit).isEmpty then none
        else some (rest.takeWhile isDigit, rest.dropWhile isDigit)
      else some ([], u :: rest)

def scanExponentDigits (negative : Bool) (t : Text) : Option (Int × Text) :=
  let digits := t.takeWhile isDigit
  if digits.isEmpty then none
  else some (if negative then -(numeral digits : Int) else numeral digits, t.dropWhile isDigit)

def scanExponent : Text → Option (Int × Text)
  | [] => some (0, [])
  | u :: rest =>
      if u = unit 'e' ∨ u = unit 'E' then
        match rest with
        | [] => none
        | v :: rest' =>
            if v = unit '-' then scanExponentDigits true rest'
            else if v = unit '+' then scanExponentDigits false rest'
            else scanExponentDigits false rest
      else some (0, u :: rest)

/-- `-?(0|[1-9]\d*)(\.\d+)?([eE][+-]?\d+)?`, and what follows it. -/
def scanNumber (t : Text) : Option (NumberToken × Text) :=
  let (negative, t) := scanSign t
  let whole := t.takeWhile isDigit
  if whole.isEmpty || (whole.head? == some (unit '0') && 1 < whole.length) then none
  else do
    let (fraction, t) ← scanFraction (t.dropWhile isDigit)
    let (exponent, t) ← scanExponent t
    some ({ negative, significand := numeral (whole ++ fraction),
            exponent := exponent - fraction.length }, t)

def NumberToken.read {F : Type} (format : FloatFormat F) (token : NumberToken) : Number F :=
  if token.significand = 0 then .zero token.negative
  else match format.round token.value with
    | .zero => .zero token.negative
    | .finite magnitude => .finite token.negative magnitude
    | .infinite => .infinity token.negative

/-! ## Reading digits -/

theorem numeral_append (s t : Text) : numeral (s ++ t) = numeral s * 10 ^ t.length + numeral t := by
  have hfrom : ∀ (t : Text) (n : Nat), t.foldl (fun n u => 10 * n + (u.toNat - 48)) n
      = n * 10 ^ t.length + numeral t := by
    intro t
    induction t with
    | nil => intro n; simp [numeral]
    | cons u t ih =>
        intro n
        rw [numeral, List.foldl_cons, List.foldl_cons, ih, ih, List.length_cons]
        ring
  rw [numeral, List.foldl_append, hfrom t]
  rfl

theorem numeral_zeros (n : Nat) : numeral (List.replicate n (unit '0')) = 0 := by
  induction n with
  | zero => rfl
  | succ n ih =>
      have hcons : List.replicate (n + 1) (unit '0') = [unit '0'] ++ List.replicate n (unit '0') :=
        rfl
      have hzero : numeral [unit '0'] = 0 := rfl
      rw [hcons, numeral_append, ih, hzero, Nat.zero_mul]

theorem numeral_decimal (n : Nat) : numeral (decimal n) = n := by
  have hdigits : ∀ (cs : List Char) (m : Nat), (∀ c ∈ cs, c.isDigit = true) →
      (cs.map unit).foldl (fun n u => 10 * n + (u.toNat - 48)) m = Nat.ofDigitChars 10 cs m := by
    intro cs
    induction cs with
    | nil => intro m _; rfl
    | cons c cs ih =>
        intro m hcs
        have hc := hcs c (List.mem_cons_self ..)
        simp only [Char.isDigit, Bool.and_eq_true, decide_eq_true_eq] at hc
        have hle : c.val.toNat ≤ 57 := UInt32.le_iff_toNat_le.mp hc.2
        have hnat : c.toNat = c.val.toNat := rfl
        have hunit : (unit c).toNat = c.toNat := by
          have hmod : (unit c).toNat = c.toNat % 65536 := rfl
          omega
        rw [List.map_cons, List.foldl_cons, ih _ fun d hd => hcs d (List.mem_cons_of_mem _ hd),
          Nat.ofDigitChars_cons, hunit]
        rfl
  rw [numeral, decimal, hdigits _ _ fun c hc =>
    Nat.isDigit_of_mem_toDigits (by decide) (by decide) hc]
  exact Nat.ofDigitChars_toDigits (by decide) (by decide)

theorem numeral_lt {t : Text} (h : ∀ u ∈ t, isDigit u = true) : numeral t < 10 ^ t.length := by
  induction t using List.reverseRecOn with
  | nil => exact Nat.one_pos
  | append_singleton t u ih =>
      have hdigit := h u (by simp)
      simp only [isDigit, Bool.and_eq_true, decide_eq_true_eq, UInt16.le_iff_toNat_le] at hdigit
      have hnine : (unit '9').toNat = 57 := rfl
      have hlt := ih fun v hv => h v (List.mem_append_left _ hv)
      have hlast : numeral [u] = u.toNat - 48 := by
        rw [numeral, List.foldl_cons, List.foldl_nil, Nat.mul_zero, Nat.zero_add]
      rw [numeral_append, hlast, List.length_append, List.length_singleton, pow_one, Nat.pow_succ]
      omega

namespace Decimal

variable (d : Decimal)

theorem isDigit_digits {u : UInt16} (h : u ∈ d.digits) : isDigit u = true :=
  Text.decimal_digit h

theorem numeral_digits : numeral d.digits = d.significand := numeral_decimal d.significand

theorem length_pos : 0 < d.digits.length := Text.width_pos d.significand

theorem digits_head : d.digits.head? ≠ some (unit '0') := by
  intro hhead
  have hpos := d.pos
  have hnumeral := d.numeral_digits
  cases hdigits : d.digits with
  | nil =>
      rw [hdigits] at hhead
      cases hhead
  | cons u rest =>
      rw [hdigits] at hhead
      obtain rfl : u = unit '0' := Option.some.inj hhead
      have hrest : ∀ v ∈ rest, isDigit v = true := fun v hv =>
        d.isDigit_digits (hdigits ▸ List.mem_cons_of_mem _ hv)
      have hvalue : numeral rest = d.significand := by
        have hcons : unit '0' :: rest = [unit '0'] ++ rest := rfl
        have hzero : numeral [unit '0'] = 0 := rfl
        rw [hdigits, hcons, numeral_append, hzero, Nat.zero_mul, Nat.zero_add] at hnumeral
        exact hnumeral
      have hlt := numeral_lt hrest
      have hlength : Text.width d.significand = rest.length + 1 := congrArg List.length hdigits
      rcases Nat.eq_zero_or_pos rest.length with hnil | hlong
      · rw [List.length_eq_zero_iff.mp hnil] at hvalue
        have hzero : numeral [] = 0 := rfl
        omega
      · have hle := (Text.width_le_iff hlong).mpr (hvalue ▸ hlt)
        omega

end Decimal

/-! ## Reading tokens -/

def EndsNumber (t : Text) : Prop :=
  ∀ u ∈ t.head?, isDigit u = false ∧ u ≠ unit '.' ∧ u ≠ unit 'e' ∧ u ≠ unit 'E'

section Scan

variable {digits rest : Text}

theorem takeWhile_digits (hdigits : ∀ u ∈ digits, isDigit u = true)
    (hrest : ∀ u ∈ rest.head?, isDigit u = false) :
    (digits ++ rest).takeWhile isDigit = digits ∧ (digits ++ rest).dropWhile isDigit = rest := by
  have hnone : rest.takeWhile isDigit = [] ∧ rest.dropWhile isDigit = rest := by
    cases rest with
    | nil => exact ⟨rfl, rfl⟩
    | cons u rest =>
        have hu : isDigit u = false := hrest u rfl
        rw [List.takeWhile_cons, List.dropWhile_cons, hu]
        exact ⟨rfl, rfl⟩
  rw [List.takeWhile_append_of_pos hdigits, List.dropWhile_append_of_pos hdigits, hnone.1,
    List.append_nil]
  exact ⟨rfl, hnone.2⟩

theorem scanFraction_none (h : ∀ u ∈ rest.head?, u ≠ unit '.') :
    scanFraction rest = some ([], rest) := by
  cases rest with
  | nil => rfl
  | cons u rest => exact if_neg (h u rfl)

theorem scanFraction_point (hne : digits ≠ []) (hdigits : ∀ u ∈ digits, isDigit u = true)
    (hrest : ∀ u ∈ rest.head?, isDigit u = false) :
    scanFraction (unit '.' :: (digits ++ rest)) = some (digits, rest) := by
  obtain ⟨htake, hdrop⟩ := takeWhile_digits hdigits hrest
  rw [scanFraction, if_pos rfl, htake, hdrop, if_neg (by simpa using hne)]

theorem scanExponent_none (h : ∀ u ∈ rest.head?, u ≠ unit 'e' ∧ u ≠ unit 'E') :
    scanExponent rest = some (0, rest) := by
  cases rest with
  | nil => rfl
  | cons u rest =>
      refine if_neg ?_
      rw [not_or]
      exact h u rfl

theorem scanExponent_text (e : Int) (hrest : ∀ u ∈ rest.head?, isDigit u = false) :
    scanExponent (exponentText e ++ rest) = some (e, rest) := by
  obtain ⟨htake, hdrop⟩ := takeWhile_digits
    (fun u hu => Text.decimal_digit hu : ∀ u ∈ decimal e.natAbs, isDigit u = true) hrest
  have hne : (decimal e.natAbs).isEmpty = false := by
    have hpos : 0 < (decimal e.natAbs).length := Text.width_pos e.natAbs
    rw [List.isEmpty_eq_false_iff]
    exact List.ne_nil_of_length_pos hpos
  have hplus : unit '+' ≠ unit '-' := by decide
  rw [exponentText, List.cons_append, List.cons_append, scanExponent, if_pos (.inl rfl)]
  by_cases hneg : e < 0
  · have habs : -(e.natAbs : Int) = e := by omega
    simp only [if_pos hneg, if_true, scanExponentDigits, htake, hdrop, hne, numeral_decimal,
      Bool.false_eq_true, if_false, habs]
  · have habs : (e.natAbs : Int) = e := by omega
    simp only [if_neg hneg, if_neg hplus, if_true, scanExponentDigits, htake, hdrop, hne,
      numeral_decimal, Bool.false_eq_true, if_false, habs]

theorem scanNumber_parts {whole fraction tail after : Text} {e : Int} (hne : whole ≠ [])
    (hwhole : ∀ u ∈ whole, isDigit u = true)
    (hlead : whole.head? ≠ some (unit '0') ∨ whole.length = 1)
    (htail : ∀ u ∈ tail.head?, isDigit u = false)
    (hfraction : scanFraction tail = some (fraction, after))
    (hexponent : scanExponent after = some (e, rest)) (negative : Bool) :
    scanNumber ((if negative then [unit '-'] else []) ++ (whole ++ tail))
      = some ({ negative, significand := numeral (whole ++ fraction),
                exponent := e - fraction.length }, rest) := by
  have hsign : scanSign ((if negative then [unit '-'] else []) ++ (whole ++ tail))
      = (negative, whole ++ tail) := by
    cases negative with
    | true => rfl
    | false =>
        cases whole with
        | nil => exact absurd rfl hne
        | cons u whole =>
            refine if_neg ?_
            rintro rfl
            exact absurd (hwhole _ (List.mem_cons_self ..)) (by decide)
  obtain ⟨htake, hdrop⟩ := takeWhile_digits hwhole htail
  have hvalid : (whole.isEmpty || (whole.head? == some (unit '0') && decide (1 < whole.length)))
      = false := by
    rw [Bool.or_eq_false_iff, Bool.and_eq_false_iff, List.isEmpty_eq_false_iff,
      beq_eq_false_iff_ne, decide_eq_false_iff_not]
    refine ⟨hne, hlead.imp id fun hone => ?_⟩
    omega
  rw [scanNumber, hsign]
  dsimp only
  rw [htake, hdrop, hvalid, hfraction]
  simp only [Option.bind_eq_bind, Option.bind_some, hexponent]
  rfl

end Scan

/-! ## Reading layouts -/

theorem value_of_digits (d : Decimal) {token : NumberToken} {shift : Nat}
    (hsignificand : token.significand = d.significand * 10 ^ shift)
    (hexponent : token.exponent + shift = d.point - d.digits.length) : token.value = d.value := by
  have hten : (10 : ℚ) ≠ 0 := by norm_num
  rw [NumberToken.value, Decimal.value, hsignificand, ← hexponent, zpow_add₀ hten, zpow_natCast]
  push_cast
  ring

/-- However it goes on, the text is read as a token of the decimal. -/
def ReadsAs (t : Text) (d : Decimal) : Prop :=
  ∀ rest, EndsNumber rest → ∀ negative, ∃ token,
    scanNumber ((if negative then [unit '-'] else []) ++ (t ++ rest)) = some (token, rest)
      ∧ token.negative = negative ∧ token.significand ≠ 0 ∧ token.value = d.value

section Layouts

variable (d : Decimal)

theorem digits_ne_nil : d.digits ≠ [] := List.ne_nil_of_length_pos d.length_pos

theorem isDigit_zeros {n : Nat} {u : UInt16} (h : u ∈ List.replicate n (unit '0')) :
    isDigit u = true := by
  rw [List.eq_of_mem_replicate h]
  decide

theorem reads_parts (whole : Text) (shift : Nat) {rest fraction tail after : Text} {e : Int}
    (hne : whole ≠ []) (hwhole : ∀ u ∈ whole, isDigit u = true)
    (hlead : whole.head? ≠ some (unit '0') ∨ whole.length = 1)
    (htail : ∀ u ∈ tail.head?, isDigit u = false)
    (hfraction : scanFraction tail = some (fraction, after))
    (hexponent : scanExponent after = some (e, rest))
    (hsignificand : numeral (whole ++ fraction) = d.significand * 10 ^ shift)
    (hscale : e - fraction.length + shift = d.point - d.digits.length) (negative : Bool) :
    ∃ token, scanNumber ((if negative then [unit '-'] else []) ++ (whole ++ tail))
        = some (token, rest)
      ∧ token.negative = negative ∧ token.significand ≠ 0 ∧ token.value = d.value := by
  refine ⟨_, scanNumber_parts hne hwhole hlead htail hfraction hexponent negative, rfl, ?_,
    value_of_digits d hsignificand hscale⟩
  show numeral (whole ++ fraction) ≠ 0
  rw [hsignificand]
  exact (Nat.mul_pos d.pos (Nat.pos_of_ne_zero (by simp))).ne'

theorem readsAs_whole (h : (d.digits.length : Int) ≤ d.point) :
    ReadsAs (d.digits ++ List.replicate (d.point - d.digits.length).toNat (unit '0')) d := by
  intro rest hrest negative
  refine reads_parts d _ (d.point - d.digits.length).toNat ?_ ?_ (.inl ?_)
    (fun u hu => (hrest u hu).1) (scanFraction_none fun u hu => (hrest u hu).2.1)
    (scanExponent_none fun u hu => (hrest u hu).2.2) ?_ ?_ negative
  · simp [digits_ne_nil d]
  · intro u hu
    exact (List.mem_append.mp hu).elim d.isDigit_digits isDigit_zeros
  · rw [List.head?_append_of_ne_nil _ (digits_ne_nil d)]
    exact d.digits_head
  · rw [List.append_nil, numeral_append, numeral_zeros, d.numeral_digits, List.length_replicate,
      Nat.add_zero]
  · rw [List.length_nil]
    omega

theorem readsAs_inner (hpos : 0 < d.point) (h : d.point < d.digits.length) :
    ReadsAs (d.digits.take d.point.toNat ++ unit '.' :: d.digits.drop d.point.toNat) d := by
  intro rest hrest negative
  have hdrop : d.digits.drop d.point.toNat ≠ [] := by
    rw [ne_eq, List.drop_eq_nil_iff]
    omega
  rw [List.append_assoc, List.cons_append]
  refine reads_parts d _ 0 ?_ ?_ (.inl ?_) ?_
    (scanFraction_point hdrop (fun u hu => d.isDigit_digits (List.mem_of_mem_drop hu))
      fun u hu => (hrest u hu).1)
    (scanExponent_none fun u hu => (hrest u hu).2.2) ?_ ?_ negative
  · rw [ne_eq, List.take_eq_nil_iff, not_or]
    exact ⟨by omega, digits_ne_nil d⟩
  · exact fun u hu => d.isDigit_digits (List.mem_of_mem_take hu)
  · rw [List.head?_take, if_neg (by omega)]
    exact d.digits_head
  · intro u hu
    cases hu
    decide
  · rw [List.take_append_drop, d.numeral_digits, pow_zero, Nat.mul_one]
  · rw [List.length_drop]
    omega

theorem readsAs_small (h : d.point ≤ 0) :
    ReadsAs (unit '0' :: unit '.' :: (List.replicate (-d.point).toNat (unit '0') ++ d.digits)) d := by
  intro rest hrest negative
  have hcons : unit '0' :: unit '.' :: (List.replicate (-d.point).toNat (unit '0') ++ d.digits) ++ rest
      = [unit '0'] ++ (unit '.' :: ((List.replicate (-d.point).toNat (unit '0') ++ d.digits) ++ rest)) :=
    rfl
  rw [hcons]
  refine reads_parts d [unit '0'] 0 (List.cons_ne_nil _ _) ?_ (.inr rfl) ?_
    (scanFraction_point (by simp [digits_ne_nil d])
      (fun u hu => (List.mem_append.mp hu).elim isDigit_zeros d.isDigit_digits)
      fun u hu => (hrest u hu).1)
    (scanExponent_none fun u hu => (hrest u hu).2.2) ?_ ?_ negative
  · intro u hu
    rw [List.mem_singleton.mp hu]
    decide
  · intro u hu
    cases hu
    decide
  · have hzero : numeral [unit '0'] = 0 := rfl
    rw [numeral_append, numeral_append, numeral_zeros, hzero, d.numeral_digits]
    omega
  · rw [List.length_append, List.length_replicate]
    omega

theorem readsAs_scaled : ReadsAs (match d.digits with
    | [digit] => digit :: exponentText (d.point - 1)
    | digits =>
        digits.take 1 ++ unit '.' :: (digits.drop 1 ++ exponentText (d.point - 1))) d := by
  intro rest hrest negative
  obtain ⟨first, others, hlist⟩ := List.exists_cons_of_ne_nil (digits_ne_nil d)
  have hhead : [first].head? ≠ some (unit '0') := by
    have hhead := d.digits_head
    rwa [hlist] at hhead
  have hdigits : ∀ u ∈ first :: others, isDigit u = true := fun u hu =>
    d.isDigit_digits (hlist ▸ hu)
  have hfirst : ∀ u ∈ [first], isDigit u = true := fun u hu =>
    hdigits u (List.mem_cons.mpr (.inl (List.mem_singleton.mp hu)))
  have hnumeral : numeral (first :: others) = d.significand := by
    rw [← hlist]
    exact d.numeral_digits
  have hlead : ∀ u ∈ (exponentText (d.point - 1) ++ rest).head?, isDigit u = false := by
    intro u hu
    cases hu
    decide
  have hexponent : scanExponent (exponentText (d.point - 1) ++ rest) = some (d.point - 1, rest) :=
    scanExponent_text _ fun u hu => (hrest u hu).1
  rw [hlist]
  cases others with
  | nil =>
      refine reads_parts d [first] 0 (List.cons_ne_nil _ _) hfirst (.inl hhead) hlead
        (scanFraction_none ?_) hexponent ?_ ?_ negative
      · intro u hu
        cases hu
        decide
      · rw [List.append_nil, hnumeral, pow_zero, Nat.mul_one]
      · rw [hlist, List.length_nil, List.length_singleton]
        omega
  | cons second others =>
      have hcons : (first :: second :: others).take 1
            ++ unit '.' :: ((first :: second :: others).drop 1 ++ exponentText (d.point - 1)) ++ rest
          = [first] ++ (unit '.' :: ((second :: others)
            ++ (exponentText (d.point - 1) ++ rest))) := by
        simp
      dsimp only
      rw [hcons]
      refine reads_parts d [first] 0 (List.cons_ne_nil _ _) hfirst (.inl hhead) ?_
        (scanFraction_point (List.cons_ne_nil _ _)
          (fun u hu => hdigits u (List.mem_cons_of_mem _ hu)) hlead) hexponent ?_ ?_ negative
      · intro u hu
        cases hu
        decide
      · rw [List.singleton_append, hnumeral, pow_zero, Nat.mul_one]
      · rw [hlist, List.length_cons, List.length_cons, List.length_cons]
        push_cast
        omega

theorem toText_readsAs : ReadsAs d.toText d := by
  unfold Decimal.toText
  dsimp only
  split
  · rename_i h
    exact readsAs_whole d h.1
  · rename_i hwhole
    split
    · rename_i h
      exact readsAs_inner d h.1 (by omega)
    · split
      · rename_i h
        exact readsAs_small d h.2
      · exact readsAs_scaled d

end Layouts

/-! ## Reading numbers -/

section Numbers

variable {F : Type} {format : FloatFormat F}

theorem scanNumber_number (lawful : format.Lawful) {x : Number F} (hx : x.isFinite = true)
    {rest : Text} (hrest : EndsNumber rest) :
    ∃ token, scanNumber (x.toText format ++ rest) = some (token, rest)
      ∧ token.read format = x.unsigned := by
  cases x with
  | nan => cases hx
  | infinity negative => cases hx
  | zero negative =>
      refine ⟨_, @scanNumber_parts rest [unit '0'] [] rest rest 0 (List.cons_ne_nil _ _) ?_
        (.inr rfl) (fun u hu => (hrest u hu).1) (scanFraction_none fun u hu => (hrest u hu).2.1)
        (scanExponent_none fun u hu => (hrest u hu).2.2) false, rfl⟩
      intro u hu
      rw [List.mem_singleton.mp hu]
      decide
  | finite negative magnitude =>
      obtain ⟨token, hscan, hnegative, hne, hvalue⟩ :=
        toText_readsAs (format.shortest magnitude) rest hrest negative
      refine ⟨token, ?_, ?_⟩
      · cases negative <;> exact hscan
      · rw [NumberToken.read, if_neg hne, hvalue, lawful magnitude, hnegative]
        rfl

end Numbers

end Asimposium.Codec
