import Mathlib.Data.Nat.Digits.Defs
import Mathlib.Data.List.Infix

/-!
# Strings as the renderer sees them

A JavaScript string is a sequence of UTF-16 code units, and may hold half
of a surrogate pair. The renderer reads its texts by code unit or by code
point, and measures them as UTF-8.

What the runtime knows of Unicode beyond the white space it lists (the
normal forms, case and the general categories of marks and format
controls) is not code of this repository: `Unicode` stands for it.
-/

namespace Asimposium

abbrev Text := List UInt16

def unit (c : Char) : UInt16 := c.toNat.toUInt16

def text (literal : String) : Text := literal.toList.map unit

theorem text_ofList (characters : List Char) :
    text (String.ofList characters) = characters.map unit := by
  rw [text, String.toList_ofList]

theorem not_mem_text {u : UInt16} {characters : List Char}
    (h : (characters.all fun c => unit c != u) = true) :
    u ∉ text (String.ofList characters) := by
  intro hmem
  rw [text_ofList] at hmem
  obtain ⟨c, hc, heq⟩ := List.mem_map.mp hmem
  exact bne_iff_ne.mp (List.all_eq_true.mp h c hc) heq

theorem not_mem_intercalate {u : UInt16} {sep : Text} {parts : List Text} (hsep : u ∉ sep)
    (hparts : ∀ part ∈ parts, u ∉ part) : u ∉ List.intercalate sep parts := by
  induction parts with
  | nil => simp [List.intercalate]
  | cons part parts ih =>
      rw [List.forall_mem_cons] at hparts
      cases parts with
      | nil => simpa [List.intercalate] using hparts.1
      | cons part' parts =>
          have hrest := ih hparts.2
          rw [List.intercalate_cons_cons]
          simp only [List.mem_append, not_or]
          exact ⟨⟨hparts.1, hsep⟩, hrest⟩

/-- What holds of every code unit of a string is decided on the string, not
on all code units there are. -/
instance (priority := high) decidableForallUnits {p : UInt16 → Prop} [DecidablePred p]
    (t : List UInt16) : Decidable (∀ u ∈ t, p u) :=
  List.decidableBAll p t

namespace Text

/-! ## Code units -/

def isHighSurrogate (u : UInt16) : Bool := 0xd800 ≤ u && u ≤ 0xdbff

def isLowSurrogate (u : UInt16) : Bool := 0xdc00 ≤ u && u ≤ 0xdfff

def isAscii (u : UInt16) : Bool := u ≤ 0x7f

/-- `[0-9]`. -/
def isDigit (u : UInt16) : Bool := unit '0' ≤ u && u ≤ unit '9'

def isUpper (u : UInt16) : Bool := unit 'A' ≤ u && u ≤ unit 'Z'

def isLower (u : UInt16) : Bool := unit 'a' ≤ u && u ≤ unit 'z'

/-- `[A-Za-z0-9]`. -/
def isAlphanumeric (u : UInt16) : Bool := isUpper u || isLower u || isDigit u

/-- `\s` of a regular expression, which is also what `trim` strips. -/
def isSpace (u : UInt16) : Bool :=
  (9 ≤ u && u ≤ 13) || u == 0x20 || u == 0xa0 || u == 0x1680 || (0x2000 ≤ u && u ≤ 0x200a)
    || u == 0x2028 || u == 0x2029 || u == 0x202f || u == 0x205f || u == 0x3000 || u == 0xfeff

/-- `\p{White_Space}`; no code point above the basic plane has it. -/
def isWhiteSpace (u : UInt16) : Bool :=
  (9 ≤ u && u ≤ 13) || u == 0x20 || u == 0x85 || u == 0xa0 || u == 0x1680
    || (0x2000 ≤ u && u ≤ 0x200a) || u == 0x2028 || u == 0x2029 || u == 0x202f || u == 0x205f
    || u == 0x3000

/-- `\t`, `\n`, `\v`, `\f`, `\r` or a space. -/
def isAsciiSpace (u : UInt16) : Bool := u == 32 || (9 ≤ u && u ≤ 13)

def foldAscii (u : UInt16) : UInt16 := if isUpper u then u + 32 else u

/-- `text.startsWith(part)`. -/
def startsWith (t part : Text) : Bool := part.isPrefixOf t

/-- `text.includes(part)`. -/
def includes (t part : Text) : Bool := decide (part <:+: t)

/-- `text.trim()`. -/
def trim (t : Text) : Text := ((t.dropWhile isSpace).reverse.dropWhile isSpace).reverse

/-! ## Code points -/

/-- The code points of a string, each as its one or two code units; half
of a pair is a code point of its own. -/
def codePoints : Text → List Text
  | [] => []
  | [u] => [[u]]
  | u :: v :: rest =>
      if isHighSurrogate u && isLowSurrogate v then [u, v] :: codePoints rest
      else [u] :: codePoints (v :: rest)

/-- `codePointCountThroughLimit`: the number of code points, counted up to
one more than the limit. -/
def codePointCountThroughLimit (t : Text) (maximum : Nat) : Nat :=
  min t.codePoints.length (maximum + 1)

/-- `firstUnpairedUtf16SurrogateOffset`. -/
def firstUnpairedUtf16SurrogateOffset : Text → Option Nat
  | [] => none
  | [u] => if isHighSurrogate u || isLowSurrogate u then some 0 else none
  | u :: v :: rest =>
      if isHighSurrogate u then
        if isLowSurrogate v then (firstUnpairedUtf16SurrogateOffset rest).map (· + 2) else some 0
      else if isLowSurrogate u then some 0
      else (firstUnpairedUtf16SurrogateOffset (v :: rest)).map (· + 1)

/-! ## Order -/

/-- `compareText(left, right) <= 0`: the order of the code units. -/
def le : Text → Text → Bool
  | [], _ => true
  | _ :: _, [] => false
  | u :: t, v :: s => u < v || (u == v && le t s)

/-! ## UTF-8 -/

def basicBytes (n : Nat) : List Nat :=
  if n < 0x80 then [n]
  else if n < 0x800 then [0xc0 + n / 64, 0x80 + n % 64]
  else [0xe0 + n / 4096, 0x80 + n / 64 % 64, 0x80 + n % 64]

def pairBytes (u v : UInt16) : List Nat :=
  let n := 0x10000 + (u.toNat - 0xd800) * 0x400 + (v.toNat - 0xdc00)
  [0xf0 + n / 262144, 0x80 + n / 4096 % 64, 0x80 + n / 64 % 64, 0x80 + n % 64]

/-- The bytes of a code unit on its own: half of a pair is replaced. -/
def unitBytes (u : UInt16) : List Nat :=
  if isHighSurrogate u || isLowSurrogate u then [0xef, 0xbf, 0xbd] else basicBytes u.toNat

/-- `new TextEncoder().encode(text)`. -/
def utf8 : Text → List Nat
  | [] => []
  | [u] => unitBytes u
  | u :: v :: rest =>
      if isHighSurrogate u && isLowSurrogate v then pairBytes u v ++ utf8 rest
      else unitBytes u ++ utf8 (v :: rest)

/-- `byteLength(text)`. -/
def byteLength (t : Text) : Nat := t.utf8.length

/-- `countNewlines(text)`. -/
def countNewlines (t : Text) : Nat := t.count (unit '\n')

variable {u : UInt16}

theorem not_surrogate (h : isAscii u = true) :
    isHighSurrogate u = false ∧ isLowSurrogate u = false := by
  have hle : u ≤ 0x7f := by simpa [isAscii] using h
  constructor
  · simp only [isHighSurrogate, Bool.and_eq_false_iff, decide_eq_false_iff_not]
    exact .inl fun hge => absurd (UInt16.le_trans hge hle) (by decide)
  · simp only [isLowSurrogate, Bool.and_eq_false_iff, decide_eq_false_iff_not]
    exact .inl fun hge => absurd (UInt16.le_trans hge hle) (by decide)

theorem unitBytes_ascii (h : isAscii u = true) : unitBytes u = [u.toNat] := by
  have hle : u ≤ 0x7f := by simpa [isAscii] using h
  have hlt : u.toNat < 0x80 := by
    have := UInt16.le_iff_toNat_le.mp hle
    simp only [UInt16.reduceToNat] at this
    omega
  simp [unitBytes, not_surrogate h, basicBytes, hlt]

theorem utf8_cons {rest : Text}
    (h : ∀ v tail, rest = v :: tail → (isHighSurrogate u && isLowSurrogate v) = false) :
    utf8 (u :: rest) = unitBytes u ++ utf8 rest := by
  cases rest with
  | nil => simp [utf8]
  | cons v tail => rw [utf8, if_neg (by rw [h v tail rfl]; exact Bool.false_ne_true)]

theorem utf8_append (s : Text) {t : Text} (h : ∀ u ∈ t.head?, isLowSurrogate u = false) :
    utf8 (s ++ t) = utf8 s ++ utf8 t := by
  induction s using codePoints.induct with
  | case1 => rfl
  | case2 u =>
      rw [List.singleton_append, utf8_cons, utf8]
      rintro v tail rfl
      rw [h v rfl, Bool.and_false]
  | case3 u v rest hpair ih =>
      rw [List.cons_append, List.cons_append, utf8, utf8, if_pos hpair, if_pos hpair, ih,
        List.append_assoc]
  | case4 u v rest hpair ih =>
      rw [List.cons_append, List.cons_append, utf8, utf8, if_neg hpair, if_neg hpair,
        ← List.cons_append, ih, List.append_assoc]

theorem byteLength_append (s : Text) {t : Text} (h : ∀ u ∈ t.head?, isLowSurrogate u = false) :
    byteLength (s ++ t) = byteLength s + byteLength t := by
  rw [byteLength, utf8_append s h, List.length_append]
  rfl

theorem byteLength_cons (hu : isAscii u = true) (t : Text) :
    byteLength (u :: t) = 1 + byteLength t := by
  rw [byteLength, utf8_cons fun v tail _ => by rw [(not_surrogate hu).1, Bool.false_and],
    unitBytes_ascii hu, List.length_append]
  rfl

theorem byteLength_ascii {t : Text} (h : ∀ u ∈ t, isAscii u = true) :
    byteLength t = t.length := by
  induction t with
  | nil => rfl
  | cons u t ih =>
      rw [byteLength_cons (h u (List.mem_cons_self ..)), List.length_cons,
        ih fun v hv => h v (List.mem_cons_of_mem _ hv), Nat.add_comm]

/-! ## Numbers -/

/-- `String(n)` of a natural number. -/
def decimal (n : Nat) : Text := (Nat.toDigits 10 n).map unit

/-- `String(n)` of an integer. -/
def ofInt (n : Int) : Text :=
  if n < 0 then unit '-' :: decimal n.natAbs else decimal n.natAbs

def width (n : Nat) : Nat := (decimal n).length

variable {n : Nat}

theorem width_le_iff {k : Nat} (h : 0 < k) : width n ≤ k ↔ n < 10 ^ k := by
  rw [width, decimal, List.length_map]
  exact Nat.length_toDigits_le_iff (by decide) h

theorem width_pos (n : Nat) : 0 < width n := by
  rw [width, decimal, List.length_map]
  exact Nat.length_toDigits_pos

theorem width_mono {m : Nat} (h : m ≤ n) : width m ≤ width n :=
  (width_le_iff (width_pos n)).mpr (h.trans_lt ((width_le_iff (width_pos n)).mp le_rfl))

theorem width_succ_le (n : Nat) : width (n + 1) ≤ width n + 1 := by
  rw [width_le_iff (Nat.succ_pos _)]
  have h := (width_le_iff (width_pos n)).mp le_rfl
  rw [pow_succ]
  omega

theorem width_le_self (h : 1 ≤ n) : width n ≤ n :=
  (width_le_iff h).mpr (Nat.lt_pow_self (by decide))

theorem decimal_digit (h : u ∈ decimal n) : isDigit u = true := by
  obtain ⟨c, hc, rfl⟩ := List.mem_map.mp h
  have hdigit := Nat.isDigit_of_mem_toDigits (by decide) (by decide) hc
  simp only [Char.isDigit, Bool.and_eq_true, decide_eq_true_eq] at hdigit
  have hge : 48 ≤ c.val.toNat := UInt32.le_iff_toNat_le.mp hdigit.1
  have hle : c.val.toNat ≤ 57 := UInt32.le_iff_toNat_le.mp hdigit.2
  have hvalue : (unit c).toNat = c.toNat % 65536 := rfl
  have hnat : c.toNat = c.val.toNat := rfl
  simp only [isDigit, Bool.and_eq_true, decide_eq_true_eq, UInt16.le_iff_toNat_le, hvalue]
  have hzero : (unit '0').toNat = 48 := rfl
  have hnine : (unit '9').toNat = 57 := rfl
  omega

theorem isAscii_of_isDigit (h : isDigit u = true) : isAscii u = true := by
  simp only [isDigit, Bool.and_eq_true, decide_eq_true_eq] at h
  exact decide_eq_true (UInt16.le_trans h.2 (by decide))

theorem ofInt_ascii {n : Int} (h : u ∈ ofInt n) : isAscii u = true := by
  unfold ofInt at h
  split at h
  · rcases List.mem_cons.mp h with rfl | h
    · decide
    · exact isAscii_of_isDigit (decimal_digit h)
  · exact isAscii_of_isDigit (decimal_digit h)

theorem ofInt_natCast (n : Nat) : ofInt n = decimal n := by
  unfold ofInt
  rw [if_neg (by omega), Int.natAbs_natCast]

theorem byteLength_ofInt (n : Int) : byteLength (ofInt n) = (ofInt n).length :=
  byteLength_ascii fun _ h => ofInt_ascii h

end Text

/-! ## Unicode -/

/-- The Unicode tables of the runtime: `normalize("NFKC")`,
`normalize("NFKD")`, `toLowerCase()` and `[\p{M}\p{Cf}]`. -/
structure Unicode where
  nfkc : Text → Text
  nfkd : Text → Text
  toLowerCase : Text → Text
  /-- Of one code point, given by its code units. -/
  isMarkOrFormat : Text → Bool

end Asimposium
