import Mathlib.Data.String.Basic
import Mathlib.Data.List.Infix

/-!
# The JavaScript values the ledger code rests on

Numbers that the code only admits after `Number.isSafeInteger` are
integers here, with that check kept explicit. Strings are sequences of
Unicode scalars; `trim` is only ever used to ask whether anything is
left, so the model carries that question (`isBlank`).

`dateTime` reads the one spelling of an instant the code accepts: the
one `Date.prototype.toISOString` gives back.
-/

namespace Asimposium

/-- `Number.MAX_SAFE_INTEGER`. -/
def maxSafeInteger : Nat := 9007199254740991

/-- `Number.isSafeInteger` on an integral value. -/
def isSafeInteger (n : Int) : Bool := n.natAbs ≤ maxSafeInteger

/-- White space and line terminators, as `String.prototype.trim` strips
them. -/
def isJsSpace (c : Char) : Bool :=
  let n := c.toNat
  (9 ≤ n && n ≤ 13) || n == 0x20 || n == 0xA0 || n == 0x1680
    || (0x2000 ≤ n && n ≤ 0x200A) || n == 0x2028 || n == 0x2029
    || n == 0x202F || n == 0x205F || n == 0x3000 || n == 0xFEFF

/-- `text.trim().length === 0`. -/
def isBlank (text : String) : Bool := text.toList.all isJsSpace

/-- `text.length`: the number of UTF-16 code units. -/
def utf16Length (text : String) : Nat :=
  text.toList.foldl (fun units c => units + if 0x10000 ≤ c.toNat then 2 else 1) 0

theorem utf16Units_le (c : Char) : (if 0x10000 ≤ c.toNat then 2 else 1) ≤ c.utf8Size := by
  split
  · rename_i hlarge
    have hval : 0xffff < c.val := by
      rw [UInt32.lt_iff_toNat_lt]
      exact hlarge
    rw [Char.utf8Size_eq_four_iff.mpr hval]
    omega
  · exact c.utf8Size_pos

theorem utf16Length_le (text : String) : utf16Length text ≤ text.utf8ByteSize := by
  have hfold : ∀ (cs : List Char) (n : Nat),
      cs.foldl (fun units c => units + if 0x10000 ≤ c.toNat then 2 else 1) n
        ≤ n + (String.ofList cs).utf8ByteSize := by
    intro cs
    induction cs with
    | nil => simp
    | cons c cs ih =>
        intro n
        rw [List.foldl_cons, String.ofList_cons, String.utf8ByteSize_append,
          String.utf8ByteSize_singleton]
        have hrest := ih (n + if 0x10000 ≤ c.toNat then 2 else 1)
        have hunits := utf16Units_le c
        omega
  simpa [utf16Length] using hfold text.toList 0

/-! ## Text -/

/-- `text.includes(part)`. -/
def includes (text part : String) : Bool := decide (part.toList <:+: text.toList)

/-- `\w` of a regular expression. -/
def isWordChar (c : Char) : Bool := c.isAlphanum || c == '_'

/-- The words of a text: what `\b(?:…)\b` can match as a whole. -/
def words (text : String) : List String :=
  (text.toList.splitOnP fun c => !isWordChar c).map String.ofList

/-- One character of `JSON.stringify` of a string. -/
def escapeJson (c : Char) : String :=
  if c = '"' then "\\\""
  else if c = '\\' then "\\\\"
  else if c.toNat = 8 then "\\b"
  else if c.toNat = 9 then "\\t"
  else if c.toNat = 10 then "\\n"
  else if c.toNat = 12 then "\\f"
  else if c.toNat = 13 then "\\r"
  else if c.toNat < 0x20 then
    "\\u00" ++ String.ofList [Nat.digitChar (c.toNat / 16), Nat.digitChar (c.toNat % 16)]
  else c.toString

/-- `JSON.stringify(text)`. -/
def quoteJson (text : String) : String :=
  "\"" ++ String.join (text.toList.map escapeJson) ++ "\""

/-! ## Instants -/

def civilDate (days : Int) : Int × Int × Int :=
  let z := days + 719468
  let era := z / 146097
  let dayOfEra := z % 146097
  let yearOfEra := (dayOfEra - dayOfEra / 1460 + dayOfEra / 36524 - dayOfEra / 146096) / 365
  let dayOfYear := dayOfEra - (365 * yearOfEra + yearOfEra / 4 - yearOfEra / 100)
  let shifted := (5 * dayOfYear + 2) / 153
  let day := dayOfYear - (153 * shifted + 2) / 5 + 1
  let month := if shifted < 10 then shifted + 3 else shifted - 9
  (yearOfEra + era * 400 + (if month ≤ 2 then 1 else 0), month, day)

def civilDay (year month day : Int) : Int :=
  let y := if month ≤ 2 then year - 1 else year
  let era := y / 400
  let yearOfEra := y % 400
  let dayOfYear := (153 * (if 2 < month then month - 3 else month + 9) + 2) / 5 + day - 1
  era * 146097 + (yearOfEra * 365 + yearOfEra / 4 - yearOfEra / 100 + dayOfYear) - 719468

def padded (width n : Nat) : String :=
  let digits := toString n
  String.ofList (List.replicate (width - digits.length) '0') ++ digits

/-- `new Date(time).toISOString()`. -/
def isoString (time : Int) : String :=
  let (year, month, day) := civilDate (time / 86400000)
  let ms := (time % 86400000).toNat
  let yearText := if 0 ≤ year ∧ year ≤ 9999 then padded 4 year.toNat
    else (if year < 0 then "-" else "+") ++ padded 6 year.natAbs
  yearText ++ "-" ++ padded 2 month.toNat ++ "-" ++ padded 2 day.toNat ++ "T"
    ++ padded 2 (ms / 3600000) ++ ":" ++ padded 2 (ms / 60000 % 60) ++ ":"
    ++ padded 2 (ms / 1000 % 60) ++ "." ++ padded 3 (ms % 1000) ++ "Z"

def digitsValue (digits : List Char) : Nat :=
  digits.foldl (fun value digit => 10 * value + (digit.toNat - '0'.toNat)) 0

/-- `Date.parse(text)`, when its result is a time value that prints as
the text again. -/
def dateTime (text : String) : Option Int :=
  let (sign, year, rest) : Int × List Char × List Char := match text.toList with
    | '+' :: cs => (1, cs.take 6, cs.drop 6)
    | '-' :: cs => (-1, cs.take 6, cs.drop 6)
    | cs => (1, cs.take 4, cs.drop 4)
  match rest with
  | ['-', m₁, m₂, '-', d₁, d₂, 'T', h₁, h₂, ':', n₁, n₂, ':', s₁, s₂, '.', f₁, f₂, f₃, 'Z'] =>
      let days := civilDay (sign * digitsValue year) (digitsValue [m₁, m₂]) (digitsValue [d₁, d₂])
      let time := days * 86400000 + digitsValue [h₁, h₂] * 3600000 + digitsValue [n₁, n₂] * 60000
        + digitsValue [s₁, s₂] * 1000 + digitsValue [f₁, f₂, f₃]
      if isoString time = text ∧ time.natAbs ≤ 8640000000000000 then some time else none
  | _ => none

end Asimposium
