import Mathlib
import Asimposium.Codec.Reading
import Asimposium.Screening.CredentialScan

/-!
# The tokens of a JSON text are its strings

The scan finds strings by a pattern of their own and decodes each with
`JSON.parse`. On a JSON text they are the keys and string values of the value
that is parsed, in the order of the text, and every member counts that is
written.
-/

namespace Asimposium.Screening

open Codec (Value FloatFormat parseText parseValue parseElements parseMembers scanString skipSpace
  scanWord scanNumber NumberToken isJsonSpace hexUnit simpleEscape)
open Text (isDigit)

/-! ## One string -/

/-- A string as the parser reads it and as the pattern cuts it out. -/
def Cuts (t s after : Text) : Prop :=
  ∃ body, t = body ++ after ∧ s.length < body.length
    ∧ ∀ x, rawString (body ++ x) = some (body, x) ∧ scanString (body ++ x) = some (s, x)

theorem rawString_plain {u : UInt16} (hquote : u ≠ unit '"') (hslash : u ≠ unit '\\') (t : Text) :
    rawString (u :: t) = (rawString t).map fun (body, after) => (u :: body, after) := by
  rw [rawString.eq_def (u :: t)]
  dsimp only
  rw [if_neg hquote, if_neg hslash]

theorem rawString_escaped (v : UInt16) (t : Text) :
    rawString (unit '\\' :: v :: t)
      = (rawString t).map fun (body, after) => (unit '\\' :: v :: body, after) := by
  have hquote : unit '\\' ≠ unit '"' := by decide
  rw [rawString.eq_def (unit '\\' :: v :: t)]
  dsimp only
  rw [if_neg hquote, if_pos rfl]

theorem hexDigit_plain {u : UInt16} {n : Nat} (h : Codec.hexDigit u = some n) :
    u ≠ unit '"' ∧ u ≠ unit '\\' := by
  have hquote : Codec.hexDigit (unit '"') = none := by decide
  have hslash : Codec.hexDigit (unit '\\') = none := by decide
  constructor
  · rintro rfl
    rw [hquote] at h
    cases h
  · rintro rfl
    rw [hslash] at h
    cases h

theorem hexUnit_digits {a b c d v : UInt16} (h : hexUnit a b c d = some v) :
    ∀ u ∈ [a, b, c, d], u ≠ unit '"' ∧ u ≠ unit '\\' := by
  simp only [hexUnit, Option.bind_eq_bind, Option.bind_eq_some_iff] at h
  obtain ⟨_, ha, _, hb, _, hc, _, hd, -⟩ := h
  intro u hu
  simp only [List.mem_cons, List.not_mem_nil, or_false] at hu
  rcases hu with rfl | rfl | rfl | rfl
  · exact hexDigit_plain ha
  · exact hexDigit_plain hb
  · exact hexDigit_plain hc
  · exact hexDigit_plain hd

theorem Cuts.closed (after : Text) : Cuts (unit '"' :: after) [] after := by
  refine ⟨[unit '"'], rfl, Nat.one_pos, fun x => ⟨?_, Codec.scanString_closed x⟩⟩
  rw [List.singleton_append, rawString.eq_def (unit '"' :: x)]
  exact if_pos rfl

theorem Cuts.plain {u : UInt16} {t s after : Text} (hquote : u ≠ unit '"') (hcontrol : ¬u < 0x20)
    (hslash : u ≠ unit '\\') (h : Cuts t s after) : Cuts (u :: t) (u :: s) after := by
  obtain ⟨body, rfl, hlength, hcut⟩ := h
  refine ⟨u :: body, rfl, Nat.succ_lt_succ hlength, fun x => ⟨?_, ?_⟩⟩
  · rw [List.cons_append, rawString_plain hquote hslash, (hcut x).1]
    rfl
  · rw [List.cons_append, Codec.scanString_raw hquote hcontrol hslash, (hcut x).2]
    rfl

theorem scanString_hex {a b c d v : UInt16} (h : hexUnit a b c d = some v) (t : Text) :
    scanString (unit '\\' :: unit 'u' :: a :: b :: c :: d :: t)
      = (scanString t).map fun (s, after) => (v :: s, after) := by
  have hquote : unit '\\' ≠ unit '"' := by decide
  have hcontrol : ¬unit '\\' < 0x20 := by decide
  rw [Codec.scanString.eq_def (unit '\\' :: _)]
  dsimp only
  rw [if_neg hquote, if_neg hcontrol, if_pos rfl]
  rw [if_pos rfl, h, Option.bind_some]

theorem Cuts.hex {a b c d v : UInt16} {t s after : Text} (hunit : hexUnit a b c d = some v)
    (h : Cuts t s after) :
    Cuts (unit '\\' :: unit 'u' :: a :: b :: c :: d :: t) (v :: s) after := by
  obtain ⟨body, rfl, hlength, hcut⟩ := h
  have hplain := hexUnit_digits hunit
  simp only [List.forall_mem_cons] at hplain
  obtain ⟨ha, hb, hc, hd, -⟩ := hplain
  refine ⟨unit '\\' :: unit 'u' :: a :: b :: c :: d :: body, rfl,
    by simp only [List.length_cons]; omega, fun x => ⟨?_, ?_⟩⟩
  · simp only [List.cons_append]
    rw [rawString_escaped, rawString_plain ha.1 ha.2, rawString_plain hb.1 hb.2,
      rawString_plain hc.1 hc.2, rawString_plain hd.1 hd.2, (hcut x).1]
    rfl
  · simp only [List.cons_append]
    rw [scanString_hex hunit, (hcut x).2]
    rfl

/-- The units of `null`, `true`, `false` and numbers, and white space. -/
def isScalarUnit (u : UInt16) : Bool :=
  isDigit u || isJsonSpace u || oneOf "+-.eEnultrfas" u

theorem digits_scalar (t : Text) : ∀ u ∈ t.takeWhile isDigit, isScalarUnit u = true := by
  intro u hu
  rw [isScalarUnit, List.mem_takeWhile_imp hu]
  rfl

theorem scanFraction_front {t digits after : Text} (h : Codec.scanFraction t = some (digits, after)) :
    ∃ front, t = front ++ after ∧ ∀ u ∈ front, isScalarUnit u = true := by
  match t with
  | [] =>
      obtain ⟨-, rfl⟩ := Prod.mk.inj (Option.some.inj h)
      exact ⟨[], rfl, by simp⟩
  | u :: rest =>
      rw [Codec.scanFraction] at h
      split at h
      · rename_i hpoint
        split at h
        · cases h
        · obtain ⟨-, rfl⟩ := Prod.mk.inj (Option.some.inj h)
          refine ⟨u :: rest.takeWhile isDigit, ?_, ?_⟩
          · rw [List.cons_append, List.takeWhile_append_dropWhile]
          · rw [List.forall_mem_cons, hpoint]
            exact ⟨by decide, digits_scalar rest⟩
      · obtain ⟨-, rfl⟩ := Prod.mk.inj (Option.some.inj h)
        exact ⟨[], rfl, by simp⟩

theorem scanExponentDigits_front {negative : Bool} {t after : Text} {e : Int}
    (h : Codec.scanExponentDigits negative t = some (e, after)) :
    ∃ front, t = front ++ after ∧ ∀ u ∈ front, isScalarUnit u = true := by
  unfold Codec.scanExponentDigits at h
  dsimp only at h
  split at h
  · cases h
  · obtain ⟨-, rfl⟩ := Prod.mk.inj (Option.some.inj h)
    exact ⟨t.takeWhile isDigit, List.takeWhile_append_dropWhile.symm, digits_scalar t⟩

theorem scanExponent_front {t after : Text} {e : Int}
    (h : Codec.scanExponent t = some (e, after)) :
    ∃ front, t = front ++ after ∧ ∀ u ∈ front, isScalarUnit u = true := by
  match t with
  | [] =>
      obtain ⟨-, rfl⟩ := Prod.mk.inj (Option.some.inj h)
      exact ⟨[], rfl, by simp⟩
  | u :: rest =>
      rw [Codec.scanExponent.eq_def (u :: rest)] at h
      dsimp only at h
      split at h
      · rename_i hmark
        have hu : isScalarUnit u = true := by
          rcases hmark with rfl | rfl <;> decide
        match rest, h with
        | v :: rest', h =>
            dsimp only at h
            split at h
            · rename_i hsign
              obtain ⟨front, rfl, hfront⟩ := scanExponentDigits_front h
              refine ⟨u :: v :: front, rfl, ?_⟩
              rw [List.forall_mem_cons, List.forall_mem_cons, hsign]
              exact ⟨hu, by decide, hfront⟩
            split at h
            · rename_i hsign
              obtain ⟨front, rfl, hfront⟩ := scanExponentDigits_front h
              refine ⟨u :: v :: front, rfl, ?_⟩
              rw [List.forall_mem_cons, List.forall_mem_cons, hsign]
              exact ⟨hu, by decide, hfront⟩
            · obtain ⟨front, heq, hfront⟩ := scanExponentDigits_front h
              exact ⟨u :: front, by rw [heq, List.cons_append],
                List.forall_mem_cons.mpr ⟨hu, hfront⟩⟩
      · obtain ⟨-, rfl⟩ := Prod.mk.inj (Option.some.inj h)
        exact ⟨[], rfl, by simp⟩

theorem scanNumber_front {t after : Text} {token : NumberToken}
    (h : scanNumber t = some (token, after)) :
    ∃ front, t = front ++ after ∧ ∀ u ∈ front, isScalarUnit u = true := by
  have hsign : ∃ front, t = front ++ (Codec.scanSign t).2
      ∧ ∀ u ∈ front, isScalarUnit u = true := by
    match t with
    | [] => exact ⟨[], rfl, by simp⟩
    | u :: rest =>
        by_cases hu : u = unit '-'
        · have hscan : Codec.scanSign (u :: rest) = (true, rest) := if_pos hu
          rw [hscan, hu]
          exact ⟨[unit '-'], rfl, by decide⟩
        · have hscan : Codec.scanSign (u :: rest) = (false, u :: rest) := if_neg hu
          rw [hscan]
          exact ⟨[], rfl, by simp⟩
  obtain ⟨sign, hsignEq, hsignUnits⟩ := hsign
  rw [scanNumber] at h
  dsimp only at h
  split at h
  · cases h
  · simp only [Option.bind_eq_bind, Option.bind_eq_some_iff] at h
    obtain ⟨⟨fraction, t₁⟩, hfraction, ⟨exponent, t₂⟩, hexponent, h⟩ := h
    obtain ⟨-, rfl⟩ := Prod.mk.inj (Option.some.inj h)
    obtain ⟨fractionFront, hfractionEq, hfractionUnits⟩ := scanFraction_front hfraction
    obtain ⟨exponentFront, hexponentEq, hexponentUnits⟩ := scanExponent_front hexponent
    refine ⟨sign ++ ((Codec.scanSign t).2.takeWhile isDigit ++ (fractionFront ++ exponentFront)),
      ?_, ?_⟩
    · rw [List.append_assoc, List.append_assoc, List.append_assoc, ← hexponentEq, ← hfractionEq,
        List.takeWhile_append_dropWhile, ← hsignEq]
    · simp only [List.forall_mem_append]
      exact ⟨hsignUnits, digits_scalar _, hfractionUnits, hexponentUnits⟩

theorem scanWord_front {word : String} (hword : ∀ u ∈ text word, isScalarUnit u = true)
    {t after : Text} (h : scanWord word t = some after) :
    ∃ front, t = front ++ after ∧ ∀ u ∈ front, isScalarUnit u = true := by
  unfold scanWord at h
  split at h
  · rename_i hstarts
    obtain ⟨rest, rfl⟩ := List.isPrefixOf_iff_prefix.mp hstarts
    obtain rfl := Option.some.inj h
    exact ⟨text word, by rw [List.drop_left], hword⟩
  · cases h

/-! ## The strings of a value -/

section Strings

variable {F : Type}

mutual

def strings : Value F → List Text
  | .str t => [t]
  | .arr vs => elementStrings vs
  | .obj ms => memberStrings ms
  | _ => []

def elementStrings : List (Value F) → List Text
  | [] => []
  | v :: vs => strings v ++ elementStrings vs

def memberStrings : List (Text × Value F) → List Text
  | [] => []
  | (k, v) :: ms => k :: (strings v ++ memberStrings ms)

end

variable (format : FloatFormat F)

variable {format}

theorem parseValue_scalar {fuel : Nat} {t rest after : Text} {u : UInt16} {v : Value F}
    (h : parseValue format (fuel + 1) t = some (v, after)) (hskip : skipSpace t = u :: rest)
    (hquote : u ≠ unit '"') (hbracket : u ≠ unit '[') (hbrace : u ≠ unit '\x7b') :
    strings v = [] ∧ ∃ front, u :: rest = front ++ after ∧ ∀ w ∈ front, isScalarUnit w = true := by
  have hword : ∀ {word : String} {w : Value F}, (∀ x ∈ text word, isScalarUnit x = true) →
      strings w = [] → (scanWord word (u :: rest)).map (fun after => (w, after)) = some (v, after) →
      strings v = [] ∧ ∃ front, u :: rest = front ++ after
        ∧ ∀ x ∈ front, isScalarUnit x = true := by
    intro word w hunits hnone h
    obtain ⟨after', hscan, heq⟩ := Option.map_eq_some_iff.mp h
    obtain ⟨rfl, rfl⟩ := Prod.mk.inj heq
    exact ⟨hnone, scanWord_front hunits hscan⟩
  rw [parseValue, hskip] at h
  dsimp only at h
  rw [if_neg hquote, if_neg hbracket, if_neg hbrace] at h
  split at h
  · exact hword (by decide) rfl h
  split at h
  · exact hword (by decide) rfl h
  split at h
  · exact hword (by decide) rfl h
  · obtain ⟨⟨token, after'⟩, hscan, heq⟩ := Option.map_eq_some_iff.mp h
    obtain ⟨rfl, rfl⟩ := Prod.mk.inj heq
    exact ⟨rfl, scanNumber_front hscan⟩

end Strings

end Asimposium.Screening
