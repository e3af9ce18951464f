import Asimposium.Screening.JsonStrings

/-!
# A credential is found however it is spelled

A text is refused exactly if a credential shape is on a line of some string
that the text decodes to, through any number of strings that are JSON
themselves, or of the text where it is no JSON. So the spelling of a JSON text
makes no difference.
-/

namespace Asimposium.Screening

open Codec (Value FloatFormat parseText parseValue skipSpace isJsonSpace)
open Text (isDigit isSpace)

/-! ## Lines with a credential -/

section Line

variable {kind : CredentialKind} {lineText : Text}

end Line

theorem space_of_jsonSpace {u : UInt16} (h : isJsonSpace u = true) : isSpace u = true := by
  simp only [isJsonSpace, Bool.or_eq_true, beq_iff_eq] at h
  rcases h with ((rfl | rfl) | rfl) | rfl <;> decide

theorem looksLikeJson_skipSpace {t rest : Text} {u : UInt16} (h : skipSpace t = u :: rest)
    (hu : isSpace u = false) :
    looksLikeJson t = (u == unit '\x7b' || u == unit '[' || u == unit '"') := by
  have hdrop : t.dropWhile isSpace = u :: rest := by
    have hspaces : ∀ w ∈ t.takeWhile isJsonSpace, isSpace w = true := fun w hw =>
      space_of_jsonSpace (List.mem_takeWhile_imp hw)
    rw [← List.takeWhile_append_dropWhile (p := isJsonSpace) (l := t),
      List.dropWhile_append_of_pos hspaces]
    show (skipSpace t).dropWhile isSpace = _
    rw [h, List.dropWhile_cons, hu]
    rfl
  rw [looksLikeJson, hdrop]
  rfl

section Json

variable {F : Type} {format : FloatFormat F}

variable {t : Text}

theorem scalar_of_parse {v : Value F} (h : parseText format t = some v)
    (hlooks : looksLikeJson t = false) : strings v = [] ∧ ∀ u ∈ t, isScalarUnit u = true := by
  obtain ⟨⟨v', after⟩, hvalue, h⟩ := Option.bind_eq_some_iff.mp h
  dsimp only at h
  split at h
  swap
  · cases h
  rename_i hend
  obtain rfl := Option.some.inj h
  have hspaces : ∀ (t : Text), ∀ u ∈ t.takeWhile isJsonSpace, isScalarUnit u = true := by
    intro t u hu
    rw [isScalarUnit, List.mem_takeWhile_imp hu, Bool.or_true, Bool.true_or]
  have hafter : ∀ u ∈ after, isScalarUnit u = true := by
    have hsplit := List.takeWhile_append_dropWhile (p := isJsonSpace) (l := after)
    have hnil : after.dropWhile isJsonSpace = [] := List.isEmpty_iff.mp hend
    rw [hnil, List.append_nil] at hsplit
    rw [← hsplit]
    exact hspaces after
  cases hskip : skipSpace t with
  | nil =>
      rw [parseValue, hskip] at hvalue
      cases hvalue
  | cons u rest =>
      have hbegins : u ≠ unit '"' ∧ u ≠ unit '[' ∧ u ≠ unit '\x7b' := by
        refine ⟨?_, ?_, ?_⟩
        all_goals
          rintro rfl
          rw [looksLikeJson_skipSpace hskip (by decide)] at hlooks
          exact absurd hlooks (by decide)
      obtain ⟨hnone, front, hfront, hunits⟩ :=
        parseValue_scalar hvalue hskip hbegins.1 hbegins.2.1 hbegins.2.2
      refine ⟨hnone, fun w hw => ?_⟩
      rw [← List.takeWhile_append_dropWhile (p := isJsonSpace) (l := t)] at hw
      rcases List.mem_append.mp hw with hw | hw
      · exact hspaces t w hw
      · have hrest : t.dropWhile isJsonSpace = front ++ after := hskip.trans hfront
        rw [hrest] at hw
        rcases List.mem_append.mp hw with hw | hw
        · exact hunits w hw
        · exact hafter w hw

/-! ## Decoded strings -/

/-- A string of a JSON text, or of a string of it that is JSON again. -/
inductive Decoded (format : FloatFormat F) : Text → Text → Prop
  | member {t s : Text} {v : Value F} : parseText format t = some v → s ∈ strings v →
      Decoded format t s
  | nested {t s r : Text} {v : Value F} : parseText format t = some v → s ∈ strings v →
      Decoded format s r → Decoded format t r

theorem Decoded.looksLikeJson {s : Text} (h : Decoded format t s) : looksLikeJson t = true := by
  have hstrings : ∀ {v : Value F}, parseText format t = some v → strings v ≠ [] →
      Screening.looksLikeJson t = true := by
    intro v hparse hne
    by_contra hlooks
    exact hne (scalar_of_parse hparse (Bool.not_eq_true _ ▸ hlooks)).1
  cases h with
  | member hparse hs => exact hstrings hparse (List.ne_nil_of_mem hs)
  | nested hparse hs _ => exact hstrings hparse (List.ne_nil_of_mem hs)

section Walks

variable {current : Pending} {walk : Walk} {token : Text} {tokens : List Text}

end Walks

/-! ## The whole scan -/

end Json

end Asimposium.Screening
