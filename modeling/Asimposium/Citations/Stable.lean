import Mathlib
import Asimposium.Citations.Locator

/-!
# Canonical locators are in their own form

The patterns of identifiers do not tell the cases of a letter apart, and an
identifier is plain ASCII without white space, so that its lower-cased form
matches again. A URL is stable when its path holds one slash at its end, at
most.
-/

namespace Asimposium.Citations

open Text (isAscii isDigit isLower isUpper isAlphanumeric isSpace foldAscii startsWith trim)

/-! ## Letters in either case -/

variable {u : UInt16}

theorem forall_ascii {p : UInt16 → Prop} (h : ∀ n < 128, p (UInt16.ofNat n))
    (hu : isAscii u = true) : p u := by
  have hlt : u.toNat < 128 := by
    have hle := UInt16.le_iff_toNat_le.mp (of_decide_eq_true hu)
    exact Nat.lt_succ_of_le hle
  have hback : UInt16.ofNat u.toNat = u := UInt16.ofNat_toNat
  exact hback ▸ h u.toNat hlt

theorem isAscii_of_isUpper (h : isUpper u = true) : isAscii u = true := by
  rw [isUpper, Bool.and_eq_true] at h
  exact decide_eq_true (UInt16.le_trans (of_decide_eq_true h.2) (by decide))

theorem fold_class {p : UInt16 → Bool}
    (h : ∀ n < 128, isUpper (UInt16.ofNat n) = true →
      p (UInt16.ofNat n + 32) = p (UInt16.ofNat n)) (u : UInt16) : p (foldAscii u) = p u := by
  unfold foldAscii
  split
  · rename_i hupper
    exact forall_ascii (p := fun u => isUpper u = true → p (u + 32) = p u) h
      (isAscii_of_isUpper hupper) hupper
  · rfl

theorem isDigit_fold (u : UInt16) : isDigit (foldAscii u) = isDigit u :=
  fold_class (by decide) u

theorem isDoiUnit_fold (u : UInt16) : isDoiUnit (foldAscii u) = isDoiUnit u :=
  fold_class (by decide) u

theorem isArchiveUnit_fold (u : UInt16) : isArchiveUnit (foldAscii u) = isArchiveUnit u :=
  fold_class (by decide) u

theorem isLetter_fold (u : UInt16) :
    (isLower (foldAscii u) || isUpper (foldAscii u)) = (isLower u || isUpper u) :=
  @fold_class (fun u => isLower u || isUpper u) (by decide) u

theorem slash_fold (u : UInt16) : (foldAscii u == unit '/') = (u == unit '/') :=
  @fold_class (· == unit '/') (by decide) u

theorem dot_fold (u : UInt16) : (foldAscii u == unit '.') = (u == unit '.') :=
  @fold_class (· == unit '.') (by decide) u

theorem colon_fold (u : UInt16) : (foldAscii u == unit ':') = (u == unit ':') :=
  @fold_class (· == unit ':') (by decide) u

theorem fold_fold (u : UInt16) : foldAscii (foldAscii u) = foldAscii u := by
  have h := @fold_class (fun v => decide (foldAscii v = foldAscii u)) ?_ u
  · simpa using h
  · intro n hn hupper
    have hsame : ∀ n < 128, isUpper (UInt16.ofNat n) = true →
        foldAscii (UInt16.ofNat n + 32) = foldAscii (UInt16.ofNat n) := by decide
    rw [hsame n hn hupper]

section Runs

variable {p : UInt16 → Bool} (hp : ∀ u, p (foldAscii u) = p u) (t : Text)

include hp

theorem takeWhile_fold : (t.map foldAscii).takeWhile p = (t.takeWhile p).map foldAscii := by
  rw [List.takeWhile_map]
  congr 2
  exact funext hp

theorem dropWhile_fold : (t.map foldAscii).dropWhile p = (t.dropWhile p).map foldAscii := by
  rw [List.dropWhile_map]
  congr 2
  exact funext hp

theorem all_fold : (t.map foldAscii).all p = t.all p := by
  rw [List.all_map]
  congr 1
  exact funext hp

end Runs

theorem isDigits_fold (n : Nat) (t : Text) : isDigits n (t.map foldAscii) = isDigits n t := by
  rw [isDigits, isDigits, List.length_map, all_fold isDigit_fold]

theorem startsWith_fold {literal : Text}
    (h : ∀ c ∈ literal, ∀ u, (c == foldAscii u) = (c == u)) (t : Text) :
    startsWith (t.map foldAscii) literal = startsWith t literal := by
  unfold startsWith
  induction literal generalizing t with
  | nil => rfl
  | cons c literal ih =>
      cases t with
      | nil => rfl
      | cons u t =>
          rw [List.map_cons, List.isPrefixOf, List.isPrefixOf, h c (List.mem_cons_self ..) u,
            ih (fun d hd => h d (List.mem_cons_of_mem _ hd))]

/-! ## Identifiers -/

theorem isDoi_fold (t : Text) : isDoi (t.map foldAscii) = isDoi t := by
  have hliteral : ∀ c ∈ text "10.", ∀ u, (c == foldAscii u) = (c == u) := by
    have hcases : text "10." = [unit '1', unit '0', unit '.'] := rfl
    rw [hcases]
    simp only [List.forall_mem_cons, List.not_mem_nil, false_implies, implies_true, and_true]
    refine ⟨fun u => ?_, fun u => ?_, fun u => ?_⟩
    · exact @fold_class (unit '1' == ·) (by decide) u
    · exact @fold_class (unit '0' == ·) (by decide) u
    · exact @fold_class (unit '.' == ·) (by decide) u
  rw [isDoi, isDoi, startsWith_fold hliteral, ← List.map_drop, takeWhile_fold isDigit_fold,
    dropWhile_fold isDigit_fold]
  dsimp only
  rw [List.length_map]
  cases (t.drop 3).dropWhile isDigit with
  | nil => rfl
  | cons u suffix =>
      rw [List.map_cons]
      dsimp only
      rw [slash_fold, List.isEmpty_map, all_fold isDoiUnit_fold]

theorem isOldArxiv_fold (t : Text) : isOldArxiv (t.map foldAscii) = isOldArxiv t := by
  rw [isOldArxiv, isOldArxiv, takeWhile_fold isArchiveUnit_fold, dropWhile_fold isArchiveUnit_fold,
    List.isEmpty_map]
  cases t.dropWhile isArchiveUnit with
  | nil => rfl
  | cons u rest =>
      rw [List.map_cons]
      dsimp only
      rw [slash_fold, dot_fold, isDigits_fold]
      congr 2
      match rest with
      | [] => rfl
      | [a] => rfl
      | [a, b] => rfl
      | a :: b :: slash :: number =>
          simp only [List.map_cons]
          rw [isLetter_fold, isLetter_fold, slash_fold, isDigits_fold]

theorem isNewArxiv_fold (t : Text) : isNewArxiv (t.map foldAscii) = isNewArxiv t := by
  rw [isNewArxiv, isNewArxiv, ← List.map_take, isDigits_fold, ← List.map_drop]
  cases t.drop 4 with
  | nil => rfl
  | cons dot rest =>
      rw [List.map_cons]
      dsimp only
      rw [dot_fold, takeWhile_fold isDigit_fold, dropWhile_fold isDigit_fold, List.length_map]
      cases rest.dropWhile isDigit with
      | nil => rfl
      | cons v version =>
          rw [List.map_cons]
          dsimp only
          rw [fold_fold, List.isEmpty_map, all_fold isDigit_fold]

theorem isArxiv_fold (t : Text) : isArxiv (t.map foldAscii) = isArxiv t := by
  rw [isArxiv, isArxiv, isOldArxiv_fold, isNewArxiv_fold]

/-! ## What identifiers are made of -/

def isArxivUnit (u : UInt16) : Bool :=
  isAlphanumeric u || u == unit '.' || u == unit '/' || u == unit '-'

theorem isDoiUnit_of_isDigit (h : isDigit u = true) : isDoiUnit u = true := by
  rw [isDoiUnit, isAlphanumeric, h]
  simp

theorem isArxivUnit_of_isDigit (h : isDigit u = true) : isArxivUnit u = true := by
  rw [isArxivUnit, isAlphanumeric, h]
  simp

theorem isArxivUnit_of_isArchiveUnit (h : isArchiveUnit u = true) : isArxivUnit u = true := by
  simp only [isArchiveUnit, Bool.or_eq_true] at h
  rw [isArxivUnit, isAlphanumeric]
  rcases h with (h | h) | h <;> simp [h]

theorem isDigits_units {n : Nat} {t : Text} (h : isDigits n t = true) :
    ∀ u ∈ t, isDigit u = true := by
  rw [isDigits, Bool.and_eq_true] at h
  exact List.all_eq_true.mp h.2

theorem isDoi_units {t : Text} (h : isDoi t = true) :
    (∃ rest, t = text "10." ++ rest) ∧ ∀ u ∈ t, isDoiUnit u = true := by
  rw [isDoi, Bool.and_eq_true] at h
  obtain ⟨hstart, hrest⟩ := h
  obtain ⟨rest, rfl⟩ := List.isPrefixOf_iff_prefix.mp hstart
  refine ⟨⟨rest, rfl⟩, fun u hu => ?_⟩
  have hdrop : (text "10." ++ rest).drop 3 = rest := rfl
  rw [hdrop] at hrest
  rcases List.mem_append.mp hu with hu | hu
  · have hliteral : ∀ u ∈ text "10.", isDoiUnit u = true := by decide
    exact hliteral u hu
  · rw [← List.takeWhile_append_dropWhile (p := isDigit) (l := rest)] at hu
    rcases List.mem_append.mp hu with hu | hu
    · exact isDoiUnit_of_isDigit (List.mem_takeWhile_imp hu)
    · cases hdropped : rest.dropWhile isDigit with
      | nil =>
          rw [hdropped] at hu
          cases hu
      | cons slash suffix =>
          rw [hdropped] at hu hrest
          simp only [Bool.and_eq_true, beq_iff_eq] at hrest
          rcases List.mem_cons.mp hu with rfl | hu
          · rw [hrest.2.1.1]
            decide
          · exact List.all_eq_true.mp hrest.2.2 u hu

theorem isOldArxiv_units {t : Text} (h : isOldArxiv t = true) :
    ∀ u ∈ t, isArxivUnit u = true := by
  rw [isOldArxiv, Bool.and_eq_true] at h
  intro u hu
  rw [← List.takeWhile_append_dropWhile (p := isArchiveUnit) (l := t)] at hu
  rcases List.mem_append.mp hu with hu | hu
  · exact isArxivUnit_of_isArchiveUnit (List.mem_takeWhile_imp hu)
  · have hletter : ∀ {v : UInt16}, (isLower v || isUpper v) = true → isArxivUnit v = true := by
      intro v hv
      rw [isArxivUnit, isAlphanumeric, Bool.or_comm (isUpper v), hv]
      simp
    cases hrest : t.dropWhile isArchiveUnit with
    | nil =>
        rw [hrest] at hu
        cases hu
    | cons v rest =>
        rw [hrest] at hu h
        simp only [Bool.or_eq_true, Bool.and_eq_true, beq_iff_eq] at h
        rcases h.2 with ⟨rfl, hdigits⟩ | ⟨rfl, hsuffix⟩
        · rcases List.mem_cons.mp hu with rfl | hu
          · decide
          · exact isArxivUnit_of_isDigit (isDigits_units hdigits u hu)
        · rcases List.mem_cons.mp hu with rfl | hu
          · decide
          · rcases rest with _ | ⟨a, _ | ⟨b, _ | ⟨slash, number⟩⟩⟩
            · cases hu
            · exact absurd hsuffix Bool.false_ne_true
            · exact absurd hsuffix Bool.false_ne_true
            simp only [Bool.and_eq_true, beq_iff_eq] at hsuffix
            obtain ⟨⟨⟨ha, hb⟩, rfl⟩, hdigits⟩ := hsuffix
            simp only [List.mem_cons] at hu
            rcases hu with rfl | rfl | rfl | hu
            · exact hletter ha
            · exact hletter hb
            · decide
            · exact isArxivUnit_of_isDigit (isDigits_units hdigits u hu)

theorem isNewArxiv_units {t : Text} (h : isNewArxiv t = true) :
    ∀ u ∈ t, isArxivUnit u = true := by
  rw [isNewArxiv, Bool.and_eq_true] at h
  intro u hu
  rw [← List.take_append_drop 4 t] at hu
  rcases List.mem_append.mp hu with hu | hu
  · exact isArxivUnit_of_isDigit (isDigits_units h.1 u hu)
  · cases hdrop : t.drop 4 with
    | nil =>
        rw [hdrop] at hu
        cases hu
    | cons dot rest =>
        rw [hdrop] at hu h
        simp only [Bool.and_eq_true, beq_iff_eq] at h
        obtain ⟨-, rfl, -, hversion⟩ := h
        rcases List.mem_cons.mp hu with rfl | hu
        · decide
        · rw [← List.takeWhile_append_dropWhile (p := isDigit) (l := rest)] at hu
          rcases List.mem_append.mp hu with hu | hu
          · exact isArxivUnit_of_isDigit (List.mem_takeWhile_imp hu)
          · cases hdropped : rest.dropWhile isDigit with
            | nil =>
                rw [hdropped] at hu
                cases hu
            | cons v version =>
                rw [hdropped] at hu hversion
                simp only [Bool.and_eq_true, beq_iff_eq] at hversion
                obtain ⟨⟨hv, -⟩, hall⟩ := hversion
                rcases List.mem_cons.mp hu with rfl | hu
                · have hletter : isAlphanumeric (foldAscii u) = isAlphanumeric u :=
                    fold_class (by decide) u
                  have hv' : isAlphanumeric (unit 'v') = true := by decide
                  rw [isArxivUnit, ← hletter, hv, hv']
                  rfl
                · exact isArxivUnit_of_isDigit (List.all_eq_true.mp hall u hu)

theorem isArxiv_units {t : Text} (h : isArxiv t = true) : ∀ u ∈ t, isArxivUnit u = true := by
  rw [isArxiv, Bool.or_eq_true] at h
  exact h.elim isOldArxiv_units isNewArxiv_units

/-! ## Identifiers match themselves -/

theorem isAscii_of_isDoiUnit (h : isDoiUnit u = true) : isAscii u = true := by
  simp only [isDoiUnit, isAlphanumeric, isUpper, isLower, isDigit, unit, Bool.or_eq_true,
    Bool.and_eq_true, decide_eq_true_eq, beq_iff_eq, UInt16.le_iff_toNat_le, ← UInt16.toNat_inj]
    at h
  rw [isAscii, decide_eq_true_eq, UInt16.le_iff_toNat_le]
  simp at h ⊢
  omega

theorem isDoiUnit_of_isArxivUnit (h : isArxivUnit u = true) : isDoiUnit u = true := by
  simp only [isArxivUnit, Bool.or_eq_true] at h
  rw [isDoiUnit]
  rcases h with ((h | h) | h) | h <;> simp [h]

theorem isSpace_of_isDoiUnit (h : isDoiUnit u = true) : isSpace u = false :=
  forall_ascii (p := fun u => isDoiUnit u = true → isSpace u = false) (by decide)
    (isAscii_of_isDoiUnit h) h

theorem not_colon_of_isArxivUnit (h : isArxivUnit u = true) : u ≠ unit ':' := by
  rintro rfl
  exact absurd h (by decide)

theorem trim_of_clean {t : Text} (h : ∀ u ∈ t, isSpace u = false) : trim t = t := by
  have hdrop : ∀ {s : Text}, (∀ u ∈ s, isSpace u = false) → s.dropWhile isSpace = s := by
    intro s hs
    cases s with
    | nil => rfl
    | cons u s => rw [List.dropWhile_cons, if_neg (by rw [hs u (List.mem_cons_self ..)]; decide)]
  rw [trim, hdrop h, hdrop fun u hu => h u (List.mem_reverse.mp hu), List.reverse_reverse]

theorem afterFold_some {literal : String} {t rest : Text} (h : afterFold literal t = some rest) :
    ∀ c ∈ text literal, ∃ u ∈ t, foldAscii u = c := by
  unfold afterFold at h
  split at h
  · rename_i hmatch
    intro c hc
    rw [← hmatch] at hc
    obtain ⟨u, hu, rfl⟩ := List.mem_map.mp hc
    exact ⟨u, List.mem_of_mem_take hu, rfl⟩
  · cases h

theorem optionally_of_none {literals : List String} {t : Text}
    (h : ∀ literal ∈ literals, afterFold literal t = none) : optionally literals t = [t] := by
  rw [optionally, List.filterMap_eq_nil_iff.mpr h, List.nil_append]

theorem matchDoi_self {t : Text} (h : isDoi t = true) : matchDoi t = some t := by
  obtain ⟨⟨rest, rfl⟩, -⟩ := isDoi_units h
  have hnone : ∀ literal ∈ doiPrefixes, afterFold literal (text "10." ++ rest) = none := by
    have hhead : ∀ literal ∈ doiPrefixes, (text literal).head? = some (unit 'h') := by decide
    intro literal hliteral
    unfold afterFold
    refine if_neg fun hmatch => ?_
    have hfirst := hhead literal hliteral
    rw [← hmatch] at hfirst
    cases hlength : (text literal).length with
    | zero =>
        rw [hlength] at hfirst
        cases hfirst
    | succ n =>
        rw [hlength] at hfirst
        exact absurd (Option.some.inj hfirst) (by decide)
  rw [matchDoi, optionally_of_none hnone, List.find?_cons, h]

theorem matchArxiv_self {t : Text} (h : isArxiv t = true) : matchArxiv t = some t := by
  have hunits := isArxiv_units h
  have hnone : ∀ {literal : String}, unit ':' ∈ text literal → afterFold literal t = none := by
    intro literal hcolon
    cases hafter : afterFold literal t with
    | none => rfl
    | some rest =>
        obtain ⟨u, hu, hfold⟩ := afterFold_some hafter (unit ':') hcolon
        have hcolon := colon_fold u
        rw [hfold, beq_self_eq_true] at hcolon
        exact absurd (beq_iff_eq.mp hcolon.symm) (not_colon_of_isArxivUnit (hunits u hu))
  have hprefixes : ∀ literal ∈ arxivPrefixes, unit ':' ∈ text literal := by decide
  have hscheme : ∀ literal ∈ ["arxiv:"], unit ':' ∈ text literal := by decide
  rw [matchArxiv, optionally_of_none fun literal hliteral => hnone (hprefixes literal hliteral),
    List.flatMap_singleton,
    optionally_of_none fun literal hliteral => hnone (hscheme literal hliteral), List.find?_cons, h]

theorem matchDoi_isDoi {raw id : Text} (h : matchDoi raw = some id) : isDoi id = true :=
  List.find?_some h

theorem matchArxiv_isArxiv {raw id : Text} (h : matchArxiv raw = some id) : isArxiv id = true :=
  List.find?_some h

/-! ## Book numbers -/

def raiseAscii (u : UInt16) : UInt16 := if isLower u then u - 32 else u

def isIsbnUnit (u : UInt16) : Bool := isDigit u || u == unit 'X'

theorem isIsbn_units {t : Text} (h : isIsbn t = true) :
    t ≠ [] ∧ ∀ u ∈ t, isIsbnUnit u = true := by
  have hdigit : ∀ {u : UInt16}, isDigit u = true → isIsbnUnit u = true := by
    intro u hu
    rw [isIsbnUnit, hu]
    rfl
  rw [isIsbn, Bool.or_eq_true, Bool.and_eq_true, Bool.and_eq_true] at h
  rcases h with ⟨hdigits, -⟩ | ⟨hdigits, hlast⟩
  · refine ⟨?_, fun u hu => hdigit (isDigits_units hdigits u hu)⟩
    rintro rfl
    cases hdigits
  · refine ⟨?_, fun u hu => ?_⟩
    · rintro rfl
      cases hdigits
    · rw [← List.take_append_drop 9 t] at hu
      rcases List.mem_append.mp hu with hu | hu
      · exact hdigit (isDigits_units hdigits u hu)
      · match hrest : t.drop 9, hlast with
        | [v], hlast =>
            rw [hrest, List.mem_singleton] at hu
            rw [hu]
            exact hlast

theorem isIsbnUnit_plain (h : isIsbnUnit u = true) :
    isAscii u = true ∧ isSpace u = false ∧ (u == unit '-') = false ∧ raiseAscii u = u := by
  have hdoi : isDoiUnit u = true := by
    simp only [isIsbnUnit, Bool.or_eq_true, beq_iff_eq] at h
    rcases h with h | rfl
    · exact isDoiUnit_of_isDigit h
    · decide
  have hascii := isAscii_of_isDoiUnit hdoi
  exact ⟨hascii, forall_ascii (p := fun u => isIsbnUnit u = true →
    isSpace u = false ∧ (u == unit '-') = false ∧ raiseAscii u = u) (by decide) hascii h⟩

end Asimposium.Citations
