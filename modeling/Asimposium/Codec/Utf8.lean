import Asimposium.Lib.PrefixFree
import Asimposium.Render.Text
import Asimposium.Codec.Canonical

/-!
# Texts by their bytes

`TextEncoder` replaces half of a surrogate pair, so texts that hold one are not
told apart by their bytes. Texts without one are: the bytes of a code point
begin with its length.
-/

namespace Asimposium.Codec

open Text (isAscii isHighSurrogate isLowSurrogate basicBytes pairBytes unitBytes utf8)

inductive WellFormed : Text → Prop
  | nil : WellFormed []
  | unit {u : UInt16} {t : Text} : isHighSurrogate u = false → isLowSurrogate u = false →
      WellFormed t → WellFormed (u :: t)
  | pair {u v : UInt16} {t : Text} : isHighSurrogate u = true → isLowSurrogate v = true →
      WellFormed t → WellFormed (u :: v :: t)

theorem WellFormed.append {s t : Text} (hs : WellFormed s) (ht : WellFormed t) :
    WellFormed (s ++ t) := by
  induction hs with
  | nil => exact ht
  | unit hhigh hlow _ ih => exact .unit hhigh hlow ih
  | pair hhigh hlow _ ih => exact .pair hhigh hlow ih

theorem wellFormed_ascii {t : Text} (h : ∀ u ∈ t, isAscii u = true) : WellFormed t := by
  induction t with
  | nil => exact .nil
  | cons u t ih =>
      rw [List.forall_mem_cons] at h
      have hplain := Text.not_surrogate h.1
      exact .unit hplain.1 hplain.2 (ih h.2)

/-! ## Bytes of a well-formed text -/

variable {u : UInt16}

theorem utf8_unit (hhigh : isHighSurrogate u = false) (hlow : isLowSurrogate u = false) (t : Text) :
    utf8 (u :: t) = basicBytes u.toNat ++ utf8 t := by
  have hbytes : unitBytes u = basicBytes u.toNat := by
    rw [unitBytes, hhigh, hlow]
    rfl
  rw [Text.utf8_cons fun v tail _ => by rw [hhigh, Bool.false_and], hbytes]

variable {v : UInt16}

theorem utf8_pair (hhigh : isHighSurrogate u = true) (hlow : isLowSurrogate v = true) (t : Text) :
    utf8 (u :: v :: t) = pairBytes u v ++ utf8 t := by
  rw [utf8, if_pos (by rw [hhigh, hlow]; rfl)]

/-! ## Code points are told apart by their first bytes -/

theorem basicBytes_ne_nil (n : Nat) : basicBytes n ≠ [] := by
  unfold basicBytes
  split_ifs <;> exact List.cons_ne_nil _ _

theorem basicBytes_append {m n : Nat} (hm : m < 65536) (hn : n < 65536) {r s : List Nat}
    (h : basicBytes m ++ r = basicBytes n ++ s) : m = n ∧ r = s := by
  unfold basicBytes at h
  split_ifs at h <;> simp only [List.cons_append, List.nil_append, List.cons.injEq] at h
  all_goals first
    | exact ⟨by omega, by tauto⟩
    | omega

theorem surrogates (hhigh : isHighSurrogate u = true) (hlow : isLowSurrogate v = true) :
    0xd800 ≤ u.toNat ∧ u.toNat < 0xdc00 ∧ 0xdc00 ≤ v.toNat ∧ v.toNat < 0xe000 := by
  simp only [isHighSurrogate, isLowSurrogate, Bool.and_eq_true, decide_eq_true_eq,
    UInt16.le_iff_toNat_le] at hhigh hlow
  simp at hhigh hlow
  omega

theorem pairBytes_append {u' v' : UInt16} (hhigh : isHighSurrogate u = true)
    (hlow : isLowSurrogate v = true) (hhigh' : isHighSurrogate u' = true)
    (hlow' : isLowSurrogate v' = true) {r s : List Nat}
    (h : pairBytes u v ++ r = pairBytes u' v' ++ s) : u = u' ∧ v = v' ∧ r = s := by
  have hbounds := surrogates hhigh hlow
  have hbounds' := surrogates hhigh' hlow'
  simp only [pairBytes, List.cons_append, List.nil_append, List.cons.injEq] at h
  obtain ⟨h₁, h₂, h₃, h₄, hrest⟩ := h
  have hpoint : (u.toNat - 0xd800) * 0x400 + (v.toNat - 0xdc00)
      = (u'.toNat - 0xd800) * 0x400 + (v'.toNat - 0xdc00) := by
    omega
  exact ⟨UInt16.toNat_inj.mp (by omega), UInt16.toNat_inj.mp (by omega), hrest⟩

theorem basic_ne_pair {n : Nat} (hn : n < 65536) {r s : List Nat} :
    basicBytes n ++ r ≠ pairBytes u v ++ s := by
  intro h
  unfold basicBytes at h
  split_ifs at h <;>
    simp only [pairBytes, List.cons_append, List.nil_append, List.cons.injEq] at h <;> omega

theorem pairBytes_ne_nil (u v : UInt16) : pairBytes u v ≠ [] := List.cons_ne_nil _ _

theorem utf8_injective {s t : Text} (hs : WellFormed s) (ht : WellFormed t)
    (h : utf8 s = utf8 t) : s = t := by
  induction hs generalizing t with
  | nil =>
      cases ht with
      | nil => rfl
      | unit hhigh hlow _ =>
          rw [utf8_unit hhigh hlow] at h
          exact absurd (List.append_eq_nil_iff.mp h.symm).1 (basicBytes_ne_nil _)
      | pair hhigh hlow _ =>
          rw [utf8_pair hhigh hlow] at h
          exact absurd (List.append_eq_nil_iff.mp h.symm).1 (pairBytes_ne_nil _ _)
  | @unit u s hhigh hlow _ ih =>
      rw [utf8_unit hhigh hlow] at h
      cases ht with
      | nil => exact absurd (List.append_eq_nil_iff.mp h).1 (basicBytes_ne_nil _)
      | @unit v t hhigh' hlow' ht =>
          rw [utf8_unit hhigh' hlow'] at h
          obtain ⟨hhead, htail⟩ := basicBytes_append u.toNat_lt v.toNat_lt h
          rw [UInt16.toNat_inj.mp hhead, ih ht htail]
      | pair hhigh' hlow' _ =>
          rw [utf8_pair hhigh' hlow'] at h
          exact absurd h (basic_ne_pair u.toNat_lt)
  | @pair u v s hhigh hlow _ ih =>
      rw [utf8_pair hhigh hlow] at h
      cases ht with
      | nil => exact absurd (List.append_eq_nil_iff.mp h).1 (pairBytes_ne_nil _ _)
      | @unit w t hhigh' hlow' _ =>
          rw [utf8_unit hhigh' hlow'] at h
          exact absurd h.symm (basic_ne_pair w.toNat_lt)
      | pair hhigh' hlow' ht =>
          rw [utf8_pair hhigh' hlow'] at h
          obtain ⟨rfl, rfl, htail⟩ := pairBytes_append hhigh hlow hhigh' hlow' h
          rw [ih ht htail]

/-! ## Lines of bytes -/

theorem utf8_ascii_append {s : Text} (hs : ∀ u ∈ s, Text.isAscii u = true) (t : Text) :
    (s ++ t).utf8 = s.map UInt16.toNat ++ utf8 t := by
  induction s with
  | nil => rfl
  | cons u s ih =>
      rw [List.forall_mem_cons] at hs
      have hhigh := (Text.not_surrogate hs.1).1
      rw [List.cons_append, Text.utf8_cons fun v tail _ => by rw [hhigh, Bool.false_and],
        Text.unitBytes_ascii hs.1, ih hs.2]
      rfl

theorem utf8_line_injective {s s' t t' : Text} (hs : ∀ u ∈ s, Text.isAscii u = true)
    (hs' : ∀ u ∈ s', Text.isAscii u = true) (hline : unit '\n' ∉ s) (hline' : unit '\n' ∉ s')
    (h : (s ++ unit '\n' :: t).utf8 = (s' ++ unit '\n' :: t').utf8) :
    s = s' ∧ utf8 t = utf8 t' := by
  have hbreak : ∀ r : Text, utf8 (unit '\n' :: r) = 10 :: r.utf8 := fun r =>
    utf8_ascii_append (s := [unit '\n']) (by decide) r
  have hinjective : Function.Injective UInt16.toNat := fun _ _ => UInt16.toNat_inj.mp
  have hnot : ∀ r : Text, unit '\n' ∉ r → 10 ∉ r.map UInt16.toNat := by
    intro r hr hmem
    obtain ⟨u, hu, hten⟩ := List.mem_map.mp hmem
    have heq : u = unit '\n' := hinjective hten
    exact hr (heq ▸ hu)
  rw [utf8_ascii_append hs, utf8_ascii_append hs', hbreak, hbreak] at h
  obtain ⟨hfirst, hrest⟩ := PrefixFree.append_cons_cancel (hnot s hline) (hnot s' hline') h
  exact ⟨List.map_injective_iff.mpr hinjective hfirst, hrest⟩

end Asimposium.Codec

/-!
## What a printed value is made of

JSON texts hold no control characters, since strings escape them, and no half
of a surrogate pair. So a text of such lines splits where it was joined, and
its bytes tell it apart.
-/

namespace Asimposium.Codec

open Text (isAscii isDigit isHighSurrogate isLowSurrogate decimal quote escapeUnit escapeUnits
  unicodeEscape)

/-! ## Clean texts -/

structure Clean (t : Text) : Prop where
  wellFormed : WellFormed t
  printable : ∀ u ∈ t, 0x20 ≤ u

theorem clean_nil : Clean [] := ⟨.nil, fun _ h => absurd h List.not_mem_nil⟩

theorem Clean.append {s t : Text} (hs : Clean s) (ht : Clean t) : Clean (s ++ t) :=
  ⟨hs.wellFormed.append ht.wellFormed,
    List.forall_mem_append.mpr ⟨hs.printable, ht.printable⟩⟩

def isPrinting (u : UInt16) : Bool := 0x20 ≤ u && isAscii u

theorem clean_printing {t : Text} (h : ∀ u ∈ t, isPrinting u = true) : Clean t := by
  simp only [isPrinting, Bool.and_eq_true, decide_eq_true_eq] at h
  exact ⟨wellFormed_ascii fun u hu => (h u hu).2, fun u hu => (h u hu).1⟩

theorem Clean.cons {u : UInt16} (hu : isPrinting u = true) {t : Text} (h : Clean t) :
    Clean (u :: t) := by
  refine Clean.append (clean_printing (t := [u]) fun v hv => ?_) h
  rw [List.mem_singleton.mp hv]
  exact hu

theorem Clean.not_mem {t : Text} (h : Clean t) {u : UInt16} (hu : u < 0x20) : u ∉ t := fun hmem =>
  absurd (h.printable u hmem) (UInt16.not_le.mpr hu)

/-! ## Strings -/

theorem isPrinting_digitChar {n : Nat} (h : n < 16) : isPrinting (unit (Nat.digitChar n)) = true := by
  revert n
  decide

theorem clean_unicodeEscape (u : UInt16) : Clean (unicodeEscape u) := by
  have hdigit : ∀ n, isPrinting (unit (Nat.digitChar (n % 16))) = true := fun n =>
    isPrinting_digitChar (Nat.mod_lt n (by decide))
  have hmark : ∀ v ∈ text "\\u", isPrinting v = true := by decide
  refine (clean_printing hmark).append (clean_printing ?_)
  intro v hv
  simp only [List.mem_cons, List.not_mem_nil, or_false] at hv
  rcases hv with rfl | rfl | rfl | rfl <;> exact hdigit _

theorem clean_escapeUnit (u : UInt16) : Clean (escapeUnit u) := by
  unfold escapeUnit
  split
  · exact clean_printing (by decide)
  split
  · exact clean_printing (by decide)
  split
  · exact clean_printing (by decide)
  split
  · exact clean_printing (by decide)
  split
  · exact clean_printing (by decide)
  split
  · exact clean_printing (by decide)
  split
  · exact clean_printing (by decide)
  split
  · exact clean_unicodeEscape u
  · rename_i hplain
    simp only [Bool.or_eq_true, decide_eq_true_eq, not_or, Bool.not_eq_true] at hplain
    refine ⟨.unit hplain.1.2 hplain.2 .nil, fun v hv => ?_⟩
    rw [List.mem_singleton.mp hv]
    exact UInt16.not_lt.mp hplain.1.1

theorem clean_escapeUnits (t : Text) : Clean (escapeUnits t) := by
  induction t using Text.escapeUnits.induct with
  | case1 => exact clean_nil
  | case2 u => exact clean_escapeUnit u
  | case3 u v t hpair ih =>
      rw [escapeUnits, if_pos hpair]
      rw [Bool.and_eq_true] at hpair
      have hbounds := surrogates hpair.1 hpair.2
      refine ⟨.pair hpair.1 hpair.2 ih.wellFormed, ?_⟩
      rw [List.forall_mem_cons, List.forall_mem_cons]
      have hspace : (0x20 : UInt16).toNat = 32 := rfl
      exact ⟨UInt16.le_iff_toNat_le.mpr (by omega), UInt16.le_iff_toNat_le.mpr (by omega),
        ih.printable⟩
  | case4 u v t hpair ih =>
      rw [escapeUnits, if_neg hpair]
      exact (clean_escapeUnit u).append ih

theorem clean_quote (t : Text) : Clean (quote t) :=
  .cons (by decide) ((clean_escapeUnits t).append (.cons (by decide) clean_nil))

/-! ## Numbers -/

theorem isPrinting_of_isDigit {u : UInt16} (h : isDigit u = true) : isPrinting u = true := by
  rw [isPrinting, Text.isAscii_of_isDigit h, Bool.and_true]
  simp only [isDigit, Bool.and_eq_true, decide_eq_true_eq] at h
  exact decide_eq_true (UInt16.le_trans (by decide) h.1)

theorem clean_digits {t : Text} (h : ∀ u ∈ t, isDigit u = true) : Clean t :=
  clean_printing fun u hu => isPrinting_of_isDigit (h u hu)

theorem clean_decimal (n : Nat) : Clean (decimal n) :=
  clean_digits fun _ hu => Text.decimal_digit hu

theorem clean_exponentText (e : Int) : Clean (exponentText e) := by
  refine .cons (by decide) (.cons ?_ (clean_decimal _))
  split <;> decide

theorem clean_toText (d : Decimal) : Clean d.toText := by
  have hdigits : Clean d.digits := clean_digits fun u hu => d.isDigit_digits hu
  have htake : ∀ n, Clean (d.digits.take n) := fun n =>
    clean_digits fun u hu => d.isDigit_digits (List.mem_of_mem_take hu)
  have hdrop : ∀ n, Clean (d.digits.drop n) := fun n =>
    clean_digits fun u hu => d.isDigit_digits (List.mem_of_mem_drop hu)
  have hzeros : ∀ n, Clean (List.replicate n (unit '0')) := fun n => clean_digits fun _ hu =>
    isDigit_zeros hu
  unfold Decimal.toText
  dsimp only
  split
  · exact hdigits.append (hzeros _)
  split
  · exact (htake _).append (.cons (by decide) (hdrop _))
  split
  · exact .cons (by decide) (.cons (by decide) ((hzeros _).append hdigits))
  split
  · rename_i digit hdigit
    have hfirst : Clean [digit] := hdigit ▸ hdigits
    exact hfirst.append (clean_exponentText _)
  · exact (htake 1).append (.cons (by decide) ((hdrop 1).append (clean_exponentText _)))

section Values

variable {F : Type} (format : FloatFormat F)

theorem clean_number (x : Number F) : Clean (x.toText format) := by
  cases x with
  | nan => exact @clean_printing (text "null") (by decide)
  | infinity negative => exact @clean_printing (text "null") (by decide)
  | zero negative => exact @clean_printing (text "0") (by decide)
  | finite negative magnitude =>
      cases negative with
      | true => exact .cons (by decide) (clean_toText _)
      | false => exact clean_toText _

/-! ## Values -/

theorem clean_join {parts : List Text} (h : ∀ part ∈ parts, Clean part) : Clean (join parts) := by
  induction parts with
  | nil => exact clean_nil
  | cons part parts ih =>
      rw [List.forall_mem_cons] at h
      cases parts with
      | nil =>
          have hsingle : join [part] = part := by simp [join]
          rw [hsingle]
          exact h.1
      | cons next parts =>
          rw [join_cons]
          exact h.1.append (.cons (by decide) (ih h.2))

mutual

theorem clean_stringify (v : Value F) : Clean (stringify format v) := by
  match v with
  | .null => exact @clean_printing (text "null") (by decide)
  | .bool true => exact @clean_printing (text "true") (by decide)
  | .bool false => exact @clean_printing (text "false") (by decide)
  | .num x => exact clean_number format x
  | .str t => exact clean_quote t
  | .arr vs =>
      exact .cons (by decide) ((clean_join (clean_elements vs)).append (.cons (by decide) clean_nil))
  | .obj ms =>
      exact .cons (by decide) ((clean_join (clean_members ms)).append (.cons (by decide) clean_nil))
  | .foreign => exact @clean_printing (text "null") (by decide)

theorem clean_elements (vs : List (Value F)) : ∀ part ∈ elementTexts format vs, Clean part := by
  match vs with
  | [] => exact fun _ h => absurd h List.not_mem_nil
  | v :: vs =>
      rw [elementTexts, List.forall_mem_cons]
      exact ⟨clean_stringify v, clean_elements vs⟩

theorem clean_members (ms : List (Text × Value F)) :
    ∀ part ∈ memberTexts format ms, Clean part := by
  match ms with
  | [] => exact fun _ h => absurd h List.not_mem_nil
  | (k, v) :: ms =>
      rw [memberTexts, List.forall_mem_cons]
      exact ⟨(clean_quote k).append (.cons (by decide) (clean_stringify v)), clean_members ms⟩

end

end Values

end Asimposium.Codec
