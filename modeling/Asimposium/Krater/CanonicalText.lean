import Mathlib.Data.List.Infix
import Mathlib.Data.String.Basic
import Asimposium.Lib.Numerals
import Asimposium.Krater.Tables

/-!
# Canonical texts are read in one way

Two canonical objects have the same text only if they have the same keys
and values. A value is delimited by what follows it: a text by its
quotation mark, a number by the comma or the brace after it.
-/

namespace Asimposium.Krater

/-! ## Escapes -/

def escapedChars : List Char := ['"', '\\'] ++ (List.range 32).map Char.ofNat

theorem escapeJson_of_not_mem {c : Char} (h : c ∉ escapedChars) :
    (escapeJson c).toList = [c] := by
  have hquote : c ≠ '"' := fun heq => h (heq ▸ by decide)
  have hslash : c ≠ '\\' := fun heq => h (heq ▸ by decide)
  have hcontrol : ¬ c.toNat < 32 := by
    intro hlt
    refine h (List.mem_append_right _ (List.mem_map.mpr ⟨c.toNat, List.mem_range.mpr hlt, ?_⟩))
    exact Char.ofNat_toNat c
  unfold escapeJson
  rw [if_neg hquote, if_neg hslash, if_neg (by omega), if_neg (by omega), if_neg (by omega),
    if_neg (by omega), if_neg (by omega), if_neg (by omega)]
  exact String.toList_singleton c

theorem escapeJson_head : ∀ c ∈ escapedChars, (escapeJson c).toList.head? = some '\\' := by
  have hall : (escapedChars.all fun c => (escapeJson c).toList.head? == some '\\') = true := by
    rfl
  intro c hc
  exact beq_iff_eq.mp (List.all_eq_true.mp hall c hc)

theorem escapeJson_prefix_free : ∀ c ∈ escapedChars, ∀ d ∈ escapedChars,
    (escapeJson c).toList.isPrefixOf (escapeJson d).toList = true → c = d := by
  have hall : (escapedChars.all fun c => escapedChars.all fun d =>
      !(escapeJson c).toList.isPrefixOf (escapeJson d).toList || c == d) = true := by
    rfl
  intro c hc d hd hbegins
  have hcd := List.all_eq_true.mp (List.all_eq_true.mp hall c hc) d hd
  rw [hbegins] at hcd
  exact beq_iff_eq.mp hcd

def escapedList (chars : List Char) : List Char := chars.flatMap fun c => (escapeJson c).toList

variable {x y : List Char}

theorem escapeJson_unique {c d : Char}
    (h : (escapeJson c).toList ++ x = (escapeJson d).toList ++ y) : c = d ∧ x = y := by
  suffices hcd : c = d by
    subst hcd
    exact ⟨rfl, List.append_cancel_left h⟩
  by_cases hc : c ∈ escapedChars
  · by_cases hd : d ∈ escapedChars
    · have hleft : (escapeJson c).toList <+: (escapeJson d).toList ++ y := ⟨x, h⟩
      rcases List.prefix_or_prefix_of_prefix hleft (List.prefix_append _ y) with hpre | hpre
      · exact escapeJson_prefix_free c hc d hd (List.isPrefixOf_iff_prefix.mpr hpre)
      · exact (escapeJson_prefix_free d hd c hc (List.isPrefixOf_iff_prefix.mpr hpre)).symm
    · have hhead := congrArg List.head? h
      have hslash : '\\' ∈ escapedChars := by decide
      rw [escapeJson_of_not_mem hd, List.head?_append, escapeJson_head c hc, Option.some_or] at hhead
      rw [← Option.some.inj hhead] at hd
      exact absurd hslash hd
  · by_cases hd : d ∈ escapedChars
    · have hhead := congrArg List.head? h
      have hslash : '\\' ∈ escapedChars := by decide
      rw [escapeJson_of_not_mem hc, List.head?_append (l := (escapeJson d).toList),
        escapeJson_head d hd] at hhead
      rw [Option.some.inj hhead] at hc
      exact absurd hslash hc
    · rw [escapeJson_of_not_mem hc, escapeJson_of_not_mem hd] at h
      exact (List.cons.inj h).1

theorem escapeJson_ne_quote {c : Char} : (escapeJson c).toList ++ x ≠ '"' :: y := by
  intro h
  have hhead := congrArg List.head? h
  by_cases hc : c ∈ escapedChars
  · rw [List.head?_append, escapeJson_head c hc] at hhead
    have heq : '\\' = '"' := Option.some.inj hhead
    exact absurd heq (by decide)
  · rw [escapeJson_of_not_mem hc] at hhead
    have heq : c = '"' := Option.some.inj hhead
    exact hc (heq ▸ by decide)

theorem escapedList_unique {s t : List Char}
    (h : escapedList s ++ '"' :: x = escapedList t ++ '"' :: y) : s = t ∧ x = y := by
  induction s generalizing t with
  | nil =>
      cases t with
      | nil => exact ⟨rfl, (List.cons.inj h).2⟩
      | cons d rest =>
          rw [escapedList, escapedList, List.flatMap_nil, List.flatMap_cons, List.append_assoc] at h
          exact absurd h.symm escapeJson_ne_quote
  | cons c rest ih =>
      cases t with
      | nil =>
          rw [escapedList, escapedList, List.flatMap_nil, List.flatMap_cons, List.append_assoc] at h
          exact absurd h escapeJson_ne_quote
      | cons d rest' =>
          rw [escapedList, escapedList, List.flatMap_cons, List.flatMap_cons, List.append_assoc,
            List.append_assoc] at h
          obtain ⟨rfl, hrest⟩ := escapeJson_unique h
          obtain ⟨rfl, hxy⟩ := ih hrest
          exact ⟨rfl, hxy⟩

/-! ## Values -/

theorem toList_quoteJson (text : String) :
    (quoteJson text).toList = '"' :: (escapedList text.toList ++ ['"']) := by
  rw [quoteJson, String.toList_append, String.toList_append, String.toList_join,
    List.flatMap_map]
  rfl

theorem quoteJson_unique {s t : String}
    (h : (quoteJson s).toList ++ x = (quoteJson t).toList ++ y) : s = t ∧ x = y := by
  rw [toList_quoteJson, toList_quoteJson, List.cons_append, List.cons_append, List.append_assoc,
    List.append_assoc] at h
  obtain ⟨hst, hxy⟩ := escapedList_unique (List.cons.inj h).2
  exact ⟨String.toList_injective hst, hxy⟩

def EndsValue (rest : List Char) : Prop := ∃ c ∈ rest.head?, c = ',' ∨ c = '\x7d'

theorem EndsValue.not_digit {rest : List Char} (h : EndsValue rest) :
    rest.takeWhile Char.isDigit = [] := by
  obtain ⟨c, hc, hmark⟩ := h
  cases rest with
  | nil => cases hc
  | cons d rest =>
      cases hc
      rcases hmark with rfl | rfl
      · rfl
      · rfl

theorem toList_toString (n : Nat) : (toString n).toList = Nat.toDigits 10 n := by
  change (Nat.repr n).toList = _
  rw [Nat.repr, String.toList_ofList]

theorem takeWhile_toString {n : Nat} {rest : List Char} (h : EndsValue rest) :
    ((toString n).toList ++ rest).takeWhile Char.isDigit = Nat.toDigits 10 n := by
  rw [toList_toString, List.takeWhile_append_of_pos, h.not_digit, List.append_nil]
  intro c hc
  exact Nat.isDigit_of_mem_toDigits (by decide) (by decide) hc

theorem canonical_head (v : JsonScalar) : ∃ c rest, v.canonical.toList = c :: rest ∧
    match v with
    | .null => c = 'n'
    | .text _ => c = '"'
    | .number _ => c.isDigit = true := by
  cases v with
  | null => exact ⟨'n', _, rfl, rfl⟩
  | text value => exact ⟨'"', _, toList_quoteJson value, rfl⟩
  | number value =>
      have htext : (JsonScalar.number value).canonical.toList = Nat.toDigits 10 value :=
        toList_toString value
      cases hdigits : Nat.toDigits 10 value with
      | nil => exact absurd hdigits (List.ne_nil_of_length_pos Nat.length_toDigits_pos)
      | cons c rest =>
          have hc : c ∈ Nat.toDigits 10 value := hdigits ▸ List.mem_cons_self
          exact ⟨c, rest, htext.trans hdigits,
            Nat.isDigit_of_mem_toDigits (by decide) (by decide) hc⟩

theorem canonical_unique {v w : JsonScalar} (hx : EndsValue x) (hy : EndsValue y)
    (h : v.canonical.toList ++ x = w.canonical.toList ++ y) : v = w ∧ x = y := by
  obtain ⟨c, rest, hv, hkind⟩ := canonical_head v
  obtain ⟨d, rest', hw, hkind'⟩ := canonical_head w
  have hcd : c = d := by
    rw [hv, hw] at h
    exact (List.cons.inj h).1
  subst hcd
  cases v with
  | null =>
      cases w with
      | null => exact ⟨rfl, List.append_cancel_left h⟩
      | text t => exact absurd (hkind.symm.trans hkind') (by decide)
      | number n =>
          have hdigit : 'n'.isDigit = true := hkind ▸ hkind'
          exact absurd hdigit (by decide)
  | text s =>
      cases w with
      | null => exact absurd (hkind.symm.trans hkind') (by decide)
      | text t =>
          obtain ⟨rfl, hxy⟩ := quoteJson_unique h
          exact ⟨rfl, hxy⟩
      | number n =>
          have hdigit : '"'.isDigit = true := hkind ▸ hkind'
          exact absurd hdigit (by decide)
  | number m =>
      cases w with
      | null =>
          have hdigit : 'n'.isDigit = true := hkind' ▸ hkind
          exact absurd hdigit (by decide)
      | text t =>
          have hdigit : '"'.isDigit = true := hkind' ▸ hkind
          exact absurd hdigit (by decide)
      | number n =>
          have hdigits : Nat.toDigits 10 m = Nat.toDigits 10 n := by
            rw [← takeWhile_toString hx, ← takeWhile_toString hy]
            exact congrArg (List.takeWhile Char.isDigit) h
          have hmn := Numerals.toDigits_injective hdigits
          subst hmn
          exact ⟨rfl, List.append_cancel_left h⟩

/-! ## Objects -/

def membersText (members : List (String × JsonScalar)) : List Char :=
  (",".intercalate (members.map fun m => quoteJson m.1 ++ ":" ++ m.2.canonical)).toList ++ ['\x7d']

def afterValue : List (String × JsonScalar) → List Char
  | [] => ['\x7d']
  | m :: rest => ',' :: membersText (m :: rest)

theorem membersText_cons (key : String) (v : JsonScalar) (rest : List (String × JsonScalar)) :
    membersText ((key, v) :: rest)
      = (quoteJson key).toList ++ ':' :: (v.canonical.toList ++ afterValue rest) := by
  cases rest with
  | nil => simp [membersText, afterValue]
  | cons m rest =>
      simp [membersText, afterValue, String.intercalate_cons_cons]

theorem endsValue_afterValue (rest : List (String × JsonScalar)) : EndsValue (afterValue rest) := by
  cases rest with
  | nil => exact ⟨_, rfl, .inr rfl⟩
  | cons m rest => exact ⟨_, rfl, .inl rfl⟩

theorem membersText_cons_ne (m : String × JsonScalar) (rest : List (String × JsonScalar)) :
    membersText (m :: rest) ≠ ['\x7d'] := by
  obtain ⟨key, v⟩ := m
  rw [membersText_cons, toList_quoteJson]
  intro h
  exact absurd (List.cons.inj h).1 (by decide)

theorem membersText_injective {ms ns : List (String × JsonScalar)}
    (h : membersText ms = membersText ns) : ms = ns := by
  induction ms generalizing ns with
  | nil =>
      cases ns with
      | nil => rfl
      | cons n ns => exact absurd h.symm (membersText_cons_ne n ns)
  | cons m ms ih =>
      cases ns with
      | nil => exact absurd h (membersText_cons_ne m ms)
      | cons n ns =>
          obtain ⟨key, v⟩ := m
          obtain ⟨key', w⟩ := n
          rw [membersText_cons, membersText_cons] at h
          obtain ⟨rfl, hvalues⟩ := quoteJson_unique h
          obtain ⟨rfl, hafter⟩ := canonical_unique (endsValue_afterValue ms)
            (endsValue_afterValue ns) (List.cons.inj hvalues).2
          have htail : ms = ns := by
            cases ms with
            | nil =>
                cases ns with
                | nil => rfl
                | cons n ns => exact absurd (List.cons.inj hafter).1 (by decide)
            | cons m ms =>
                cases ns with
                | nil => exact absurd (List.cons.inj hafter).1 (by decide)
                | cons n ns => exact ih (List.cons.inj hafter).2
          rw [htail]

theorem canonicalJson_injective : Function.Injective canonicalJson := by
  intro ms ns h
  have hlist := congrArg String.toList h
  rw [canonicalJson, canonicalJson, String.toList_append, String.toList_append,
    String.toList_append, String.toList_append, List.append_assoc, List.append_assoc] at hlist
  exact membersText_injective (List.append_cancel_left hlist)

end Asimposium.Krater
