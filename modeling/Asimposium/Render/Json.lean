import Asimposium.Render.Text

/-!
# JSON texts

`JSON.stringify` over the values the renderer serializes: objects list
their members in the order they are printed, and numbers are integers.
With a gap the text is pretty-printed.

`size` is the UTF-8 length of the text without the text. It is a sum over
the parts of a value, so the order of an object's members does not change
it, and one part can be exchanged for another.
-/

namespace Asimposium

open Text

inductive Json where
  | null
  | bool (value : Bool)
  | num (value : Int)
  | str (value : Text)
  | arr (elements : List Json)
  | obj (members : List (Text × Json))

namespace Text

/-! ## Strings -/

/-- `\uXXXX`. -/
def unicodeEscape (u : UInt16) : Text :=
  let digit := fun n => unit (Nat.digitChar (n % 16))
  text "\\u" ++ [digit (u.toNat / 4096), digit (u.toNat / 256), digit (u.toNat / 16), digit u.toNat]

def escapeUnit (u : UInt16) : Text :=
  if u = unit '"' then text "\\\""
  else if u = unit '\\' then text "\\\\"
  else if u = 8 then text "\\b"
  else if u = 9 then text "\\t"
  else if u = 10 then text "\\n"
  else if u = 12 then text "\\f"
  else if u = 13 then text "\\r"
  else if u < 0x20 || isHighSurrogate u || isLowSurrogate u then unicodeEscape u
  else [u]

def escapeUnits : Text → Text
  | [] => []
  | [u] => escapeUnit u
  | u :: v :: rest =>
      if isHighSurrogate u && isLowSurrogate v then u :: v :: escapeUnits rest
      else escapeUnit u ++ escapeUnits (v :: rest)

/-- `JSON.stringify` of a string. -/
def quote (t : Text) : Text := unit '"' :: (escapeUnits t ++ [unit '"'])

end Text

namespace Json

/-! ## Values -/

def newline (gap indent : Nat) : Text :=
  if gap = 0 then [] else unit '\n' :: List.replicate indent (unit ' ')

def keyText (gap : Nat) (key : Text) : Text :=
  quote key ++ unit ':' :: (if gap = 0 then [] else [unit ' '])

mutual

/-- `JSON.stringify(value, null, gap)` at some indentation. -/
def stringify (gap indent : Nat) : Json → Text
  | .null => text "null"
  | .bool b => if b then text "true" else text "false"
  | .num n => ofInt n
  | .str t => quote t
  | .arr [] => text "[]"
  | .arr (v :: vs) =>
      unit '[' :: (newline gap (indent + gap) ++ stringify gap (indent + gap) v
        ++ stringifyElements gap (indent + gap) vs ++ newline gap indent ++ [unit ']'])
  | .obj [] => text "\x7b\x7d"
  | .obj ((k, v) :: ms) =>
      unit '\x7b' :: (newline gap (indent + gap) ++ keyText gap k ++ stringify gap (indent + gap) v
        ++ stringifyMembers gap (indent + gap) ms ++ newline gap indent ++ [unit '\x7d'])

def stringifyElements (gap indent : Nat) : List Json → Text
  | [] => []
  | v :: vs =>
      unit ',' :: (newline gap indent ++ stringify gap indent v
        ++ stringifyElements gap indent vs)

def stringifyMembers (gap indent : Nat) : List (Text × Json) → Text
  | [] => []
  | (k, v) :: ms =>
      unit ',' :: (newline gap indent ++ keyText gap k ++ stringify gap indent v
        ++ stringifyMembers gap indent ms)

end

/-! ## The size of a text -/

def newlineSize (gap indent : Nat) : Nat := if gap = 0 then 0 else indent + 1

def keySize (gap : Nat) (key : Text) : Nat :=
  byteLength (quote key) + 1 + if gap = 0 then 0 else 1

mutual

def size (gap indent : Nat) : Json → Nat
  | .null => 4
  | .bool b => if b then 4 else 5
  | .num n => (ofInt n).length
  | .str t => byteLength (quote t)
  | .arr [] => 2
  | .arr (v :: vs) =>
      1 + newlineSize gap indent + elementsSize gap (indent + gap) (v :: vs)
  | .obj [] => 2
  | .obj (m :: ms) =>
      1 + newlineSize gap indent + membersSize gap (indent + gap) (m :: ms)

def elementsSize (gap indent : Nat) : List Json → Nat
  | [] => 0
  | v :: vs => 1 + newlineSize gap indent + size gap indent v + elementsSize gap indent vs

def membersSize (gap indent : Nat) : List (Text × Json) → Nat
  | [] => 0
  | (k, v) :: ms =>
      1 + newlineSize gap indent + keySize gap k + size gap indent v + membersSize gap indent ms

end

/-! ### A text splits where a part begins -/

def BeginsAscii (t : Text) : Prop := ∀ u ∈ t.head?, isAscii u = true

theorem BeginsAscii.cons {u : UInt16} (h : isAscii u = true) (t : Text) : BeginsAscii (u :: t) := by
  rintro v hv
  cases hv
  exact h

theorem BeginsAscii.append {s t : Text} (hs : BeginsAscii s) (ht : BeginsAscii t) :
    BeginsAscii (s ++ t) := by
  cases s with
  | nil => exact ht
  | cons u s => exact .cons (hs u rfl) _

variable {t : Text}

theorem BeginsAscii.byteLength_append (h : BeginsAscii t) (s : Text) :
    byteLength (s ++ t) = byteLength s + byteLength t :=
  Text.byteLength_append s fun u hu => (not_surrogate (h u hu)).2

variable {u : UInt16}

theorem newline_ascii (gap indent : Nat) (h : u ∈ newline gap indent) : isAscii u = true := by
  unfold newline at h
  split at h
  · cases h
  · rcases List.mem_cons.mp h with rfl | h
    · decide
    · rw [(List.mem_replicate.mp h).2]
      decide

theorem newline_begins (gap indent : Nat) : BeginsAscii (newline gap indent) := fun _ hu =>
  newline_ascii gap indent (List.mem_of_mem_head? hu)

theorem byteLength_newline (gap indent : Nat) :
    byteLength (newline gap indent) = newlineSize gap indent := by
  rw [byteLength_ascii fun _ => newline_ascii gap indent]
  unfold newline newlineSize
  split <;> simp

theorem quote_begins (t : Text) : BeginsAscii (quote t) := .cons (by decide) _

theorem keyText_begins (gap : Nat) (key : Text) : BeginsAscii (keyText gap key) :=
  (quote_begins key).append (.cons (by decide) _)

theorem byteLength_keyText (gap : Nat) (key : Text) :
    byteLength (keyText gap key) = keySize gap key := by
  unfold keyText keySize
  rw [BeginsAscii.byteLength_append (.cons (by decide) _), byteLength_cons (by decide)]
  split
  · rfl
  · have hspace : byteLength [unit ' '] = 1 := by decide
    rw [hspace]

theorem stringify_begins (gap indent : Nat) (value : Json) :
    BeginsAscii (stringify gap indent value) := by
  match value with
  | .null => exact .cons (by decide) _
  | .bool b => cases b <;> exact .cons (by decide) _
  | .num n =>
      intro u hu
      rw [stringify] at hu
      exact ofInt_ascii (List.mem_of_mem_head? hu)
  | .str t => exact quote_begins t
  | .arr [] => exact .cons (by decide) _
  | .arr (v :: vs) => exact .cons (by decide) _
  | .obj [] => exact .cons (by decide) _
  | .obj ((k, v) :: ms) => exact .cons (by decide) _

theorem stringifyElements_begins (gap indent : Nat) (vs : List Json) :
    BeginsAscii (stringifyElements gap indent vs) := by
  cases vs with
  | nil => rintro u ⟨⟩
  | cons v vs => exact .cons (by decide) _

theorem stringifyMembers_begins (gap indent : Nat) (ms : List (Text × Json)) :
    BeginsAscii (stringifyMembers gap indent ms) := by
  cases ms with
  | nil => rintro u ⟨⟩
  | cons m ms => exact .cons (by decide) _

mutual

theorem byteLength_stringify (gap indent : Nat) (value : Json) :
    byteLength (stringify gap indent value) = size gap indent value := by
  match value with
  | .null => rw [stringify, size]; decide
  | .bool b => cases b <;> rw [stringify, size] <;> decide
  | .num n => rw [stringify, size, byteLength_ofInt]
  | .str t => rw [stringify, size]
  | .arr [] => rw [stringify, size]; decide
  | .arr (v :: vs) =>
      have hclose : byteLength [unit ']'] = 1 := by decide
      rw [stringify, size, elementsSize, byteLength_cons (by decide),
        BeginsAscii.byteLength_append (.cons (by decide) _),
        (newline_begins gap indent).byteLength_append,
        (stringifyElements_begins gap (indent + gap) vs).byteLength_append,
        (stringify_begins gap (indent + gap) v).byteLength_append, byteLength_newline,
        byteLength_newline, byteLength_stringify gap (indent + gap) v,
        byteLength_stringifyElements gap (indent + gap) vs, hclose]
      omega
  | .obj [] => rw [stringify, size]; decide
  | .obj ((k, v) :: ms) =>
      have hclose : byteLength [unit '\x7d'] = 1 := by decide
      rw [stringify, size, membersSize, byteLength_cons (by decide),
        BeginsAscii.byteLength_append (.cons (by decide) _),
        (newline_begins gap indent).byteLength_append,
        (stringifyMembers_begins gap (indent + gap) ms).byteLength_append,
        (stringify_begins gap (indent + gap) v).byteLength_append,
        (keyText_begins gap k).byteLength_append, byteLength_newline, byteLength_newline,
        byteLength_keyText, byteLength_stringify gap (indent + gap) v,
        byteLength_stringifyMembers gap (indent + gap) ms, hclose]
      omega

theorem byteLength_stringifyElements (gap indent : Nat) (vs : List Json) :
    byteLength (stringifyElements gap indent vs) = elementsSize gap indent vs := by
  match vs with
  | [] => rfl
  | v :: vs =>
      rw [stringifyElements, elementsSize, byteLength_cons (by decide),
        (stringifyElements_begins gap indent vs).byteLength_append,
        (stringify_begins gap indent v).byteLength_append, byteLength_newline,
        byteLength_stringify gap indent v, byteLength_stringifyElements gap indent vs]
      omega

theorem byteLength_stringifyMembers (gap indent : Nat) (ms : List (Text × Json)) :
    byteLength (stringifyMembers gap indent ms) = membersSize gap indent ms := by
  match ms with
  | [] => rfl
  | (k, v) :: ms =>
      rw [stringifyMembers, membersSize, byteLength_cons (by decide),
        (stringifyMembers_begins gap indent ms).byteLength_append,
        (stringify_begins gap indent v).byteLength_append,
        (keyText_begins gap k).byteLength_append, byteLength_newline, byteLength_keyText,
        byteLength_stringify gap indent v, byteLength_stringifyMembers gap indent ms]
      omega

end

/-! ### Indentation -/

mutual

def breaks : Json → Nat
  | .arr [] => 0
  | .arr (v :: vs) => 1 + elementsBreaks (v :: vs)
  | .obj [] => 0
  | .obj (m :: ms) => 1 + membersBreaks (m :: ms)
  | _ => 0

def elementsBreaks : List Json → Nat
  | [] => 0
  | v :: vs => 1 + breaks v + elementsBreaks vs

def membersBreaks : List (Text × Json) → Nat
  | [] => 0
  | (_, v) :: ms => 1 + breaks v + membersBreaks ms

end

theorem newlineSize_shift {gap : Nat} (h : gap ≠ 0) (indent shift : Nat) :
    newlineSize gap (indent + shift) = newlineSize gap indent + shift := by
  simp only [newlineSize, h, if_false]
  omega

mutual

theorem size_shift {gap : Nat} (h : gap ≠ 0) (indent shift : Nat) (value : Json) :
    size gap (indent + shift) value = size gap indent value + shift * breaks value := by
  match value with
  | .null => rfl
  | .bool b => rfl
  | .num n => rfl
  | .str t => rfl
  | .arr [] => rfl
  | .arr (v :: vs) =>
      have hshift : indent + shift + gap = indent + gap + shift := by omega
      rw [size, size, breaks, newlineSize_shift h, hshift,
        elementsSize_shift h (indent + gap) shift (v :: vs), Nat.mul_add, Nat.mul_one]
      omega
  | .obj [] => rfl
  | .obj (m :: ms) =>
      have hshift : indent + shift + gap = indent + gap + shift := by omega
      rw [size, size, breaks, newlineSize_shift h, hshift,
        membersSize_shift h (indent + gap) shift (m :: ms), Nat.mul_add, Nat.mul_one]
      omega

theorem elementsSize_shift {gap : Nat} (h : gap ≠ 0) (indent shift : Nat) (vs : List Json) :
    elementsSize gap (indent + shift) vs
      = elementsSize gap indent vs + shift * elementsBreaks vs := by
  match vs with
  | [] => rfl
  | v :: vs =>
      rw [elementsSize, elementsSize, elementsBreaks, newlineSize_shift h,
        size_shift h indent shift v, elementsSize_shift h indent shift vs, Nat.mul_add, Nat.mul_add,
        Nat.mul_one]
      omega

theorem membersSize_shift {gap : Nat} (h : gap ≠ 0) (indent shift : Nat)
    (ms : List (Text × Json)) :
    membersSize gap (indent + shift) ms = membersSize gap indent ms + shift * membersBreaks ms := by
  match ms with
  | [] => rfl
  | (k, v) :: ms =>
      rw [membersSize, membersSize, membersBreaks, newlineSize_shift h,
        size_shift h indent shift v, membersSize_shift h indent shift ms, Nat.mul_add, Nat.mul_add,
        Nat.mul_one]
      omega

end

/-! ### Line breaks -/

theorem digitChar_no_break {d : Nat} (h : d < 16) : unit (Nat.digitChar d) ≠ unit '\n' := by
  revert d
  decide

theorem escapeUnit_no_break {v : UInt16} (h : v ∈ escapeUnit u) : v ≠ unit '\n' := by
  unfold escapeUnit at h
  split at h
  · revert v; decide
  split at h
  · revert v; decide
  split at h
  · revert v; decide
  split at h
  · revert v; decide
  split at h
  · revert v; decide
  split at h
  · revert v; decide
  split at h
  · revert v; decide
  split at h
  · have hdigit : ∀ n, unit (Nat.digitChar (n % 16)) ≠ unit '\n' := fun n =>
      digitChar_no_break (Nat.mod_lt n (by decide))
    have hmark : ∀ w ∈ text "\\u", w ≠ unit '\n' := by decide
    rcases List.mem_append.mp h with h | h
    · exact hmark v h
    · simp only [List.mem_cons, List.not_mem_nil, or_false] at h
      rcases h with rfl | rfl | rfl | rfl <;> exact hdigit _
  · rename_i hten _ _ _
    rw [List.mem_singleton.mp h]
    exact hten

theorem not_break_of_surrogate (h : (isHighSurrogate u || isLowSurrogate u) = true) :
    u ≠ unit '\n' := by
  rintro rfl
  exact absurd h (by decide)

theorem escapeUnits_no_break {v : UInt16} (h : v ∈ escapeUnits t) : v ≠ unit '\n' := by
  induction t using escapeUnits.induct with
  | case1 => cases h
  | case2 u => exact escapeUnit_no_break h
  | case3 u w rest hpair ih =>
      rw [escapeUnits, if_pos hpair] at h
      rw [Bool.and_eq_true] at hpair
      rcases List.mem_cons.mp h with rfl | h
      · exact not_break_of_surrogate (by rw [hpair.1, Bool.true_or])
      · rcases List.mem_cons.mp h with rfl | h
        · exact not_break_of_surrogate (by rw [hpair.2, Bool.or_true])
        · exact ih h
  | case4 u w rest hpair ih =>
      rw [escapeUnits, if_neg hpair] at h
      rcases List.mem_append.mp h with h | h
      · exact escapeUnit_no_break h
      · exact ih h

theorem countNewlines_append (s t : Text) :
    countNewlines (s ++ t) = countNewlines s + countNewlines t := List.count_append

theorem countNewlines_eq_zero (h : ∀ u ∈ t, u ≠ unit '\n') : countNewlines t = 0 :=
  List.count_eq_zero.mpr fun hmem => h _ hmem rfl

theorem countNewlines_cons (h : u ≠ unit '\n') (t : Text) :
    countNewlines (u :: t) = countNewlines t := List.count_cons_of_ne h

theorem countNewlines_quote (t : Text) : countNewlines (quote t) = 0 := by
  refine countNewlines_eq_zero fun u hu => ?_
  rcases List.mem_cons.mp hu with rfl | hu
  · decide
  · rcases List.mem_append.mp hu with hu | hu
    · exact escapeUnits_no_break hu
    · rw [List.mem_singleton.mp hu]
      decide

theorem countNewlines_keyText (gap : Nat) (key : Text) : countNewlines (keyText gap key) = 0 := by
  rw [keyText, countNewlines_append, countNewlines_quote]
  split <;> decide

theorem countNewlines_newline {gap : Nat} (h : gap ≠ 0) (indent : Nat) :
    countNewlines (newline gap indent) = 1 := by
  rw [newline, if_neg h, countNewlines, List.count_cons_self]
  have hspaces : (List.replicate indent (unit ' ')).count (unit '\n') = 0 :=
    List.count_eq_zero.mpr fun hmem =>
      absurd (List.eq_of_mem_replicate hmem) (by decide)
  rw [hspaces]

theorem countNewlines_ofInt (n : Int) : countNewlines (ofInt n) = 0 := by
  have hdigits : ∀ k, ∀ u ∈ decimal k, u ≠ unit '\n' := by
    rintro k u hu rfl
    exact absurd (decimal_digit hu) (by decide)
  refine countNewlines_eq_zero fun u hu => ?_
  unfold ofInt at hu
  split at hu
  · rcases List.mem_cons.mp hu with rfl | hu
    · decide
    · exact hdigits _ u hu
  · exact hdigits _ u hu

mutual

theorem countNewlines_stringify {gap : Nat} (h : gap ≠ 0) (indent : Nat) (value : Json) :
    countNewlines (stringify gap indent value) = breaks value := by
  match value with
  | .null => exact (by decide : countNewlines (text "null") = 0)
  | .bool true => exact (by decide : countNewlines (text "true") = 0)
  | .bool false => exact (by decide : countNewlines (text "false") = 0)
  | .num n => exact countNewlines_ofInt n
  | .str t => exact countNewlines_quote t
  | .arr [] => exact (by decide : countNewlines (text "[]") = 0)
  | .arr (v :: vs) =>
      have hclose : countNewlines [unit ']'] = 0 := by decide
      rw [stringify, breaks, elementsBreaks, countNewlines_cons (by decide), countNewlines_append,
        countNewlines_append, countNewlines_append, countNewlines_append,
        countNewlines_newline h, countNewlines_newline h,
        countNewlines_stringify h (indent + gap) v,
        countNewlines_stringifyElements h (indent + gap) vs, hclose]
      omega
  | .obj [] => exact (by decide : countNewlines (text "\x7b\x7d") = 0)
  | .obj ((k, v) :: ms) =>
      have hclose : countNewlines [unit '\x7d'] = 0 := by decide
      rw [stringify, breaks, membersBreaks, countNewlines_cons (by decide), countNewlines_append,
        countNewlines_append, countNewlines_append, countNewlines_append, countNewlines_append,
        countNewlines_newline h, countNewlines_newline h, countNewlines_keyText,
        countNewlines_stringify h (indent + gap) v,
        countNewlines_stringifyMembers h (indent + gap) ms, hclose]
      omega

theorem countNewlines_stringifyElements {gap : Nat} (h : gap ≠ 0) (indent : Nat)
    (vs : List Json) : countNewlines (stringifyElements gap indent vs) = elementsBreaks vs := by
  match vs with
  | [] => rfl
  | v :: vs =>
      rw [stringifyElements, elementsBreaks, countNewlines_cons (by decide), countNewlines_append,
        countNewlines_append, countNewlines_newline h, countNewlines_stringify h indent v,
        countNewlines_stringifyElements h indent vs]

theorem countNewlines_stringifyMembers {gap : Nat} (h : gap ≠ 0) (indent : Nat)
    (ms : List (Text × Json)) :
    countNewlines (stringifyMembers gap indent ms) = membersBreaks ms := by
  match ms with
  | [] => rfl
  | (k, v) :: ms =>
      rw [stringifyMembers, membersBreaks, countNewlines_cons (by decide), countNewlines_append,
        countNewlines_append, countNewlines_append, countNewlines_newline h,
        countNewlines_keyText, countNewlines_stringify h indent v,
        countNewlines_stringifyMembers h indent ms, Nat.add_zero]

end

theorem size_shifted {gap : Nat} (h : gap ≠ 0) (shift : Nat) (value : Json) :
    size gap shift value
      = byteLength (stringify gap 0 value) + shift * countNewlines (stringify gap 0 value) := by
  rw [byteLength_stringify, countNewlines_stringify h, ← size_shift h, Nat.zero_add]

/-! ### Parts -/

theorem elementsSize_eq_sum (gap indent : Nat) (vs : List Json) :
    elementsSize gap indent vs
      = (vs.map fun v => 1 + newlineSize gap indent + size gap indent v).sum := by
  induction vs with
  | nil => rfl
  | cons v vs ih => rw [elementsSize, ih, List.map_cons, List.sum_cons]

theorem membersSize_append (gap indent : Nat) (ms ms' : List (Text × Json)) :
    membersSize gap indent (ms ++ ms') = membersSize gap indent ms + membersSize gap indent ms' := by
  induction ms with
  | nil => rw [List.nil_append, membersSize, Nat.zero_add]
  | cons m ms ih =>
      rw [List.cons_append, membersSize, membersSize, ih]
      omega

/-! ### Plain texts -/

/-- A character that JSON prints as it is, and no surrogate. -/
def isPlain (u : UInt16) : Bool := isAlphanumeric u || u == unit ':'

theorem isPlain_bounds (h : isPlain u = true) : 0x20 ≤ u ∧ isAscii u = true := by
  simp only [isPlain, isAlphanumeric, isUpper, isLower, isDigit, Bool.or_eq_true,
    Bool.and_eq_true, decide_eq_true_eq, beq_iff_eq] at h
  have hwithin : ∀ {low high : UInt16}, 0x20 ≤ low → isAscii high = true → low ≤ u ∧ u ≤ high →
      0x20 ≤ u ∧ isAscii u = true := by
    intro low high hlow hhigh hu
    exact ⟨UInt16.le_trans hlow hu.1, decide_eq_true
      (UInt16.le_trans hu.2 (of_decide_eq_true hhigh))⟩
  rcases h with ((h | h) | h) | rfl
  · exact hwithin (by decide) (by decide) h
  · exact hwithin (by decide) (by decide) h
  · exact hwithin (by decide) (by decide) h
  · exact ⟨by decide, by decide⟩

theorem escapeUnit_plain (h : isPlain u = true) : escapeUnit u = [u] := by
  have hne : ∀ v, isPlain v = false → u ≠ v := by
    rintro v hv rfl
    rw [hv] at h
    cases h
  obtain ⟨hge, hascii⟩ := isPlain_bounds h
  have hcontrol : ¬u < 0x20 := UInt16.not_lt.mpr hge
  simp [escapeUnit, hne (unit '"') (by decide), hne (unit '\\') (by decide), hne 8 (by decide),
    hne 9 (by decide), hne 10 (by decide), hne 12 (by decide), hne 13 (by decide), hcontrol,
    not_surrogate hascii]

theorem escapeUnits_plain (h : ∀ u ∈ t, isPlain u = true) : escapeUnits t = t := by
  induction t using escapeUnits.induct with
  | case1 => rfl
  | case2 u => exact escapeUnit_plain (h u (List.mem_cons_self ..))
  | case3 u v rest hpair ih =>
      rw [Bool.and_eq_true] at hpair
      have hhigh := (not_surrogate (isPlain_bounds (h u (List.mem_cons_self ..))).2).1
      rw [hpair.1] at hhigh
      cases hhigh
  | case4 u v rest hpair ih =>
      rw [List.forall_mem_cons] at h
      rw [escapeUnits, if_neg hpair, ih h.2, escapeUnit_plain h.1]
      rfl

theorem byteLength_quote_plain (h : ∀ u ∈ t, isPlain u = true) :
    byteLength (quote t) = t.length + 2 := by
  rw [quote, escapeUnits_plain h, byteLength_cons (by decide),
    BeginsAscii.byteLength_append (.cons (by decide) _),
    byteLength_ascii fun u hu => (isPlain_bounds (h u hu)).2]
  exact Nat.add_comm 1 _

end Json

end Asimposium
