import Asimposium.Codec.Value

/-!
# What is printed is read again

The parser reads the text of a JSON value, whatever follows it, as that value
without the signs of its zeros.
-/

namespace Asimposium.Codec

open Text (isDigit quote escapeUnit escapeUnits unicodeEscape isHighSurrogate isLowSurrogate)

/-! ## Strings -/

theorem hexDigit_digitChar {n : Nat} (h : n < 16) : hexDigit (unit (Nat.digitChar n)) = some n := by
  revert n
  decide

theorem hexUnit_unicodeEscape (u : UInt16) :
    hexUnit (unit (Nat.digitChar (u.toNat / 4096 % 16))) (unit (Nat.digitChar (u.toNat / 256 % 16)))
      (unit (Nat.digitChar (u.toNat / 16 % 16))) (unit (Nat.digitChar (u.toNat % 16))) = some u := by
  have hdigit : ∀ n, hexDigit (unit (Nat.digitChar (n % 16))) = some (n % 16) := fun n =>
    hexDigit_digitChar (Nat.mod_lt n (by decide))
  have hlt : u.toNat < 65536 := u.toNat_lt
  have hsum : 4096 * (u.toNat / 4096 % 16) + 256 * (u.toNat / 256 % 16)
      + 16 * (u.toNat / 16 % 16) + u.toNat % 16 = u.toNat := by
    omega
  simp only [hexUnit, hdigit, Option.bind_eq_bind, Option.bind_some, hsum, UInt16.ofNat_toNat]

theorem scanString_closed (t : Text) : scanString (unit '"' :: t) = some ([], t) := by
  rw [scanString.eq_def (unit '"' :: t)]
  exact if_pos rfl

variable {u : UInt16}

theorem scanString_raw (hquote : u ≠ unit '"') (hcontrol : ¬u < 0x20) (hslash : u ≠ unit '\\')
    (t : Text) : scanString (u :: t) = (scanString t).map fun (s, after) => (u :: s, after) := by
  rw [scanString.eq_def (u :: t)]
  dsimp only
  rw [if_neg hquote, if_neg hcontrol, if_neg hslash]

theorem scanString_simple {e v : UInt16} (hu : e ≠ unit 'u') (h : simpleEscape e = some v)
    (t : Text) : scanString (unit '\\' :: e :: t)
      = (scanString t).map fun (s, after) => (v :: s, after) := by
  have hquote : unit '\\' ≠ unit '"' := by decide
  have hcontrol : ¬unit '\\' < 0x20 := by decide
  rw [scanString.eq_def (unit '\\' :: e :: t)]
  dsimp only
  rw [if_neg hquote, if_neg hcontrol, if_pos rfl]
  rw [if_neg hu, h, Option.bind_some]

theorem scanString_unicode (u : UInt16) (t : Text) :
    scanString (unicodeEscape u ++ t) = (scanString t).map fun (s, after) => (u :: s, after) := by
  have hquote : unit '\\' ≠ unit '"' := by decide
  have hcontrol : ¬unit '\\' < 0x20 := by decide
  have hcons : unicodeEscape u ++ t = unit '\\' :: unit 'u'
      :: unit (Nat.digitChar (u.toNat / 4096 % 16)) :: unit (Nat.digitChar (u.toNat / 256 % 16))
      :: unit (Nat.digitChar (u.toNat / 16 % 16)) :: unit (Nat.digitChar (u.toNat % 16)) :: t := rfl
  rw [hcons, scanString.eq_def (unit '\\' :: _)]
  dsimp only
  rw [if_neg hquote, if_neg hcontrol, if_pos rfl]
  rw [if_pos rfl, hexUnit_unicodeEscape, Option.bind_some]

theorem scanString_escapeUnit (u : UInt16) (t : Text) :
    scanString (escapeUnit u ++ t) = (scanString t).map fun (s, after) => (u :: s, after) := by
  unfold escapeUnit
  split
  · rename_i h
    subst h
    exact scanString_simple (by decide) rfl t
  split
  · rename_i h
    subst h
    exact scanString_simple (by decide) rfl t
  split
  · rename_i h
    subst h
    exact scanString_simple (by decide) rfl t
  split
  · rename_i h
    subst h
    exact scanString_simple (by decide) rfl t
  split
  · rename_i h
    subst h
    exact scanString_simple (by decide) rfl t
  split
  · rename_i h
    subst h
    exact scanString_simple (by decide) rfl t
  split
  · rename_i h
    subst h
    exact scanString_simple (by decide) rfl t
  split
  · exact scanString_unicode u t
  · rename_i hquote hslash _ _ _ _ _ hplain
    simp only [Bool.or_eq_true, decide_eq_true_eq, not_or] at hplain
    exact scanString_raw hquote hplain.1.1 hslash t

theorem scanString_surrogate (h : (isHighSurrogate u || isLowSurrogate u) = true) (t : Text) :
    scanString (u :: t) = (scanString t).map fun (s, after) => (u :: s, after) := by
  have hge : 0xd800 ≤ u := by
    simp only [isHighSurrogate, isLowSurrogate, Bool.or_eq_true, Bool.and_eq_true,
      decide_eq_true_eq] at h
    rcases h with h | h
    · exact h.1
    · exact UInt16.le_trans (by decide) h.1
  have hne : ∀ v : UInt16, v < 0xd800 → u ≠ v := by
    rintro v hv rfl
    exact absurd hge (UInt16.not_le.mpr hv)
  refine scanString_raw (hne _ (by decide)) ?_ (hne _ (by decide)) t
  exact UInt16.not_lt.mpr (UInt16.le_trans (by decide) hge)

theorem scanString_escapeUnits (t rest : Text) :
    scanString (escapeUnits t ++ unit '"' :: rest) = some (t, rest) := by
  induction t using Text.escapeUnits.induct with
  | case1 => exact scanString_closed rest
  | case2 u =>
      rw [escapeUnits, scanString_escapeUnit, scanString_closed]
      rfl
  | case3 u v t hpair ih =>
      rw [Bool.and_eq_true] at hpair
      rw [escapeUnits, if_pos (by rw [hpair.1, hpair.2]; rfl), List.cons_append, List.cons_append,
        scanString_surrogate (by rw [hpair.1]; rfl),
        scanString_surrogate (by rw [hpair.2, Bool.or_true]), ih]
      rfl
  | case4 u v t hpair ih =>
      rw [escapeUnits, if_neg hpair, List.append_assoc, scanString_escapeUnit, ih]
      rfl

theorem scanString_quote (t rest : Text) :
    ∃ body, quote t ++ rest = unit '"' :: body ∧ scanString body = some (t, rest) := by
  refine ⟨escapeUnits t ++ unit '"' :: rest, ?_, scanString_escapeUnits t rest⟩
  rw [quote, List.cons_append, List.append_assoc]
  rfl

/-! ## Values without signs of zero -/

section Values

variable {F : Type}

mutual

def Value.unsigned : Value F → Value F
  | .num x => .num x.unsigned
  | .arr vs => .arr (unsignedElements vs)
  | .obj ms => .obj (unsignedMembers ms)
  | v => v

def unsignedElements : List (Value F) → List (Value F)
  | [] => []
  | v :: vs => v.unsigned :: unsignedElements vs

def unsignedMembers : List (Text × Value F) → List (Text × Value F)
  | [] => []
  | (k, v) :: ms => (k, v.unsigned) :: unsignedMembers ms

end

end Values

/-! ## The first unit of a text -/

/-- A text that begins with neither white space nor a closing bracket. -/
def Begins (t : Text) : Prop :=
  ∃ u rest, t = u :: rest ∧ isJsonSpace u = false ∧ u ≠ unit ']'

theorem skipSpace_cons (h : isJsonSpace u = false) (t : Text) : skipSpace (u :: t) = u :: t := by
  rw [skipSpace, List.dropWhile_cons, h]
  rfl

theorem scanNumber_begins {t : Text} {result : NumberToken × Text}
    (h : scanNumber t = some result) :
    ∃ u rest, t = u :: rest ∧ (isDigit u = true ∨ u = unit '-') := by
  cases t with
  | nil => cases h
  | cons u rest =>
      refine ⟨u, rest, rfl, ?_⟩
      by_contra hother
      rw [not_or, Bool.not_eq_true] at hother
      have hsign : scanSign (u :: rest) = (false, u :: rest) := if_neg hother.2
      rw [scanNumber, hsign] at h
      simp only [List.takeWhile_cons, hother.1, Bool.false_eq_true, if_false, List.isEmpty_nil,
        Bool.true_or, if_true] at h
      cases h

theorem number_units (h : isDigit u = true ∨ u = unit '-') :
    isJsonSpace u = false ∧ u ≠ unit ']' ∧ u ≠ unit '"' ∧ u ≠ unit '[' ∧ u ≠ unit '\x7b'
      ∧ u ≠ unit 'n' ∧ u ≠ unit 't' ∧ u ≠ unit 'f' := by
  have hne : ∀ v : UInt16, isDigit v = false → v ≠ unit '-' → u ≠ v := by
    rintro v hdigit hsign rfl
    rcases h with h | h
    · rw [hdigit] at h
      cases h
    · exact hsign h
  have hspace : ∀ v : UInt16, isDigit v = false → v ≠ unit '-' → (u == v) = false :=
    fun v hdigit hsign => beq_eq_false_iff_ne.mpr (hne v hdigit hsign)
  refine ⟨?_, hne _ (by decide) (by decide), hne _ (by decide) (by decide),
    hne _ (by decide) (by decide), hne _ (by decide) (by decide), hne _ (by decide) (by decide),
    hne _ (by decide) (by decide), hne _ (by decide) (by decide)⟩
  rw [isJsonSpace, hspace 0x20 (by decide) (by decide), hspace 9 (by decide) (by decide),
    hspace 10 (by decide) (by decide), hspace 13 (by decide) (by decide)]
  rfl

/-! ## Parsing what is printed -/

theorem endsNumber_cons (h : isDigit u = false) (hpoint : u ≠ unit '.') (he : u ≠ unit 'e')
    (hE : u ≠ unit 'E') (t : Text) : EndsNumber (u :: t) := by
  intro v hv
  cases hv
  exact ⟨h, hpoint, he, hE⟩

theorem join_cons (part next : Text) (parts : List Text) :
    join (part :: next :: parts) = part ++ unit ',' :: join (next :: parts) := by
  rw [join, List.intercalate_cons_cons, List.append_assoc]
  rfl

theorem scanWord_text (word : String) (rest : Text) :
    scanWord word (text word ++ rest) = some rest := by
  have hprefix : Text.startsWith (text word ++ rest) (text word) = true :=
    List.isPrefixOf_iff_prefix.mpr (List.prefix_append _ _)
  rw [scanWord, if_pos hprefix, List.drop_left]

section Parse

variable {F : Type} {format : FloatFormat F} (lawful : format.Lawful)

include lawful

theorem number_begins {x : Number F} (hx : x.isFinite = true) :
    ∃ u rest, x.toText format = u :: rest ∧ (isDigit u = true ∨ u = unit '-') := by
  have hnil : EndsNumber [] := fun _ h => by cases h
  obtain ⟨token, hscan, -⟩ := scanNumber_number lawful hx hnil
  rw [List.append_nil] at hscan
  exact scanNumber_begins hscan

theorem stringify_begins {v : Value F} (h : v.IsJson) : Begins (stringify format v) := by
  cases v with
  | null => exact ⟨_, _, rfl, by decide, by decide⟩
  | bool b => cases b <;> exact ⟨_, _, rfl, by decide, by decide⟩
  | num x =>
      obtain ⟨u, rest, htext, hu⟩ := number_begins lawful h
      exact ⟨u, rest, htext, (number_units hu).1, (number_units hu).2.1⟩
  | str t => exact ⟨_, _, rfl, by decide, by decide⟩
  | arr vs => exact ⟨_, _, rfl, by decide, by decide⟩
  | obj ms => exact ⟨_, _, rfl, by decide, by decide⟩
  | foreign => exact ⟨_, _, rfl, by decide, by decide⟩

theorem elements_begin {v : Value F} {vs : List (Value F)} (h : v.IsJson) :
    Begins (join (elementTexts format (v :: vs))) := by
  obtain ⟨u, rest, htext, hspace, hclosed⟩ := stringify_begins lawful h
  cases vs with
  | nil =>
      refine ⟨u, rest, ?_, hspace, hclosed⟩
      simp [elementTexts, join, htext]
  | cons w vs =>
      refine ⟨u, rest ++ unit ',' :: join (elementTexts format (w :: vs)), ?_, hspace, hclosed⟩
      rw [elementTexts, elementTexts, join_cons, htext]
      rfl

omit lawful in
theorem members_begin (m : Text × Value F) (ms : List (Text × Value F)) :
    ∃ rest, join (memberTexts format (m :: ms)) = unit '"' :: rest := by
  obtain ⟨k, v⟩ := m
  cases ms with
  | nil =>
      refine ⟨escapeUnits k ++ unit '"' :: unit ':' :: stringify format v, ?_⟩
      simp [memberTexts, join, memberText, quote]
  | cons m ms =>
      obtain ⟨l, w⟩ := m
      rw [memberTexts, memberTexts, join_cons]
      exact ⟨_, rfl⟩

set_option linter.unusedSectionVars false in
mutual

theorem parseValue_stringify (fuel : Nat) {v : Value F} {rest : Text} (h : v.IsJson)
    (hfuel : (stringify format v).length < fuel) (hrest : EndsNumber rest) :
    parseValue format fuel (stringify format v ++ rest) = some (v.unsigned, rest) := by
  obtain ⟨fuel, rfl⟩ : ∃ n, fuel = n + 1 := ⟨fuel - 1, by omega⟩
  match v with
  | .null => exact congrArg (Option.map _) (scanWord_text "null" rest)
  | .bool true => exact congrArg (Option.map _) (scanWord_text "true" rest)
  | .bool false => exact congrArg (Option.map _) (scanWord_text "false" rest)
  | .num x =>
      obtain ⟨u, t, htext, hu⟩ := number_begins lawful h
      obtain ⟨token, hscan, hread⟩ := scanNumber_number lawful h hrest
      obtain ⟨hspace, -, hquote, harr, hobj, hn, ht, hf⟩ := number_units hu
      rw [stringify, parseValue]
      rw [htext, List.cons_append] at hscan ⊢
      rw [skipSpace_cons hspace]
      dsimp only
      rw [if_neg hquote, if_neg harr, if_neg hobj, if_neg hn, if_neg ht, if_neg hf, hscan]
      simp only [Option.map_some, hread, Value.unsigned]
  | .str t =>
      obtain ⟨body, htext, hscan⟩ := scanString_quote t rest
      rw [stringify, htext, parseValue, skipSpace_cons (by decide)]
      dsimp only
      rw [if_pos rfl, hscan]
      rfl
  | .arr [] => rfl
  | .arr (w :: vs) =>
      obtain ⟨u, t, htext, hspace, hclosed⟩ := @elements_begin _ _ lawful w vs h.1
      have hlength : (join (elementTexts format (w :: vs))).length + 1 < fuel := by
        rw [stringify, List.length_cons, List.length_append, List.length_singleton] at hfuel
        omega
      have helements := parseElements_join fuel h hlength rest
      rw [stringify, List.cons_append, List.append_assoc, List.singleton_append, parseValue,
        skipSpace_cons (by decide)]
      dsimp only
      rw [if_neg (by decide), if_pos rfl]
      rw [htext, List.cons_append] at helements ⊢
      rw [skipSpace_cons hspace]
      dsimp only
      rw [if_neg hclosed, helements]
      rfl
  | .obj [] => rfl
  | .obj (m :: ms) =>
      obtain ⟨t, htext⟩ := members_begin m ms
      have hlength : (join (memberTexts format (m :: ms))).length + 1 < fuel := by
        rw [stringify, List.length_cons, List.length_append, List.length_singleton] at hfuel
        omega
      have hmembers := parseMembers_join fuel h.2 hlength rest
      rw [stringify, List.cons_append, List.append_assoc, List.singleton_append, parseValue,
        skipSpace_cons (by decide)]
      dsimp only
      rw [if_neg (by decide), if_neg (by decide), if_pos rfl]
      rw [htext, List.cons_append] at hmembers ⊢
      rw [skipSpace_cons (by decide)]
      dsimp only
      rw [if_neg (by decide), hmembers]
      rfl

theorem parseElements_join (fuel : Nat) {v : Value F} {vs : List (Value F)}
    (h : ElementsJson (v :: vs))
    (hfuel : (join (elementTexts format (v :: vs))).length + 1 < fuel) (rest : Text) :
    parseElements format fuel (join (elementTexts format (v :: vs)) ++ unit ']' :: rest)
      = some (unsignedElements (v :: vs), rest) := by
  obtain ⟨fuel, rfl⟩ : ∃ n, fuel = n + 1 := ⟨fuel - 1, by omega⟩
  match vs with
  | [] =>
      have hsingle : join (elementTexts format [v]) = stringify format v := by
        simp [elementTexts, join]
      rw [hsingle] at hfuel ⊢
      have hvalue := parseValue_stringify fuel h.1 (by omega)
        (endsNumber_cons (u := unit ']') (by decide) (by decide) (by decide) (by decide) rest)
      rw [parseElements, hvalue, Option.bind_some]
      dsimp only
      rw [skipSpace_cons (by decide)]
      dsimp only
      rw [if_neg (by decide), if_pos rfl]
      rfl
  | w :: vs =>
      have hjoin : join (elementTexts format (v :: w :: vs))
          = stringify format v ++ unit ',' :: join (elementTexts format (w :: vs)) := by
        rw [elementTexts, elementTexts, join_cons]
      rw [hjoin] at hfuel ⊢
      rw [List.length_append, List.length_cons] at hfuel
      have hvalue := parseValue_stringify fuel h.1 (by omega)
        (endsNumber_cons (u := unit ',') (by decide) (by decide) (by decide) (by decide)
          (join (elementTexts format (w :: vs)) ++ unit ']' :: rest))
      have helements := parseElements_join fuel h.2 (by
        obtain ⟨u, t, htext, -⟩ := stringify_begins lawful h.1
        rw [htext, List.length_cons] at hfuel
        omega) rest
      rw [List.append_assoc, List.cons_append, parseElements, hvalue, Option.bind_some]
      dsimp only
      rw [skipSpace_cons (by decide)]
      dsimp only
      rw [if_pos rfl, helements]
      rfl

theorem parseMembers_join (fuel : Nat) {m : Text × Value F} {ms : List (Text × Value F)}
    (h : MembersJson (m :: ms))
    (hfuel : (join (memberTexts format (m :: ms))).length + 1 < fuel) (rest : Text) :
    parseMembers format fuel (join (memberTexts format (m :: ms)) ++ unit '\x7d' :: rest)
      = some (unsignedMembers (m :: ms), rest) := by
  obtain ⟨fuel, rfl⟩ : ∃ n, fuel = n + 1 := ⟨fuel - 1, by omega⟩
  obtain ⟨k, v⟩ := m
  match ms with
  | [] =>
      have hsingle : join (memberTexts format [(k, v)]) = memberText k (stringify format v) := by
        simp [memberTexts, join]
      rw [hsingle, memberText] at hfuel ⊢
      rw [List.length_append, List.length_cons] at hfuel
      obtain ⟨body, htext, hscan⟩ := scanString_quote k
        (unit ':' :: (stringify format v ++ unit '\x7d' :: rest))
      have hvalue := parseValue_stringify fuel h.1 (by omega)
        (endsNumber_cons (u := unit '\x7d') (by decide) (by decide) (by decide) (by decide) rest)
      rw [List.append_assoc, List.cons_append, htext, parseMembers, skipSpace_cons (by decide)]
      dsimp only
      rw [if_pos rfl, hscan, Option.bind_some]
      dsimp only
      rw [skipSpace_cons (by decide)]
      dsimp only
      rw [if_pos rfl, hvalue, Option.bind_some]
      dsimp only
      rw [skipSpace_cons (by decide)]
      dsimp only
      rw [if_neg (by decide), if_pos rfl]
      rfl
  | m :: ms =>
      have hjoin : join (memberTexts format ((k, v) :: m :: ms))
          = memberText k (stringify format v) ++ unit ',' :: join (memberTexts format (m :: ms)) := by
        obtain ⟨l, w⟩ := m
        rw [memberTexts, memberTexts, join_cons]
      rw [hjoin, memberText] at hfuel ⊢
      rw [List.length_append, List.length_append, List.length_cons, List.length_cons] at hfuel
      obtain ⟨body, htext, hscan⟩ := scanString_quote k (unit ':' :: (stringify format v
        ++ unit ',' :: (join (memberTexts format (m :: ms)) ++ unit '\x7d' :: rest)))
      have hvalue := parseValue_stringify fuel h.1 (by omega)
        (endsNumber_cons (u := unit ',') (by decide) (by decide) (by decide) (by decide)
          (join (memberTexts format (m :: ms)) ++ unit '\x7d' :: rest))
      have hmembers := parseMembers_join fuel h.2 (by omega) rest
      rw [List.append_assoc, List.append_assoc, List.cons_append, List.cons_append, htext,
        parseMembers, skipSpace_cons (by decide)]
      dsimp only
      rw [if_pos rfl, hscan, Option.bind_some]
      dsimp only
      rw [skipSpace_cons (by decide)]
      dsimp only
      rw [if_pos rfl, hvalue, Option.bind_some]
      dsimp only
      rw [skipSpace_cons (by decide)]
      dsimp only
      rw [if_pos rfl, hmembers]
      rfl

end

theorem parseText_stringify {v : Value F} (h : v.IsJson) :
    parseText format (stringify format v) = some v.unsigned := by
  have hnil : EndsNumber [] := fun _ h => by cases h
  have hvalue := parseValue_stringify lawful ((stringify format v).length + 1) h
    (Nat.lt_succ_self _) hnil
  rw [List.append_nil] at hvalue
  rw [parseText, hvalue]
  rfl

end Parse

end Asimposium.Codec
