import Asimposium.Render.Sanitize

/-!
# Neutralization is complete

The two passes of `neutralizeUntrustedBody` only ever put an entity in the
place of a `<` or a `"` (`Masked`). The scan behind an opener stops at
either character and at the `&` of an entity alike, so it reads the same
before and behind a rewriting; and no entity brings an opener or a quote.
From this follows that what comes out holds no control comment and no
reserved key, and comes out unchanged when it is neutralized again.
-/

namespace Asimposium

open Text

/-! ## Masked texts -/

/-- `t` is `s` with entities in the place of some `<` and `"`. -/
inductive Masked : Text → Text → Prop
  | nil : Masked [] []
  | keep (u : UInt16) {s t : Text} (h : Masked s t) : Masked (u :: s) (u :: t)
  | mask {u : UInt16} (hu : u = unit '<' ∨ u = unit '"') {entity : Text}
      (hentity : unit '<' ∉ entity) {s t : Text} (h : Masked s t) :
      Masked (u :: s) (unit '&' :: (entity ++ t))

namespace Masked

theorem append_left (l : Text) {s t : Text} (h : Masked s t) : Masked (l ++ s) (l ++ t) := by
  induction l with
  | nil => exact h
  | cons u rest ih => exact .keep u ih

theorem startsWith_eq {s t : Text} (h : Masked s t) {part : Text}
    (hpart : ∀ u ∈ part, u ≠ unit '<' ∧ u ≠ unit '"' ∧ u ≠ unit '&') :
    startsWith t part = startsWith s part := by
  induction part generalizing s t with
  | nil => rfl
  | cons p part ih =>
      obtain ⟨hlt, hquote, hamp⟩ := hpart p (List.mem_cons_self ..)
      have htail := fun {s t} (h : Masked s t) => ih h fun u hu =>
        hpart u (List.mem_cons_of_mem _ hu)
      cases h with
      | nil => rfl
      | keep u h =>
          have := htail h
          simp only [startsWith, List.isPrefixOf] at this ⊢
          rw [this]
      | mask hu _ _ =>
          have hne : (p == unit '&') = false := by simpa using hamp
          have hne' : ∀ u : UInt16, u = unit '<' ∨ u = unit '"' → (p == u) = false := by
            rintro u (rfl | rfl)
            · simpa using hlt
            · simpa using hquote
          simp only [startsWith, List.isPrefixOf, hne, hne' _ hu, Bool.false_and]

theorem closesComment_eq {s t : Text} (h : Masked s t) : closesComment t = closesComment s := by
  unfold closesComment
  rw [h.startsWith_eq (by decide), h.startsWith_eq (by decide)]

end Masked

/-! ## The scan stops at a mask -/

variable {u : UInt16}

theorem nextSemantic_none (h : u ∉ controlCommentNamespace) (seen : Nat) :
    nextSemantic seen [u] = none := by
  unfold nextSemantic
  cases hexpected : controlCommentNamespace[seen]? with
  | none => rfl
  | some expected =>
      have hmem := List.mem_of_getElem? hexpected
      have hne : ¬ [u] = [expected] := by
        rintro heq
        rw [(List.cons.inj heq).1] at h
        exact h hmem
      simp only [hne, ↓reduceIte]

/-- A character that neither ends nor continues the namespace. -/
def stopsScan (u : UInt16) : Bool :=
  isAscii u && u != unit '-' && u != unit ':' && !isAsciiSpace u
    && !controlCommentNamespace.contains (foldAscii u)

theorem scanStep_stop (unicode : Unicode) (hstop : stopsScan u = true) (seen : Nat) (rest : Text)
    (next : Nat → Bool) : scanStep unicode seen [u] (u :: rest) next = false := by
  simp only [stopsScan, Bool.and_eq_true, bne_iff_ne, ne_eq, Bool.not_eq_true',
    List.contains_eq_mem, decide_eq_false_iff_not] at hstop
  obtain ⟨⟨⟨⟨hascii, hdash⟩, hcolon⟩, hspace⟩, hname⟩ := hstop
  have hcloses : closesComment (u :: rest) = false := by
    have hne : (unit '-' == u) = false := by simpa using fun h => hdash h.symm
    have hclosers : text "-->" = unit '-' :: text "->" ∧ text "--!>" = unit '-' :: text "-!>" :=
      ⟨rfl, rfl⟩
    simp only [closesComment, startsWith, hclosers, List.isPrefixOf, hne, Bool.false_and,
      Bool.or_self]
  have hcolon' : isColon unicode [u] = false := by
    simp [isColon, hascii, hcolon]
  have hspace' : isControlCommentWhitespace [u] = false := by
    simp [isControlCommentWhitespace, hascii, hspace]
  have hcharacters : semanticCharacters unicode [u] = [[foldAscii u]] := by
    simp [semanticCharacters, hascii]
  simp only [scanStep, hcloses, hcolon', hspace', hcharacters, Bool.or_self, Bool.false_eq_true,
    ↓reduceIte, List.foldlM_cons, nextSemantic_none hname, Option.bind_eq_bind, Option.bind_none]

variable {rest : Text}

theorem scanNamespace_cons (unicode : Unicode) (seen : Nat)
    (h : ∀ v tail, rest = v :: tail → (isHighSurrogate u && isLowSurrogate v) = false) :
    scanNamespace unicode seen (u :: rest)
      = scanStep unicode seen [u] (u :: rest) fun seen => scanNamespace unicode seen rest := by
  cases rest with
  | nil => rfl
  | cons v tail =>
      rw [scanNamespace, if_neg]
      rw [h v tail rfl]
      exact Bool.false_ne_true

theorem scanNamespace_stop (unicode : Unicode) (hstop : stopsScan u = true) (seen : Nat)
    (rest : Text) : scanNamespace unicode seen (u :: rest) = false := by
  have hascii : isAscii u = true := by
    simp only [stopsScan, Bool.and_eq_true] at hstop
    exact hstop.1.1.1.1
  rw [scanNamespace_cons unicode seen fun v tail _ => by rw [(not_surrogate hascii).1]; rfl]
  exact scanStep_stop unicode hstop ..

theorem scanStep_congr (unicode : Unicode) {seen : Nat} {point here here' : Text}
    {next next' : Nat → Bool} (hcloses : closesComment here' = closesComment here)
    (hnext : ∀ seen, next' seen = next seen) :
    scanStep unicode seen point here' next' = scanStep unicode seen point here next := by
  rw [funext hnext]
  unfold scanStep
  rw [hcloses]

theorem stopsScan_mask (hu : u = unit '<' ∨ u = unit '"') : stopsScan u = true := by
  rcases hu with rfl | rfl <;> decide

variable {s t : Text}

theorem Masked.scanNamespace_eq (unicode : Unicode) (h : Masked s t) (seen : Nat) :
    scanNamespace unicode seen t = scanNamespace unicode seen s := by
  induction s using codePoints.induct generalizing t seen with
  | case1 => cases h; rfl
  | case2 u =>
      cases h with
      | keep _ h => cases h; rfl
      | mask hu _ h =>
          rw [scanNamespace_stop unicode (stopsScan_mask hu),
            scanNamespace_stop unicode (by decide)]
  | case3 u v rest hpair ih =>
      obtain ⟨hhigh, hlow⟩ := Bool.and_eq_true .. |>.mp hpair
      have hkeep : ∀ x : UInt16, x = unit '<' ∨ x = unit '"' →
          isHighSurrogate x = false ∧ isLowSurrogate x = false := by
        rintro x (rfl | rfl) <;> decide
      have hcloses := h.closesComment_eq
      cases h with
      | mask hu _ _ => rw [(hkeep u hu).1] at hhigh; cases hhigh
      | keep _ h =>
          cases h with
          | mask hu _ _ => rw [(hkeep v hu).2] at hlow; cases hlow
          | keep _ h =>
              rw [scanNamespace, scanNamespace, if_pos hpair, if_pos hpair]
              exact scanStep_congr unicode hcloses fun seen => ih h seen
  | case4 u v rest hpair ih =>
      have hcloses := h.closesComment_eq
      cases h with
      | mask hu _ _ =>
          rw [scanNamespace_stop unicode (stopsScan_mask hu),
            scanNamespace_stop unicode (by decide)]
      | keep _ h =>
          have hpair' : ∀ w tail, v :: rest = w :: tail →
              (isHighSurrogate u && isLowSurrogate w) = false := by
            rintro w tail heq
            rw [← (List.cons.inj heq).1]
            simpa using hpair
          rw [scanNamespace_cons unicode seen hpair', scanNamespace_cons unicode seen]
          · exact scanStep_congr unicode hcloses fun seen => ih h seen
          · rintro w tail rfl
            cases h with
            | keep _ _ => exact hpair' v rest rfl
            | mask _ _ _ =>
                rw [(not_surrogate (by decide : isAscii (unit '&') = true)).2, Bool.and_false]

/-! ## Control comments -/

theorem startsWith_controlCommentOpen (h : startsWith (u :: rest) controlCommentOpen = true) :
    u = unit '<' := by
  have hopen : controlCommentOpen = unit '<' :: text "!--" := rfl
  simp only [startsWith, hopen, List.isPrefixOf, Bool.and_eq_true, beq_iff_eq] at h
  exact h.1.symm

theorem opens_lt {unicode : Unicode} (h : opensControlComment unicode (u :: rest) = true) :
    u = unit '<' := by
  simp only [opensControlComment, Bool.and_eq_true] at h
  exact startsWith_controlCommentOpen h.1

theorem hasAsimpControlComment_append (unicode : Unicode) (h : unit '<' ∉ s) :
    hasAsimpControlComment unicode (s ++ t) = hasAsimpControlComment unicode t := by
  induction s with
  | nil => rfl
  | cons u s ih =>
      simp only [List.mem_cons, not_or] at h
      have hopens : opensControlComment unicode (u :: (s ++ t)) = false := by
        by_contra hopens
        exact h.1 (opens_lt (by simpa using hopens)).symm
      rw [List.cons_append, hasAsimpControlComment, hopens, ih h.2, Bool.false_or]

theorem Masked.opens_eq (unicode : Unicode) (u : UInt16) (h : Masked s t) :
    opensControlComment unicode (u :: t) = opensControlComment unicode (u :: s) := by
  have hopen : controlCommentOpen = unit '<' :: text "!--" := rfl
  have hplain : ∀ u ∈ text "!--", u ≠ unit '<' ∧ u ≠ unit '"' ∧ u ≠ unit '&' := by decide
  unfold opensControlComment
  cases hbegins : startsWith s (text "!--") with
  | false =>
      have hbegins' := (h.startsWith_eq hplain).trans hbegins
      simp only [startsWith] at hbegins hbegins'
      simp only [startsWith, hopen, List.isPrefixOf, hbegins, hbegins', Bool.and_false,
        Bool.false_and]
  | true =>
      have hbegins' := (h.startsWith_eq hplain).trans hbegins
      obtain ⟨s', rfl⟩ := List.isPrefixOf_iff_prefix.mp hbegins
      have hrest : ∀ (p : Text), (∀ x ∈ p, x ≠ unit '<' ∧ x ≠ unit '"') → ∀ {t : Text},
          Masked (p ++ s') t → ∃ t', t = p ++ t' ∧ Masked s' t' := by
        intro p hp
        induction p with
        | nil => exact fun h => ⟨_, rfl, h⟩
        | cons x p ih =>
            intro t h
            obtain ⟨hlt, hquote⟩ := hp x (List.mem_cons_self ..)
            cases h with
            | mask hu _ _ => exact absurd hu (not_or.mpr ⟨hlt, hquote⟩)
            | keep _ h =>
                obtain ⟨t', rfl, ht'⟩ := ih (fun y hy => hp y (List.mem_cons_of_mem _ hy)) h
                exact ⟨t', rfl, ht'⟩
      obtain ⟨t', rfl, ht'⟩ := hrest (text "!--") (by decide) h
      have hdrop : ∀ tail : Text, (u :: (text "!--" ++ tail)).drop controlCommentOpen.length
          = tail := fun _ => rfl
      have hboth : ∀ tail : Text, startsWith (u :: (text "!--" ++ tail)) controlCommentOpen
          = (unit '<' == u) := by
        intro tail
        have hself : (text "!--").isPrefixOf (text "!--" ++ tail) = true :=
          List.isPrefixOf_iff_prefix.mpr (List.prefix_append ..)
        rw [startsWith, hopen, List.isPrefixOf, hself, Bool.and_true]
      rw [hboth, hboth, hdrop, hdrop, isAsimpControlComment, isAsimpControlComment,
        ht'.scanNamespace_eq unicode]

theorem neutralizeControlComments_cons (unicode : Unicode) (u : UInt16) (rest : Text) :
    neutralizeControlComments unicode (u :: rest)
      = if opensControlComment unicode (u :: rest) then
          (text "&lt;" ++ (neutralizeControlComments unicode rest).1,
            (neutralizeControlComments unicode rest).2 + 1)
        else (u :: (neutralizeControlComments unicode rest).1,
          (neutralizeControlComments unicode rest).2) :=
  rfl

theorem neutralizeControlComments_masked (unicode : Unicode) (body : Text) :
    Masked body (neutralizeControlComments unicode body).1 := by
  induction body with
  | nil => exact .nil
  | cons u rest ih =>
      rw [neutralizeControlComments_cons]
      split
      · rename_i hopens
        exact @Masked.mask _ (.inl (opens_lt hopens)) (text "lt;") (by decide) _ _ ih
      · exact .keep u ih

theorem neutralizeControlComments_complete (unicode : Unicode) (body : Text) :
    hasAsimpControlComment unicode (neutralizeControlComments unicode body).1 = false := by
  induction body with
  | nil => rfl
  | cons u rest ih =>
      rw [neutralizeControlComments_cons]
      split
      · rw [hasAsimpControlComment_append unicode (by decide)]
        exact ih
      · rename_i hopens
        rw [hasAsimpControlComment, ih, Bool.or_false,
          (neutralizeControlComments_masked unicode rest).opens_eq unicode u]
        simpa using hopens

theorem neutralizeControlComments_eq_self (unicode : Unicode) {body : Text}
    (h : hasAsimpControlComment unicode body = false) :
    neutralizeControlComments unicode body = (body, 0) := by
  induction body with
  | nil => rfl
  | cons u rest ih =>
      rw [hasAsimpControlComment, Bool.or_eq_false_iff] at h
      rw [neutralizeControlComments_cons, ih h.2, h.1]
      rfl

theorem Masked.hasAsimpControlComment_eq_false (unicode : Unicode) (h : Masked s t)
    (hs : hasAsimpControlComment unicode s = false) : hasAsimpControlComment unicode t = false := by
  induction h with
  | nil => rfl
  | keep u h ih =>
      rw [hasAsimpControlComment, Bool.or_eq_false_iff] at hs ⊢
      exact ⟨(h.opens_eq unicode u).trans hs.1, ih hs.2⟩
  | @mask u hu entity hentity s t h ih =>
      rw [hasAsimpControlComment, Bool.or_eq_false_iff] at hs
      rw [← List.cons_append, hasAsimpControlComment_append]
      · exact ih hs.2
      · simp only [List.mem_cons, not_or]
        exact ⟨by decide, hentity⟩

/-! ## Envelope keys -/

/-- A text spells another with literal characters and JSON escapes. -/
inductive Spells : Text → Text → Prop
  | nil : Spells [] []
  | literal {u : UInt16} (hu : u ≠ unit '\\') {s t : Text} (h : Spells s t) :
      Spells (u :: s) (u :: t)
  | escape {spelling : Text} {u : UInt16} (hlength : spelling.length = 6)
      (hu : jsonUnicodeEscape spelling = some u) {s t : Text} (h : Spells s t) :
      Spells (spelling ++ s) (u :: t)

/-- A reserved key in JSON-key position at the head of a text. -/
def ReservedKeyHere (t : Text) : Prop :=
  ∃ key ∈ reservedEnvelopeKeys, ∃ spelling gap after, Spells spelling key
    ∧ (∀ u ∈ gap, isSpace u = true)
    ∧ t = unit '"' :: (spelling ++ unit '"' :: (gap ++ unit ':' :: after))

def HasReservedKey (t : Text) : Prop := ∃ here, here <:+ t ∧ ReservedKeyHere here

variable {spelling : Text}

theorem jsonUnicodeEscape_append (hlength : spelling.length = 6) (rest : Text) :
    jsonUnicodeEscape (spelling ++ rest) = jsonUnicodeEscape spelling := by
  match spelling, hlength with
  | [_, _, _, _, _, _], _ => rfl

theorem jsonUnicodeEscape_head {u : UInt16} {rest : Text} (hu : u ≠ unit '\\') :
    jsonUnicodeEscape (u :: rest) = none := by
  unfold jsonUnicodeEscape
  split
  · rename_i heq
    rw [if_neg]
    rintro ⟨rfl, -⟩
    exact hu (List.cons.inj heq).1
  · rfl

theorem jsonUnicodeEscape_chars (hlength : spelling.length = 6)
    (hu : jsonUnicodeEscape spelling = some u) {x : UInt16} (hx : hexDigit x = none)
    (hslash : x ≠ unit '\\') (hletter : x ≠ unit 'u') : x ∉ spelling := by
  match spelling, hlength with
  | [slash, letter, a, b, c, d], _ =>
      simp only [jsonUnicodeEscape] at hu
      split at hu
      · rename_i hhead
        obtain ⟨rfl, rfl⟩ := hhead
        cases ha : hexDigit a with
        | none => rw [ha] at hu; cases hu
        | some a' =>
        cases hb : hexDigit b with
        | none => rw [ha, hb] at hu; cases hu
        | some b' =>
        cases hc : hexDigit c with
        | none => rw [ha, hb, hc] at hu; cases hu
        | some c' =>
        cases hd : hexDigit d with
        | none => rw [ha, hb, hc, hd] at hu; cases hu
        | some d' =>
        simp only [List.mem_cons, List.not_mem_nil, or_false, not_or]
        refine ⟨hslash, hletter, ?_, ?_, ?_, ?_⟩ <;> rintro rfl
        · rw [hx] at ha; cases ha
        · rw [hx] at hb; cases hb
        · rw [hx] at hc; cases hc
        · rw [hx] at hd; cases hd
      · cases hu

theorem decode_escape (hlength : spelling.length = 6) (hu : jsonUnicodeEscape spelling = some u)
    (rest : Text) :
    decodeJsonUnicodeEscapes (spelling ++ rest) = u :: decodeJsonUnicodeEscapes rest := by
  have hhead := (jsonUnicodeEscape_append hlength rest).trans hu
  match spelling, hlength with
  | x :: [a, b, c, d, e], _ =>
      rw [List.cons_append] at hhead ⊢
      rw [decodeJsonUnicodeEscapes, hhead]
      rfl

theorem decode_literal (hu : u ≠ unit '\\') (rest : Text) :
    decodeJsonUnicodeEscapes (u :: rest) = u :: decodeJsonUnicodeEscapes rest := by
  rw [decodeJsonUnicodeEscapes, jsonUnicodeEscape_head hu]

theorem Spells.decode (h : Spells s t) : decodeJsonUnicodeEscapes s = t := by
  induction h with
  | nil => rw [decodeJsonUnicodeEscapes]
  | literal hu _ ih => rw [decode_literal hu, ih]
  | escape hlength hu _ ih => rw [decode_escape hlength hu, ih]

theorem isKeyCharacter_ne {x : UInt16} (hu : isKeyCharacter u = true)
    (hx : isKeyCharacter x = false) : u ≠ x := by
  rintro rfl
  rw [hu] at hx
  cases hx

theorem keyCharacterWidth_literal (hu : isKeyCharacter u = true) (rest : Text) :
    keyCharacterWidth (u :: rest) = some 1 := by
  have hslash : u ≠ unit '\\' := isKeyCharacter_ne hu (by decide)
  simp [keyCharacterWidth, jsonUnicodeEscape_head hslash, hu]

theorem keyCharacterWidth_escape (hlength : spelling.length = 6)
    (hu : jsonUnicodeEscape spelling = some u) (rest : Text) :
    keyCharacterWidth (spelling ++ rest) = some 6 := by
  simp [keyCharacterWidth, jsonUnicodeEscape_append hlength, hu]

theorem keyCharacterWidth_some {width : Nat} (h : keyCharacterWidth t = some width) :
    (∃ spelling u rest, t = spelling ++ rest ∧ spelling.length = 6 ∧ width = 6
        ∧ jsonUnicodeEscape spelling = some u)
      ∨ ∃ u rest, t = u :: rest ∧ width = 1 ∧ isKeyCharacter u = true := by
  unfold keyCharacterWidth at h
  split at h
  · rename_i hsome
    cases h
    left
    obtain ⟨u, hu⟩ := Option.isSome_iff_exists.mp hsome
    match t with
    | a :: b :: c :: d :: e :: f :: rest =>
        refine ⟨[a, b, c, d, e, f], u, rest, rfl, rfl, rfl, ?_⟩
        rw [← hu]
        exact (jsonUnicodeEscape_append (by rfl) rest).symm
  · right
    split at h
    · rename_i u rest hsome
      split at h
      · rename_i hkey
        cases h
        exact ⟨u, rest, rfl, rfl, hkey⟩
      · cases h
    · cases h

variable {key : Text}

theorem Spells.encodedKeyLength_eq (h : Spells s key) (hkey : ∀ u ∈ key, isKeyCharacter u = true)
    {bound : Nat} (hbound : key.length ≤ bound) (tail : Text) :
    encodedKeyLength bound (s ++ unit '"' :: tail) = s.length := by
  induction h generalizing bound with
  | nil =>
      have hstop : keyCharacterWidth (unit '"' :: tail) = none := by
        simp [keyCharacterWidth, @jsonUnicodeEscape_head (unit '"') tail (by decide),
          (by decide : isKeyCharacter (unit '"') = false)]
      cases bound with
      | zero => rfl
      | succ bound => rw [List.nil_append, encodedKeyLength, hstop]; rfl
  | @literal u _ s key h ih =>
      cases bound with
      | zero => simp at hbound
      | succ bound =>
          have hu := hkey u (List.mem_cons_self ..)
          rw [List.cons_append, encodedKeyLength, keyCharacterWidth_literal hu]
          simp only [List.drop_succ_cons, List.drop_zero, List.length_cons]
          rw [ih (fun v hv => hkey v (List.mem_cons_of_mem _ hv)) (by simpa using hbound)]
          omega
  | @escape spelling u hlength hu s key h ih =>
      cases bound with
      | zero => simp at hbound
      | succ bound =>
          rw [List.append_assoc, encodedKeyLength, keyCharacterWidth_escape hlength hu]
          simp only [List.length_append, hlength]
          rw [← hlength, List.drop_left,
            ih (fun v hv => hkey v (List.mem_cons_of_mem _ hv)) (by simpa using hbound)]

theorem encodedKeyLength_spells (bound : Nat) (t : Text) :
    Spells (t.take (encodedKeyLength bound t))
        (decodeJsonUnicodeEscapes (t.take (encodedKeyLength bound t)))
      ∧ unit '"' ∉ t.take (encodedKeyLength bound t) := by
  induction bound generalizing t with
  | zero => rw [encodedKeyLength, List.take_zero, decodeJsonUnicodeEscapes]; exact ⟨.nil, by simp⟩
  | succ bound ih =>
      rw [encodedKeyLength]
      cases hwidth : keyCharacterWidth t with
      | none =>
          simp only [List.take_zero]
          rw [decodeJsonUnicodeEscapes]
          exact ⟨.nil, by simp⟩
      | some width =>
          dsimp only
          rcases keyCharacterWidth_some hwidth with ⟨spelling, u, rest, rfl, hlength, rfl, hu⟩ |
            ⟨u, rest, rfl, rfl, hu⟩
          · obtain ⟨hspells, hquote⟩ := ih rest
            have htake : (spelling ++ rest).take (6 + encodedKeyLength bound rest)
                = spelling ++ rest.take (encodedKeyLength bound rest) := by
              rw [← hlength, List.take_length_add_append]
            have hdrop : (spelling ++ rest).drop 6 = rest := by rw [← hlength, List.drop_left]
            rw [hdrop, htake, decode_escape hlength hu]
            refine ⟨.escape hlength hu hspells, ?_⟩
            simp only [List.mem_append, not_or]
            exact ⟨jsonUnicodeEscape_chars hlength hu (by decide) (by decide) (by decide), hquote⟩
          · obtain ⟨hspells, hquote⟩ := ih rest
            have hslash : u ≠ unit '\\' := isKeyCharacter_ne hu (by decide)
            have htake : (u :: rest).take (1 + encodedKeyLength bound rest)
                = u :: rest.take (encodedKeyLength bound rest) := by
              rw [Nat.add_comm]
              rfl
            have hdrop : (u :: rest).drop 1 = rest := rfl
            rw [hdrop, htake, decode_literal hslash]
            refine ⟨.literal hslash hspells, ?_⟩
            simp only [List.mem_cons, not_or]
            exact ⟨(isKeyCharacter_ne hu (by decide)).symm, hquote⟩

theorem reservedEnvelopeKeys_characters (h : key ∈ reservedEnvelopeKeys) :
    (∀ u ∈ key, isKeyCharacter u = true) ∧ key.length ≤ longestReservedEnvelopeKey
      ∧ key ≠ [] := by
  simp only [reservedEnvelopeKeys, List.mem_cons, List.not_mem_nil, or_false] at h
  rcases h with rfl | rfl <;> decide

theorem Spells.ne_nil (h : Spells s t) (ht : t ≠ []) : s ≠ [] := by
  cases h with
  | nil => exact absurd rfl ht
  | literal _ _ => exact List.cons_ne_nil _ _
  | escape hlength _ _ =>
      rintro hnil
      rw [List.append_eq_nil_iff] at hnil
      rw [hnil.1] at hlength
      cases hlength

theorem envelopeKeyCandidate_complete {gap : Text} (hkey : key ∈ reservedEnvelopeKeys)
    (hspells : Spells spelling key) (hgap : ∀ u ∈ gap, isSpace u = true) (after : Text) :
    envelopeKeyCandidate (unit '"' :: (spelling ++ unit '"' :: (gap ++ unit ':' :: after)))
      = some (spelling, gap, after) := by
  obtain ⟨hcharacters, hlength, hne⟩ := reservedEnvelopeKeys_characters hkey
  have hread := hspells.encodedKeyLength_eq hcharacters hlength (gap ++ unit ':' :: after)
  have hcolon : isSpace (unit ':') = false := by decide
  have htake : (gap ++ unit ':' :: after).takeWhile isSpace = gap := by
    rw [List.takeWhile_append_of_pos hgap, List.takeWhile_cons_of_neg (by simp [hcolon]),
      List.append_nil]
  have hdrop : (gap ++ unit ':' :: after).dropWhile isSpace = unit ':' :: after := by
    rw [List.dropWhile_append_of_pos hgap, List.dropWhile_cons_of_neg (by simp [hcolon])]
  have hpos : spelling.length ≠ 0 := by simpa using hspells.ne_nil hne
  simp only [envelopeKeyCandidate, hread, hpos, ne_eq, not_false_eq_true, and_self, ↓reduceIte,
    List.drop_left, htake, hdrop, List.take_left]

theorem isKeyCharacter_not_space (hkey : isKeyCharacter u = true) (hspace : isSpace u = true) :
    False := by
  have hunit : ∀ c : Char, (unit c).toNat = c.toNat % 65536 := fun c => rfl
  simp only [isKeyCharacter, isAlphanumeric, isUpper, isLower, isDigit, Bool.or_eq_true,
    Bool.and_eq_true, decide_eq_true_eq, beq_iff_eq, UInt16.le_iff_toNat_le,
    ← UInt16.toNat_inj, hunit] at hkey
  simp only [isSpace, Bool.or_eq_true, Bool.and_eq_true, decide_eq_true_eq, beq_iff_eq,
    UInt16.le_iff_toNat_le, ← UInt16.toNat_inj, UInt16.toNat_ofNat] at hspace
  simp only [Char.reduceToNat] at hkey
  omega

theorem envelopeKeyCandidate_sound {gap after : Text}
    (h : envelopeKeyCandidate t = some (key, gap, after)) :
    Spells key (decodeJsonUnicodeEscapes key) ∧ unit '"' ∉ key
      ∧ ∀ u ∈ gap, isSpace u = true := by
  unfold envelopeKeyCandidate at h
  split at h
  · cases h
  · rename_i quote rest
    have hread := encodedKeyLength_spells longestReservedEnvelopeKey rest
    dsimp only at h
    split at h
    · split at h
      · split at h
        · split at h
          · split at h
            · cases h
              exact ⟨hread.1, hread.2, fun u hu => List.all_eq_true.mp List.all_takeWhile u hu⟩
            · cases h
          · cases h
        · cases h
      · cases h
    · cases h

theorem neutralizeReservedEnvelopeKeys_some {gap after : Text}
    (h : envelopeKeyCandidate t = some (key, gap, after)) :
    neutralizeReservedEnvelopeKeys t =
      if decodeJsonUnicodeEscapes key ∈ reservedEnvelopeKeys then
        (text "&quot;" ++ key ++ text "&quot;" ++ gap ++ [unit ':']
            ++ (neutralizeReservedEnvelopeKeys after).1,
          (neutralizeReservedEnvelopeKeys after).2 + 1)
      else
        ([unit '"'] ++ key ++ [unit '"'] ++ gap ++ [unit ':']
            ++ (neutralizeReservedEnvelopeKeys after).1,
          (neutralizeReservedEnvelopeKeys after).2) := by
  rw [neutralizeReservedEnvelopeKeys]
  split
  · rename_i h'
    rw [h] at h'
    cases h'
    rfl
  · rename_i h'
    rw [h] at h'
    cases h'

theorem neutralizeReservedEnvelopeKeys_none (h : envelopeKeyCandidate (u :: rest) = none) :
    neutralizeReservedEnvelopeKeys (u :: rest)
      = (u :: (neutralizeReservedEnvelopeKeys rest).1,
        (neutralizeReservedEnvelopeKeys rest).2) := by
  rw [neutralizeReservedEnvelopeKeys]
  split
  · rename_i h'
    rw [h] at h'
    cases h'
  · rfl

theorem neutralizeReservedEnvelopeKeys_nil : neutralizeReservedEnvelopeKeys [] = ([], 0) := by
  rw [neutralizeReservedEnvelopeKeys]
  split
  · rename_i h
    cases h
  · rfl

theorem neutralizeReservedEnvelopeKeys_cases {motive : Text → Prop} (t : Text)
    (nil : motive [])
    (reserved : ∀ key gap after, decodeJsonUnicodeEscapes key ∈ reservedEnvelopeKeys →
      envelopeKeyCandidate (unit '"' :: (key ++ unit '"' :: (gap ++ unit ':' :: after)))
        = some (key, gap, after) → motive after →
      motive (unit '"' :: (key ++ unit '"' :: (gap ++ unit ':' :: after))))
    (other : ∀ key gap after, decodeJsonUnicodeEscapes key ∉ reservedEnvelopeKeys →
      envelopeKeyCandidate (unit '"' :: (key ++ unit '"' :: (gap ++ unit ':' :: after)))
        = some (key, gap, after) → motive after →
      motive (unit '"' :: (key ++ unit '"' :: (gap ++ unit ':' :: after))))
    (step : ∀ u rest, envelopeKeyCandidate (u :: rest) = none → motive rest →
      motive (u :: rest)) : motive t := by
  induction hlength : t.length using Nat.strong_induction_on generalizing t with
  | _ n ih =>
      cases hcandidate : envelopeKeyCandidate t with
      | some found =>
          obtain ⟨key, gap, after⟩ := found
          have heq := envelopeKeyCandidate_eq hcandidate
          have hafter : motive after := by
            refine ih after.length ?_ after rfl
            rw [← hlength, heq]
            simp only [List.length_cons, List.length_append]
            omega
          rw [heq] at hcandidate ⊢
          by_cases hreserved : decodeJsonUnicodeEscapes key ∈ reservedEnvelopeKeys
          · exact reserved key gap after hreserved hcandidate hafter
          · exact other key gap after hreserved hcandidate hafter
      | none =>
          cases t with
          | nil => exact nil
          | cons u rest =>
              refine step u rest hcandidate (ih rest.length ?_ rest rfl)
              rw [← hlength]
              exact Nat.lt_succ_self _

theorem neutralizeReservedEnvelopeKeys_masked (t : Text) :
    Masked t (neutralizeReservedEnvelopeKeys t).1 := by
  induction t using neutralizeReservedEnvelopeKeys_cases with
  | nil => rw [neutralizeReservedEnvelopeKeys_nil]; exact .nil
  | reserved key gap after hreserved hcandidate ih =>
      rw [neutralizeReservedEnvelopeKeys_some hcandidate, if_pos hreserved]
      simp only [List.append_assoc]
      have hentity : ∀ {s t : Text}, Masked s t → Masked (unit '"' :: s) (text "&quot;" ++ t) :=
        fun h => @Masked.mask _ (.inr rfl) (text "quot;") (by decide) _ _ h
      exact hentity (.append_left key (hentity (.append_left gap (.keep (unit ':') ih))))
  | other key gap after hreserved hcandidate ih =>
      rw [neutralizeReservedEnvelopeKeys_some hcandidate, if_neg hreserved]
      simp only [List.append_assoc]
      exact .keep _ (.append_left key (.keep _ (.append_left gap (.keep (unit ':') ih))))
  | step u rest hcandidate ih =>
      rw [neutralizeReservedEnvelopeKeys_none hcandidate]
      exact .keep u ih

theorem Masked.prefix (h : Masked s t) {part : Text} (hpart : unit '&' ∉ part)
    (hbegins : part <+: t) : part <+: s := by
  induction part generalizing s t with
  | nil => exact List.nil_prefix
  | cons u part ih =>
      simp only [List.mem_cons, not_or] at hpart
      cases h with
      | nil => exact hbegins
      | keep v h =>
          obtain ⟨rfl, hrest⟩ := List.cons_prefix_cons.mp hbegins
          exact List.cons_prefix_cons.mpr ⟨rfl, ih h hpart.2 hrest⟩
      | mask _ _ _ => exact absurd (List.cons_prefix_cons.mp hbegins).1.symm hpart.1

theorem Spells.no_entity (h : Spells s t) (ht : ∀ u ∈ t, isKeyCharacter u = true) :
    unit '&' ∉ s := by
  induction h with
  | nil => simp
  | literal _ _ ih =>
      simp only [List.mem_cons, not_or]
      exact ⟨(isKeyCharacter_ne (ht _ (List.mem_cons_self ..)) (by decide)).symm,
        ih fun v hv => ht v (List.mem_cons_of_mem _ hv)⟩
  | escape hlength hu _ ih =>
      simp only [List.mem_append, not_or]
      exact ⟨jsonUnicodeEscape_chars hlength hu (by decide) (by decide) (by decide),
        ih fun v hv => ht v (List.mem_cons_of_mem _ hv)⟩

theorem Masked.reservedKeyHere (h : Masked s t) (ht : ReservedKeyHere t) : ReservedKeyHere s := by
  obtain ⟨key, hkey, spelling, gap, after, hspells, hgap, rfl⟩ := ht
  have hentity : unit '&' ∉ unit '"' :: (spelling ++ unit '"' :: (gap ++ [unit ':'])) := by
    simp only [List.mem_cons, List.mem_append, List.not_mem_nil, or_false, not_or]
    refine ⟨by decide, hspells.no_entity (reservedEnvelopeKeys_characters hkey).1, by decide,
      fun hmem => ?_, by decide⟩
    exact absurd (hgap _ hmem) (by decide)
  obtain ⟨tail, rfl⟩ := h.prefix hentity ⟨after, by simp⟩
  exact ⟨key, hkey, spelling, gap, tail, hspells, hgap, by simp⟩

theorem ReservedKeyHere.candidate (h : ReservedKeyHere t) :
    ∃ key gap after, envelopeKeyCandidate t = some (key, gap, after)
      ∧ decodeJsonUnicodeEscapes key ∈ reservedEnvelopeKeys := by
  obtain ⟨key, hkey, spelling, gap, after, hspells, hgap, rfl⟩ := h
  exact ⟨spelling, gap, after, envelopeKeyCandidate_complete hkey hspells hgap after,
    hspells.decode ▸ hkey⟩

theorem ReservedKeyHere.quote (h : ReservedKeyHere (u :: rest)) : u = unit '"' := by
  obtain ⟨key, hkey, spelling, gap, after, hspells, hgap, heq⟩ := h
  exact (List.cons.inj heq).1

theorem HasReservedKey.of_append (hs : unit '"' ∉ s) (h : HasReservedKey (s ++ t)) :
    HasReservedKey t := by
  obtain ⟨here, hsuffix, hkey⟩ := h
  induction s with
  | nil => exact ⟨here, hsuffix, hkey⟩
  | cons u s ih =>
      simp only [List.mem_cons, not_or] at hs
      rcases List.suffix_cons_iff.mp hsuffix with rfl | hsuffix
      · exact absurd hkey.quote.symm hs.1
      · exact ih hs.2 hsuffix

theorem HasReservedKey.of_quote (hu : isKeyCharacter u = false) (hslash : u ≠ unit '\\')
    (h : HasReservedKey (unit '"' :: u :: rest)) : HasReservedKey (u :: rest) := by
  obtain ⟨here, hsuffix, hkey⟩ := h
  rcases List.suffix_cons_iff.mp hsuffix with rfl | hsuffix
  · obtain ⟨key, gap, after, hcandidate, -⟩ := hkey.candidate
    have hwidth : keyCharacterWidth (u :: rest) = none := by
      simp [keyCharacterWidth, jsonUnicodeEscape_head hslash, hu]
    have hlength : encodedKeyLength longestReservedEnvelopeKey (u :: rest) = 0 := by
      have hpos : longestReservedEnvelopeKey = 11 + 1 := by decide
      rw [hpos, encodedKeyLength, hwidth]
    simp [envelopeKeyCandidate, hlength] at hcandidate
  · exact ⟨here, hsuffix, hkey⟩

theorem neutralizeReservedEnvelopeKeys_complete (t : Text) :
    ¬ HasReservedKey (neutralizeReservedEnvelopeKeys t).1 := by
  induction t using neutralizeReservedEnvelopeKeys_cases with
  | nil =>
      rw [neutralizeReservedEnvelopeKeys_nil]
      rintro ⟨here, hsuffix, hkey⟩
      rw [List.suffix_nil.mp hsuffix] at hkey
      obtain ⟨key, gap, after, hcandidate, -⟩ := hkey.candidate
      cases hcandidate
  | reserved key gap after hreserved hcandidate ih =>
      obtain ⟨-, hquote, hgap⟩ := envelopeKeyCandidate_sound hcandidate
      rw [neutralizeReservedEnvelopeKeys_some hcandidate, if_pos hreserved]
      intro h
      refine ih (HasReservedKey.of_append ?_ h)
      simp only [List.mem_append, not_or]
      refine ⟨⟨⟨⟨by decide, hquote⟩, by decide⟩, fun hmem => ?_⟩, by decide⟩
      exact absurd (hgap _ hmem) (by decide)
  | other key gap after hreserved hcandidate ih =>
      obtain ⟨-, hquote, hgap⟩ := envelopeKeyCandidate_sound hcandidate
      have hmasked := neutralizeReservedEnvelopeKeys_masked
        (unit '"' :: (key ++ unit '"' :: (gap ++ unit ':' :: after)))
      rw [neutralizeReservedEnvelopeKeys_some hcandidate, if_neg hreserved] at hmasked ⊢
      simp only [List.append_assoc, List.cons_append, List.nil_append] at hmasked ⊢
      rintro ⟨here, hsuffix, hkey⟩
      rcases List.suffix_cons_iff.mp hsuffix with rfl | hsuffix
      · -- a reserved key here would have been the candidate found here
        obtain ⟨key', gap', after', hcandidate', hreserved'⟩ :=
          (hmasked.reservedKeyHere hkey).candidate
        rw [hcandidate] at hcandidate'
        cases hcandidate'
        exact hreserved hreserved'
      · have hclose := HasReservedKey.of_append hquote ⟨here, hsuffix, hkey⟩
        have hnext : ∃ u rest, gap ++ unit ':' :: (neutralizeReservedEnvelopeKeys after).1
            = u :: rest ∧ isKeyCharacter u = false ∧ u ≠ unit '\\' := by
          cases gap with
          | nil => exact ⟨_, _, rfl, by decide, by decide⟩
          | cons u gap =>
              refine ⟨u, _, rfl, ?_, ?_⟩
              · by_contra hu
                have hspace := hgap u (List.mem_cons_self ..)
                exact isKeyCharacter_not_space (by simpa using hu) hspace
              · rintro rfl
                exact absurd (hgap _ (List.mem_cons_self ..)) (by decide)
        obtain ⟨u, rest, hgapColon, hu, hslash⟩ := hnext
        rw [hgapColon] at hclose
        have hafter := hclose.of_quote hu hslash
        rw [← hgapColon] at hafter
        refine ih (HasReservedKey.of_append (s := gap ++ [unit ':']) ?_ (by simpa using hafter))
        simp only [List.mem_append, not_or]
        exact ⟨fun hmem => absurd (hgap _ hmem) (by decide), by decide⟩
  | step u rest hcandidate ih =>
      have hmasked := neutralizeReservedEnvelopeKeys_masked (u :: rest)
      rw [neutralizeReservedEnvelopeKeys_none hcandidate] at hmasked ⊢
      rintro ⟨here, hsuffix, hkey⟩
      rcases List.suffix_cons_iff.mp hsuffix with rfl | hsuffix
      · obtain ⟨key, gap, after, hcandidate', -⟩ := (hmasked.reservedKeyHere hkey).candidate
        rw [hcandidate] at hcandidate'
        cases hcandidate'
      · exact ih ⟨here, hsuffix, hkey⟩

theorem neutralizeReservedEnvelopeKeys_eq_self (h : ¬ HasReservedKey t) :
    (neutralizeReservedEnvelopeKeys t).1 = t := by
  induction t using neutralizeReservedEnvelopeKeys_cases with
  | nil => rw [neutralizeReservedEnvelopeKeys_nil]
  | reserved key gap after hreserved hcandidate ih =>
      obtain ⟨hspells, -, hgap⟩ := envelopeKeyCandidate_sound hcandidate
      exact absurd ⟨_, List.suffix_refl _, _, hreserved, key, gap, after, hspells, hgap, rfl⟩ h
  | other key gap after hreserved hcandidate ih =>
      rw [neutralizeReservedEnvelopeKeys_some hcandidate, if_neg hreserved]
      have hafter : ¬ HasReservedKey after := by
        rintro ⟨here, hsuffix, hkey⟩
        refine h ⟨here, hsuffix.trans ⟨unit '"' :: (key ++ unit '"' :: (gap ++ [unit ':'])), ?_⟩,
          hkey⟩
        simp
      simp only [ih hafter, List.append_assoc, List.cons_append, List.nil_append]
  | step u rest hcandidate ih =>
      rw [neutralizeReservedEnvelopeKeys_none hcandidate]
      have hrest : ¬ HasReservedKey rest := fun ⟨here, hsuffix, hkey⟩ =>
        h ⟨here, hsuffix.trans (List.suffix_cons ..), hkey⟩
      simp only [ih hrest]

/-! ## Bodies -/

theorem neutralizeUntrustedBody_clean (sanitizer : Sanitizer) (body : Text) :
    hasAsimpControlComment sanitizer.toUnicode (neutralizeUntrustedBody sanitizer body).text
      = false :=
  (neutralizeReservedEnvelopeKeys_masked _).hasAsimpControlComment_eq_false _
    (neutralizeControlComments_complete sanitizer.toUnicode body)

/-- What comes out of the sanitizer holds no control comment and no
reserved key in key position, and comes out unchanged a second time. -/
theorem neutralizeUntrustedBody_complete (sanitizer : Sanitizer) (body : Text) :
    hasAsimpControlComment sanitizer.toUnicode (neutralizeUntrustedBody sanitizer body).text = false
      ∧ ¬ HasReservedKey (neutralizeUntrustedBody sanitizer body).text
      ∧ (neutralizeUntrustedBody sanitizer (neutralizeUntrustedBody sanitizer body).text).text
        = (neutralizeUntrustedBody sanitizer body).text := by
  have hcomments : hasAsimpControlComment sanitizer.toUnicode
      (neutralizeUntrustedBody sanitizer body).text = false :=
    (neutralizeReservedEnvelopeKeys_masked _).hasAsimpControlComment_eq_false _
      (neutralizeControlComments_complete sanitizer.toUnicode body)
  have hkeys : ¬ HasReservedKey (neutralizeUntrustedBody sanitizer body).text :=
    neutralizeReservedEnvelopeKeys_complete _
  refine ⟨hcomments, hkeys, ?_⟩
  rw [neutralizeUntrustedBody]
  simp only [neutralizeControlComments_eq_self _ hcomments]
  exact neutralizeReservedEnvelopeKeys_eq_self hkeys

/-! ## Reports -/

def NeutralizedBody.count (result : NeutralizedBody) (marker : NeutralizationMarker) : Nat :=
  ((result.findings.filter (·.marker = marker)).map (·.count)).sum

theorem neutralizeControlComments_length (unicode : Unicode) (body : Text) :
    (neutralizeControlComments unicode body).1.length
      = body.length + 3 * (neutralizeControlComments unicode body).2 := by
  have hentity : (text "&lt;").length = 4 := by decide
  induction body with
  | nil => rfl
  | cons u rest ih =>
      rw [neutralizeControlComments_cons]
      split
      · simp only [List.length_append, List.length_cons, hentity, ih]
        omega
      · simp only [List.length_cons, ih]
        omega

theorem neutralizeReservedEnvelopeKeys_length (t : Text) :
    (neutralizeReservedEnvelopeKeys t).1.length
      = t.length + 10 * (neutralizeReservedEnvelopeKeys t).2 := by
  have hentity : (text "&quot;").length = 6 := by decide
  induction t using neutralizeReservedEnvelopeKeys_cases with
  | nil => rw [neutralizeReservedEnvelopeKeys_nil]; rfl
  | reserved key gap after hreserved hcandidate ih =>
      rw [neutralizeReservedEnvelopeKeys_some hcandidate, if_pos hreserved]
      simp only [List.length_append, List.length_cons, List.length_nil, hentity, ih]
      omega
  | other key gap after hreserved hcandidate ih =>
      rw [neutralizeReservedEnvelopeKeys_some hcandidate, if_neg hreserved]
      simp only [List.length_append, List.length_cons, List.length_nil, ih]
      omega
  | step u rest hcandidate ih =>
      rw [neutralizeReservedEnvelopeKeys_none hcandidate]
      simp only [List.length_cons, ih]
      omega

theorem neutralizeUntrustedBody_count (sanitizer : Sanitizer) (body : Text) :
    (neutralizeUntrustedBody sanitizer body).count .asimpControlComment
        = (neutralizeControlComments sanitizer.toUnicode body).2
      ∧ (neutralizeUntrustedBody sanitizer body).count .envelopeKeyForgery
        = (neutralizeReservedEnvelopeKeys
            (neutralizeControlComments sanitizer.toUnicode body).1).2 := by
  have hfinding : ∀ marker marker' count, ((findingOf marker count).filter (·.marker = marker')).map
      (·.count) = if marker = marker' ∧ 0 < count then [count] else [] := by
    intro marker marker' count
    unfold findingOf
    by_cases hcount : 0 < count <;> by_cases hmarker : marker = marker' <;> simp [hcount, hmarker]
  unfold NeutralizedBody.count neutralizeUntrustedBody
  simp only [List.filter_append, List.map_append, List.sum_append, hfinding]
  constructor
  · by_cases h : 0 < (neutralizeControlComments sanitizer.toUnicode body).2
    · simp [h]
    · simp [Nat.eq_zero_of_not_pos h]
  · by_cases h : 0 < (neutralizeReservedEnvelopeKeys
        (neutralizeControlComments sanitizer.toUnicode body).1).2
    · simp [h]
    · simp [Nat.eq_zero_of_not_pos h]

/-- Every change of a body is reported, and nothing else: the reported
counts tell how much longer the text has become, and a body comes through as
it is exactly if it has no control comment and no reserved key. -/
theorem neutralizeUntrustedBody_accounts (sanitizer : Sanitizer) (body : Text) :
    let result := neutralizeUntrustedBody sanitizer body
    result.text.length = body.length + 3 * result.count .asimpControlComment
        + 10 * result.count .envelopeKeyForgery
      ∧ (result.text = body
        ↔ hasAsimpControlComment sanitizer.toUnicode body = false ∧ ¬HasReservedKey body) := by
  dsimp only
  constructor
  · obtain ⟨hcomments, hkeys⟩ := neutralizeUntrustedBody_count sanitizer body
    rw [hcomments, hkeys]
    exact (neutralizeReservedEnvelopeKeys_length _).trans
      (congrArg (· + _) (neutralizeControlComments_length ..))
  · constructor
    · intro heq
      have hclean := neutralizeUntrustedBody_clean sanitizer body
      have hkeys : ¬HasReservedKey (neutralizeUntrustedBody sanitizer body).text :=
        neutralizeReservedEnvelopeKeys_complete _
      rw [heq] at hclean hkeys
      exact ⟨hclean, hkeys⟩
    · rintro ⟨hclean, hkeys⟩
      unfold neutralizeUntrustedBody
      simp only [neutralizeControlComments_eq_self _ hclean]
      exact neutralizeReservedEnvelopeKeys_eq_self hkeys

end Asimposium
