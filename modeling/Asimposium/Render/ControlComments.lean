import Asimposium.Render.Neutralize

/-!
# Control comments in a concatenation

A face is put together from texts that were checked one by one, but is read
as a whole. The scan behind an opener runs from one text into the next only
over white space and what a reader skips, and only as long as nothing of
the namespace has been read (`scanNamespace_append_mono`). So a line break
closes the text before it unless what follows begins with the namespace.
-/

namespace Asimposium

open Text

/-- Where control comments open, counted from `offset`. -/
def controlCommentOffsets (unicode : Unicode) (offset : Nat) : Text → List Nat
  | [] => []
  | u :: rest =>
      if opensControlComment unicode (u :: rest) then
        offset :: controlCommentOffsets unicode (offset + 1) rest
      else controlCommentOffsets unicode (offset + 1) rest

variable {unicode : Unicode}

theorem controlCommentOffsets_eq_nil {offset : Nat} {t : Text} :
    controlCommentOffsets unicode offset t = [] ↔ hasAsimpControlComment unicode t = false := by
  induction t generalizing offset with
  | nil => simp [controlCommentOffsets, hasAsimpControlComment]
  | cons u rest ih =>
      rw [controlCommentOffsets, hasAsimpControlComment]
      cases opensControlComment unicode (u :: rest) with
      | true => simp
      | false => simpa using ih

theorem length_controlCommentOffsets (unicode : Unicode) (offset : Nat) (t : Text) :
    (controlCommentOffsets unicode offset t).length
      = (controlCommentOffsets unicode 0 t).length := by
  suffices h : ∀ o o', (controlCommentOffsets unicode o t).length
      = (controlCommentOffsets unicode o' t).length from h offset 0
  induction t with
  | nil => intro o o'; rfl
  | cons u rest ih =>
      intro o o'
      rw [controlCommentOffsets, controlCommentOffsets]
      split
      · rw [List.length_cons, List.length_cons, ih]
      · exact ih ..

theorem controlCommentOffsets_of_not_mem {unicode : Unicode} {s : Text} (h : unit '<' ∉ s)
    (offset : Nat) (t : Text) :
    controlCommentOffsets unicode offset (s ++ t)
      = controlCommentOffsets unicode (offset + s.length) t := by
  induction s generalizing offset with
  | nil => rfl
  | cons u s ih =>
      rw [List.mem_cons, not_or] at h
      have hopens : opensControlComment unicode (u :: (s ++ t)) = false := by
        by_contra hopens
        exact h.1 (opens_lt (by simpa using hopens)).symm
      rw [List.cons_append, controlCommentOffsets, hopens, if_neg Bool.false_ne_true, ih h.2,
        List.length_cons]
      congr 1
      omega

theorem hasAsimpControlComment_of_not_mem {t : Text} (h : unit '<' ∉ t) :
    hasAsimpControlComment unicode t = false := by
  rw [← List.append_nil t, hasAsimpControlComment_append unicode h]
  rfl

/-! ## Where a text ends -/

/-- What follows extends neither an opener nor a closer, and is no second
half of a pair. -/
def BreaksOff (t : Text) : Prop := ∀ u ∈ t.head?, isAscii u = true ∧ u ∉ text "<!->"

theorem BreaksOff.nil : BreaksOff [] := by
  intro u hu
  cases hu

theorem BreaksOff.cons {u : UInt16} (h : isAscii u = true ∧ u ∉ text "<!->") (t : Text) :
    BreaksOff (u :: t) := by
  intro v hv
  cases hv
  exact h

variable {r : Text}

theorem startsWith_append {part : Text} (h : ∀ u ∈ r.head?, u ∉ part) (z : Text) :
    startsWith (z ++ r) part = startsWith z part := by
  induction part generalizing z with
  | nil => simp [startsWith]
  | cons p part ih =>
      cases z with
      | nil =>
          cases r with
          | nil => rfl
          | cons u r =>
              have hne : (p == u) = false := by
                rw [beq_eq_false_iff_ne]
                exact fun heq => h u rfl (heq ▸ List.mem_cons_self ..)
              simp [startsWith, List.isPrefixOf, hne]
      | cons v z =>
          have hpart := ih (fun u hu hmem => h u hu (List.mem_cons_of_mem _ hmem)) z
          simp only [startsWith, List.cons_append, List.isPrefixOf] at hpart ⊢
          rw [hpart]

theorem BreaksOff.startsWith_eq (h : BreaksOff r) {part : Text} (hpart : part ⊆ text "<!->")
    (z : Text) : startsWith (z ++ r) part = startsWith z part :=
  startsWith_append (fun u hu hmem => (h u hu).2 (hpart hmem)) z

theorem BreaksOff.closesComment_eq (h : BreaksOff r) (z : Text) :
    closesComment (z ++ r) = closesComment z := by
  unfold closesComment
  rw [h.startsWith_eq (by decide), h.startsWith_eq (by decide)]

theorem scanStep_mono {seen : Nat} {point here here' : Text} {next next' : Nat → Bool}
    (hcloses : closesComment here' = closesComment here)
    (hnext : ∀ seen, next seen = true → next' seen = true)
    (h : scanStep unicode seen point here next = true) :
    scanStep unicode seen point here' next' = true := by
  unfold scanStep at h ⊢
  rw [hcloses]
  split at h
  · rename_i hends
    rw [if_pos hends]
    exact h
  · rename_i hends
    rw [if_neg hends]
    split at h
    · rename_i hspace
      rw [if_pos hspace]
      split at h
      · rename_i hseen
        rw [if_pos hseen]
        exact h
      · rename_i hseen
        rw [if_neg hseen]
        exact hnext seen h
    · rename_i hspace
      rw [if_neg hspace]
      cases hread : (semanticCharacters unicode point).foldlM nextSemantic seen with
      | none => rw [hread] at h; cases h
      | some seen' => rw [hread] at h; exact hnext seen' h

/-- The scan of a text reads what follows from some state on; what follows
may be exchanged for another text that accepts from no fewer states. -/
theorem scanNamespace_append_mono {r' : Text} (hr : BreaksOff r) (hr' : BreaksOff r')
    (h : ∀ seen, scanNamespace unicode seen r = true → scanNamespace unicode seen r' = true)
    {seen : Nat} {z : Text} (hscan : scanNamespace unicode seen (z ++ r) = true) :
    scanNamespace unicode seen (z ++ r') = true := by
  have hcloses : ∀ z : Text, closesComment (z ++ r') = closesComment (z ++ r) := by
    intro z
    rw [hr.closesComment_eq, hr'.closesComment_eq]
  have hsingle : ∀ {r : Text}, BreaksOff r → ∀ {u : UInt16} {v : UInt16} {tail : Text},
      r = v :: tail → (isHighSurrogate u && isLowSurrogate v) = false := by
    rintro r hr u v tail rfl
    rw [(not_surrogate (hr v rfl).1).2, Bool.and_false]
  induction z using codePoints.induct generalizing seen with
  | case1 => exact h seen hscan
  | case2 u =>
      rw [List.singleton_append, scanNamespace_cons unicode seen fun v tail => hsingle hr] at hscan
      rw [List.singleton_append, scanNamespace_cons unicode seen fun v tail => hsingle hr']
      exact scanStep_mono (hcloses [u]) h hscan
  | case3 u v rest hpair ih =>
      rw [List.cons_append, List.cons_append, scanNamespace, if_pos hpair] at hscan ⊢
      exact scanStep_mono (hcloses (u :: v :: rest)) (fun _ => ih) hscan
  | case4 u v rest hpair ih =>
      have hhead : ∀ (r : Text) (w : UInt16) (tail : Text), v :: rest ++ r = w :: tail →
          (isHighSurrogate u && isLowSurrogate w) = false := by
        intro r w tail heq
        rw [← (List.cons.inj heq).1]
        simpa using hpair
      rw [List.cons_append, scanNamespace_cons unicode seen (hhead r)] at hscan
      rw [List.cons_append, scanNamespace_cons unicode seen (hhead r')]
      exact scanStep_mono (hcloses (u :: v :: rest)) (fun _ => ih) hscan

theorem BreaksOff.opens_append (h : BreaksOff r) (z : Text) :
    opensControlComment unicode (z ++ r) = (startsWith z controlCommentOpen
      && scanNamespace unicode 0 (z.drop controlCommentOpen.length ++ r)) := by
  rw [opensControlComment, h.startsWith_eq (by decide)]
  cases hopen : startsWith z controlCommentOpen with
  | false => rfl
  | true =>
      obtain ⟨tail, rfl⟩ := List.isPrefixOf_iff_prefix.mp hopen
      rw [List.append_assoc, List.drop_left, List.drop_left]
      rfl

theorem hasAsimpControlComment_before {z : Text} (hz : hasAsimpControlComment unicode z = false)
    (hr : BreaksOff r)
    (hscan : ∀ seen, scanNamespace unicode seen r = true → seen = controlCommentNamespace.length) :
    hasAsimpControlComment unicode (z ++ r) = hasAsimpControlComment unicode r := by
  induction z with
  | nil => rfl
  | cons u z ih =>
      rw [hasAsimpControlComment, Bool.or_eq_false_iff] at hz
      have hopens : opensControlComment unicode (u :: z ++ r) = false := by
        by_contra hopens
        rw [Bool.not_eq_false, hr.opens_append, Bool.and_eq_true] at hopens
        have hend := scanNamespace_append_mono hr .nil
          (fun seen hseen => by rw [hscan seen hseen]; rfl) hopens.2
        have := hz.1
        rw [← List.append_nil (u :: z), BreaksOff.nil.opens_append, hopens.1, hend] at this
        cases this
      rw [List.cons_append] at hopens ⊢
      rw [hasAsimpControlComment, hopens, Bool.false_or, ih hz.2]

/-! ## Line breaks -/

theorem scanNamespace_space {u : UInt16} (h : isAsciiSpace u = true) (hascii : isAscii u = true)
    (seen : Nat) (r : Text) :
    scanNamespace unicode seen (u :: r)
      = if seen = 0 then scanNamespace unicode 0 r
        else seen == controlCommentNamespace.length := by
  have hnone : ∀ v ∈ text "<!->", isAsciiSpace v ≠ true := by decide
  have hbreaks : BreaksOff (u :: r) := .cons ⟨hascii, fun hmem => hnone u hmem h⟩ r
  have hcloses : closesComment (u :: r) = false := hbreaks.closesComment_eq []
  have hcolon : isColon unicode [u] = false := by
    have hne : u ≠ unit ':' := by
      rintro rfl
      exact absurd h (by decide)
    simp [isColon, hascii, hne]
  have hspace : isControlCommentWhitespace [u] = true := by
    simp [isControlCommentWhitespace, hascii, h]
  rw [scanNamespace_cons unicode seen fun v tail _ => by rw [(not_surrogate hascii).1]; rfl]
  simp only [scanStep, hcloses, hcolon, hspace, Bool.or_self, Bool.false_eq_true, ↓reduceIte]
  by_cases hseen : seen = 0
  · simp [hseen]
  · simp [hseen]

def opensNothing (u : UInt16) : Bool := isAscii u && !isAsciiSpace u && foldAscii u != unit 'a'

theorem scanNamespace_opensNothing {u : UInt16} (h : opensNothing u = true) (r : Text) :
    scanNamespace unicode 0 (u :: r) = false := by
  simp only [opensNothing, Bool.and_eq_true, Bool.not_eq_true', bne_iff_ne, ne_eq] at h
  obtain ⟨⟨hascii, hspace⟩, hname⟩ := h
  have hwhite : isControlCommentWhitespace [u] = false := by
    simp [isControlCommentWhitespace, hascii, hspace]
  have hcharacters : semanticCharacters unicode [u] = [[foldAscii u]] := by
    simp [semanticCharacters, hascii]
  have hfirst : nextSemantic 0 [foldAscii u] = none := by
    have hexpected : controlCommentNamespace[0]? = some (unit 'a') := rfl
    simp [nextSemantic, hexpected, hname]
  rw [scanNamespace_cons unicode 0 fun v tail _ => by rw [(not_surrogate hascii).1]; rfl]
  simp only [scanStep, hwhite, hcharacters, List.foldlM_cons, hfirst, Option.bind_eq_bind,
    Option.bind_none, Bool.false_eq_true, if_false]
  split
  · rfl
  · rfl

theorem breaksOff_newline (r : Text) : BreaksOff (unit '\n' :: r) := .cons (by decide) r

theorem scanNamespace_before_newline (hr : scanNamespace unicode 0 r = false) (seen : Nat)
    (z : Text) :
    scanNamespace unicode seen (z ++ unit '\n' :: r) = scanNamespace unicode seen z := by
  have hbreak : ∀ seen, scanNamespace unicode seen (unit '\n' :: r)
      = scanNamespace unicode seen [] := by
    intro seen
    rw [scanNamespace_space (by decide) (by decide)]
    split
    · rename_i hseen
      rw [hr, hseen]
      rfl
    · rfl
  rw [Bool.eq_iff_iff]
  constructor
  · intro h
    have := scanNamespace_append_mono (breaksOff_newline r) .nil
      (fun seen hseen => hbreak seen ▸ hseen) h
    rwa [List.append_nil] at this
  · intro h
    rw [← List.append_nil z] at h
    exact scanNamespace_append_mono .nil (breaksOff_newline r)
      (fun seen hseen => (hbreak seen).symm ▸ hseen) h

theorem controlCommentOffsets_newline (unicode : Unicode) (offset : Nat) (r : Text) :
    controlCommentOffsets unicode offset (unit '\n' :: r)
      = controlCommentOffsets unicode (offset + 1) r :=
  @controlCommentOffsets_of_not_mem unicode [unit '\n'] (by decide) offset r

theorem controlCommentOffsets_before_newline (hr : scanNamespace unicode 0 r = false)
    (offset : Nat) (z : Text) :
    controlCommentOffsets unicode offset (z ++ unit '\n' :: r)
      = controlCommentOffsets unicode offset z
        ++ controlCommentOffsets unicode (offset + z.length + 1) r := by
  induction z generalizing offset with
  | nil => exact controlCommentOffsets_newline ..
  | cons u z ih =>
      have hopens : opensControlComment unicode (u :: (z ++ unit '\n' :: r))
          = opensControlComment unicode (u :: z) := by
        rw [← List.cons_append, (breaksOff_newline r).opens_append,
          scanNamespace_before_newline hr, opensControlComment]
        rfl
      have hoffset : offset + (u :: z).length + 1 = offset + 1 + z.length + 1 := by
        rw [List.length_cons]
        omega
      rw [List.cons_append, controlCommentOffsets, controlCommentOffsets, hopens, ih, hoffset]
      split
      · rfl
      · rfl

end Asimposium
