import Asimposium.Lib.PrefixFree
import Asimposium.Split.Normalize

/-!
# What the normal form keeps

The normal form is the prepared text with its spans as tokens. A text is read
as `Piece`s, the units outside spans and the spans: their delimiters make the
prepared text (`Piece.raw`), and their tokens the text that is collapsed last
(`Piece.token`). No unit of the prepared text is a token character, so that
the tokens are those of the spans.

The explicit pass cuts the text into atoms, the loop over the dollars cuts the
atoms into pieces. That each slice is emitted once is the invariant `Emitted`.
-/

namespace Asimposium.Split

open Text (isDigit isSpace trim)

/-! ## White space -/

theorem isConfusable_space : isConfusable (unit ' ') = true := by decide

variable {u : UInt16}

theorem isConfusable_of_isSpace (h : isSpace u = true) : isConfusable u = true := by
  simp only [isSpace, Bool.or_eq_true] at h
  simp only [isConfusable, Text.isWhiteSpace, Bool.or_eq_true]
  grind

theorem isSpace_of_not_confusable (h : isConfusable u = false) : isSpace u = false := by
  by_contra hspace
  rw [Bool.not_eq_false] at hspace
  rw [isConfusable_of_isSpace hspace] at h
  cases h

/-- Units are kept, but for white space, which may become a space or go. -/
inductive Tidied : Text → Text → Prop
  | nil : Tidied [] []
  | keep (u : UInt16) {t s : Text} (h : Tidied t s) : Tidied (u :: t) (u :: s)
  | blank {u : UInt16} {t s : Text} (hu : isConfusable u = true) (h : Tidied t s) :
      Tidied (u :: t) (unit ' ' :: s)
  | drop {u : UInt16} {t s : Text} (hu : isConfusable u = true) (h : Tidied t s) :
      Tidied (u :: t) s

namespace Tidied

theorem append {t s t' s' : Text} (h : Tidied t s) (h' : Tidied t' s') :
    Tidied (t ++ t') (s ++ s') := by
  induction h with
  | nil => exact h'
  | keep u _ ih => exact .keep u ih
  | blank hu _ ih => exact .blank hu ih
  | drop hu _ ih => exact .drop hu ih

theorem refl (t : Text) : Tidied t t := by
  induction t with
  | nil => exact .nil
  | cons u t ih => exact .keep u ih

variable {t s : Text}

theorem trans {r : Text} (h : Tidied t s) (h' : Tidied s r) : Tidied t r := by
  induction h generalizing r with
  | nil => exact h'
  | keep u _ ih =>
      cases h' with
      | keep _ h' => exact .keep u (ih h')
      | blank hu h' => exact .blank hu (ih h')
      | drop hu h' => exact .drop hu (ih h')
  | blank hu _ ih =>
      cases h' with
      | keep _ h' => exact .blank hu (ih h')
      | blank _ h' => exact .blank hu (ih h')
      | drop _ h' => exact .drop hu (ih h')
  | drop hu _ ih => exact .drop hu (ih h')

theorem dropAll {w : Text} (hw : ∀ u ∈ w, isConfusable u = true) (h : Tidied t s) :
    Tidied (w ++ t) s := by
  induction w with
  | nil => exact h
  | cons u w ih =>
      exact .drop (hw u (List.mem_cons_self ..)) (ih fun v hv => hw v (List.mem_cons_of_mem _ hv))

theorem squeeze (t : Text) : Tidied t (squeeze t) := by
  have h : Squeeze.Spread isConfusable (unit ' ') t (Split.squeeze t) := Squeeze.spread_squeeze t
  generalize Split.squeeze t = s at h
  induction h with
  | nil => exact .nil
  | element _ _ ih => exact .keep _ ih
  | run hne hw _ _ ih =>
      obtain ⟨u, w, rfl⟩ := List.exists_cons_of_ne_nil hne
      exact .blank (hw u (List.mem_cons_self ..))
        (dropAll (fun v hv => hw v (List.mem_cons_of_mem _ hv)) ih)

theorem reverse (h : Tidied t s) : Tidied t.reverse s.reverse := by
  induction h with
  | nil => exact .nil
  | keep u _ ih =>
      rw [List.reverse_cons, List.reverse_cons]
      exact ih.append (.keep u .nil)
  | blank hu _ ih =>
      rw [List.reverse_cons, List.reverse_cons]
      exact ih.append (.blank hu .nil)
  | drop hu _ ih =>
      rw [List.reverse_cons]
      have hdropped := ih.append (.drop hu .nil)
      rwa [List.append_nil] at hdropped

theorem dropWhile (h : Tidied t s) : Tidied t (s.dropWhile isSpace) := by
  induction h with
  | nil => exact .nil
  | keep u h ih =>
      by_cases hu : isSpace u = true
      · rw [List.dropWhile_cons_of_pos hu]
        exact .drop (isConfusable_of_isSpace hu) ih
      · rw [List.dropWhile_cons_of_neg hu]
        exact .keep u h
  | blank hu _ ih =>
      rw [List.dropWhile_cons_of_pos (by decide)]
      exact .drop hu ih
  | drop hu _ ih => exact .drop hu ih

theorem trim (h : Tidied t s) : Tidied t (trim s) := by
  have hback := h.dropWhile.reverse.dropWhile.reverse
  rwa [List.reverse_reverse] at hback

theorem collapse (t : Text) : Tidied t (collapseWhitespace t) := (squeeze t).trim

theorem filter {p : UInt16 → Bool} (hp : ∀ u, isConfusable u = true → p u = true) (h : Tidied t s) :
    Tidied (t.filter p) (s.filter p) := by
  induction h with
  | nil => exact .nil
  | keep u _ ih =>
      by_cases hpu : p u = true
      · rw [List.filter_cons_of_pos hpu, List.filter_cons_of_pos hpu]
        exact .keep u ih
      · rw [List.filter_cons_of_neg hpu, List.filter_cons_of_neg hpu]
        exact ih
  | blank hu _ ih =>
      rw [List.filter_cons_of_pos (hp _ hu), List.filter_cons_of_pos (hp _ isConfusable_space)]
      exact .blank hu ih
  | drop hu _ ih =>
      rw [List.filter_cons_of_pos (hp _ hu)]
      exact .drop hu ih

end Tidied

/-! ## Balanced tokens -/

/-- How deep a text ends in tokens, when none ends that did not start. -/
def depthAfter : Nat → Text → Option Nat
  | depth, [] => some depth
  | depth, u :: rest =>
      if u = mathTokenStart then depthAfter (depth + 1) rest
      else if u = mathTokenEnd then
        if depth = 0 then none else depthAfter (depth - 1) rest
      else depthAfter depth rest

def Balanced (t : Text) : Prop := ∀ depth, depthAfter depth t = some depth

def isPlain (u : UInt16) : Bool := u != mathTokenStart && u != mathTokenEnd

theorem isPlain_of_confusable (h : isConfusable u = true) : isPlain u = true := by
  simp only [isPlain, Bool.and_eq_true, bne_iff_ne]
  refine ⟨?_, ?_⟩
  · rintro rfl
    exact absurd h (by decide)
  · rintro rfl
    exact absurd h (by decide)

theorem depthAfter_plain (h : isPlain u = true) (depth : Nat) (rest : Text) :
    depthAfter depth (u :: rest) = depthAfter depth rest := by
  simp only [isPlain, Bool.and_eq_true, bne_iff_ne] at h
  rw [depthAfter, if_neg h.1, if_neg h.2]

theorem depthAfter_append (depth : Nat) (t s : Text) :
    depthAfter depth (t ++ s) = (depthAfter depth t).bind (depthAfter · s) := by
  induction t generalizing depth with
  | nil => rfl
  | cons u t ih =>
      rw [List.cons_append, depthAfter, depthAfter]
      split
      · exact ih (depth + 1)
      · split
        · split
          · rfl
          · exact ih (depth - 1)
        · exact ih depth

variable {t : Text}

theorem Tidied.depthAfter {s : Text} (h : Tidied t s) (depth : Nat) :
    depthAfter depth s = depthAfter depth t := by
  induction h generalizing depth with
  | nil => rfl
  | keep u _ ih => simp only [Split.depthAfter, ih]
  | blank hu _ ih =>
      rw [depthAfter_plain (isPlain_of_confusable hu),
        depthAfter_plain (isPlain_of_confusable isConfusable_space), ih]
  | drop hu _ ih => rw [depthAfter_plain (isPlain_of_confusable hu), ih]

namespace Balanced

theorem append {t s : Text} (ht : Balanced t) (hs : Balanced s) : Balanced (t ++ s) := by
  intro depth
  rw [depthAfter_append, ht, Option.bind_some, hs]

theorem plain {t : Text} (h : ∀ u ∈ t, isPlain u = true) : Balanced t := by
  intro depth
  induction t with
  | nil => rfl
  | cons u t ih =>
      rw [depthAfter_plain (h u (List.mem_cons_self ..))]
      exact ih fun v hv => h v (List.mem_cons_of_mem _ hv)

theorem token {t : Text} (h : Balanced t) : Balanced (mathTokenStart :: t ++ [mathTokenEnd]) := by
  intro depth
  rw [List.cons_append, depthAfter, if_pos rfl, depthAfter_append, h, Option.bind_some]
  rfl

theorem tidied {t s : Text} (h : Tidied t s) (ht : Balanced t) : Balanced s := by
  intro depth
  rw [h.depthAfter, ht]

theorem flatMap {α : Type} {f : α → Text} {l : List α} (h : ∀ a ∈ l, Balanced (f a)) :
    Balanced (l.flatMap f) := by
  induction l with
  | nil => exact fun _ => rfl
  | cons a l ih =>
      rw [List.flatMap_cons]
      exact (h a (List.mem_cons_self ..)).append (ih fun b hb => h b (List.mem_cons_of_mem _ hb))

end Balanced

/-! ## Atoms -/

def Atom.raw : Atom → Text
  | .unit u => [u]
  | .span delimiters interior => delimiters.opening ++ interior ++ delimiters.closing

def Atom.bare : Atom → Text
  | .unit u => [u]
  | .span _ interior => interior

variable {value interior : Text}

theorem lazyInterior_eq {closing : Text} (h : lazyInterior closing value = some interior) :
    ∃ rest, value = interior ++ closing ++ rest := by
  induction value generalizing interior with
  | nil => cases h
  | cons u value ih =>
      rw [lazyInterior] at h
      split at h
      · next hclosing =>
          cases h
          obtain ⟨rest, hrest⟩ := List.isPrefixOf_iff_prefix.mp hclosing
          exact ⟨rest, hrest.symm⟩
      · obtain ⟨more, hmore, rfl⟩ := Option.map_eq_some_iff.mp h
        obtain ⟨rest, rfl⟩ := ih hmore
        exact ⟨rest, rfl⟩

theorem opening_length (delimiters : Delimiters) : delimiters.opening.length = 2 := by
  cases delimiters <;> rfl

theorem closing_length (delimiters : Delimiters) : delimiters.closing.length = 2 := by
  cases delimiters <;> rfl

theorem spanAt_eq {delimiters : Delimiters} (h : spanAt value = some (delimiters, interior)) :
    ∃ rest, value = delimiters.opening ++ interior ++ delimiters.closing ++ rest := by
  obtain ⟨_, _, hfound⟩ := List.exists_of_findSome?_eq_some h
  split at hfound
  · next hopening =>
      obtain ⟨found, hinterior, hpair⟩ := Option.map_eq_some_iff.mp hfound
      cases hpair
      obtain ⟨tail, rfl⟩ := List.isPrefixOf_iff_prefix.mp hopening
      rw [← opening_length delimiters, List.drop_left] at hinterior
      obtain ⟨rest, rfl⟩ := lazyInterior_eq hinterior
      exact ⟨rest, by simp only [List.append_assoc]⟩
  · cases hfound

theorem explicitSpans_skip (skip : Nat) (value : Text) :
    explicitSpans skip value = explicitSpans 0 (value.drop skip) := by
  induction value generalizing skip with
  | nil => rw [List.drop_nil, explicitSpans, explicitSpans]
  | cons u value ih =>
      cases skip with
      | zero => rfl
      | succ skip => rw [explicitSpans, ih, List.drop_succ_cons]

theorem explicitSpans_span {rest : Text} {delimiters : Delimiters}
    (h : spanAt value = some (delimiters, interior))
    (hvalue : value = delimiters.opening ++ interior ++ delimiters.closing ++ rest) :
    explicitSpans 0 value = .span delimiters interior :: explicitSpans 0 rest := by
  cases value with
  | nil =>
      have hlength := congrArg List.length hvalue
      simp only [List.length_append, opening_length, List.length_nil] at hlength
      omega
  | cons u value =>
      have hdrop : value.drop (interior.length + 3) = rest := by
        have hskip : (u :: value).drop (interior.length + 4) = rest := by
          rw [hvalue]
          refine List.drop_left' ?_
          simp only [List.length_append, opening_length, closing_length]
          omega
        rwa [List.drop_succ_cons] at hskip
      rw [explicitSpans, h]
      exact congrArg _ ((explicitSpans_skip ..).trans (by rw [hdrop]))

theorem explicitSpans_raw (value : Text) : (explicitSpans 0 value).flatMap Atom.raw = value := by
  generalize hn : value.length = n
  induction n using Nat.strongRecOn generalizing value with
  | ind n ih =>
      cases value with
      | nil => rfl
      | cons u value =>
          cases hspan : spanAt (u :: value) with
          | none =>
              have hscan : explicitSpans 0 (u :: value) = .unit u :: explicitSpans 0 value := by
                rw [explicitSpans, hspan]
              have hlt : value.length < n := by
                rw [← hn]
                exact Nat.lt_succ_self _
              rw [hscan, List.flatMap_cons, ih _ hlt value rfl]
              rfl
          | some found =>
              obtain ⟨delimiters, interior⟩ := found
              obtain ⟨rest, hvalue⟩ := spanAt_eq hspan
              have hlt : rest.length < n := by
                rw [← hn, hvalue]
                simp only [List.length_append, opening_length]
                omega
              rw [explicitSpans_span hspan hvalue, List.flatMap_cons, ih _ hlt rest rfl, hvalue]
              rfl

/-! ## Pieces -/

def Plain (t : Text) : Prop := ∀ u ∈ t, isPlain u = true

inductive Piece where
  | atom (atom : Atom)
  | inline (interior : List Atom)

namespace Piece

def raw : Piece → Text
  | atom a => a.raw
  | inline interior => unit '$' :: interior.flatMap Atom.raw ++ [unit '$']

def bare : Piece → Text
  | atom a => a.bare
  | inline interior => interior.flatMap Atom.bare

def token : Piece → Text
  | atom a => a.token
  | inline interior =>
      mathTokenStart :: collapseWhitespace (interior.flatMap Atom.token) ++ [mathTokenEnd]

def atoms : Piece → List Atom
  | atom a => [a]
  | inline interior => .unit (unit '$') :: interior ++ [.unit (unit '$')]

theorem atoms_raw (pieces : List Piece) :
    (pieces.flatMap atoms).flatMap Atom.raw = pieces.flatMap raw := by
  rw [List.flatMap_assoc]
  congr 1
  funext piece
  cases piece with
  | atom a => exact List.append_nil _
  | inline interior =>
      simp only [atoms, raw, List.cons_append, List.flatMap_cons, List.flatMap_append,
        List.flatMap_nil, Atom.raw, List.nil_append, List.append_nil]

end Piece

/-! ## What a token keeps -/

theorem Tidied.flatMap {α : Type} {f g : α → Text} {l : List α}
    (h : ∀ a ∈ l, Tidied (f a) (g a)) : Tidied (l.flatMap f) (l.flatMap g) := by
  induction l with
  | nil => exact .nil
  | cons a l ih =>
      rw [List.flatMap_cons, List.flatMap_cons]
      exact (h a (List.mem_cons_self ..)).append (ih fun b hb => h b (List.mem_cons_of_mem _ hb))

theorem filter_token (t : Text) :
    (mathTokenStart :: t ++ [mathTokenEnd]).filter isPlain = t.filter isPlain := by
  rw [List.cons_append, List.filter_cons_of_neg (by decide), List.filter_append,
    List.filter_cons_of_neg (by decide), List.filter_nil, List.append_nil]

theorem Tidied.token {s : Text} (h : Tidied t (s.filter isPlain)) :
    Tidied t ((mathTokenStart :: collapseWhitespace s ++ [mathTokenEnd]).filter isPlain) := by
  rw [filter_token]
  exact h.trans ((Tidied.collapse s).filter fun _ => isPlain_of_confusable)

namespace Plain

theorem filter {t : Text} (h : Plain t) : t.filter isPlain = t := List.filter_eq_self.mpr h

theorem left {t s : Text} (h : Plain (t ++ s)) : Plain t :=
  fun u hu => h u (List.mem_append_left _ hu)

theorem right {t s : Text} (h : Plain (t ++ s)) : Plain s :=
  fun u hu => h u (List.mem_append_right _ hu)

theorem of_flatMap {α : Type} {f : α → Text} {l : List α} (h : Plain (l.flatMap f)) {a : α}
    (ha : a ∈ l) : Plain (f a) :=
  fun u hu => h u (List.mem_flatMap.mpr ⟨a, ha, hu⟩)

end Plain

namespace Atom

theorem token_balanced {a : Atom} (h : Plain a.raw) : Balanced a.token := by
  cases a with
  | unit u => exact .plain h
  | span delimiters interior => exact (Balanced.plain h.left.right).tidied (.collapse _) |>.token

theorem token_tidied {a : Atom} (h : Plain a.raw) : Tidied a.bare (a.token.filter isPlain) := by
  cases a with
  | unit u =>
      show Tidied [u] ([u].filter isPlain)
      rw [Plain.filter (t := [u]) h]
      exact .refl _
  | span delimiters interior =>
      refine Tidied.token ?_
      rw [h.left.right.filter]
      exact .refl _

end Atom

namespace Piece

theorem inline_plain {interior : List Atom} (h : Plain (inline interior).raw) :
    Plain (interior.flatMap Atom.raw) :=
  (Plain.left h : Plain (unit '$' :: _)).right (t := [unit '$'])

theorem token_balanced {piece : Piece} (h : Plain piece.raw) : Balanced piece.token := by
  cases piece with
  | atom a => exact a.token_balanced h
  | inline interior =>
      have hinterior : Balanced (interior.flatMap Atom.token) :=
        .flatMap fun a ha => a.token_balanced ((inline_plain h).of_flatMap ha)
      exact (hinterior.tidied (.collapse _)).token

theorem token_tidied {piece : Piece} (h : Plain piece.raw) :
    Tidied piece.bare (piece.token.filter isPlain) := by
  cases piece with
  | atom a => exact a.token_tidied h
  | inline interior =>
      refine Tidied.token ?_
      rw [List.filter_flatMap]
      exact .flatMap fun a ha => a.token_tidied ((inline_plain h).of_flatMap ha)

end Piece

/-! ## The dollars among the atoms -/

abbrev written (atoms : List Atom) : Text := atoms.flatMap Atom.token

/-- Positions of dollars outside tokens, from the position of the first atom
on and in the order of the text. -/
inductive Dollars : Nat → List Atom → List Nat → Prop
  | none (start : Nat) (atoms : List Atom) : Dollars start atoms []
  | next {start : Nat} {before after : List Atom} {rest : List Nat}
      (h : Dollars (start + (written before).length + 1) after rest) :
      Dollars start (before ++ .unit (unit '$') :: after)
        ((start + (written before).length) :: rest)

theorem Dollars.cons {start : Nat} (a : Atom) {atoms : List Atom} {positions : List Nat}
    (h : Dollars (start + a.token.length) atoms positions) : Dollars start (a :: atoms) positions := by
  cases h with
  | none => exact .none _ _
  | @next _ before after rest h =>
      have hlength : start + (written (a :: before)).length
          = start + a.token.length + (written before).length := by
        rw [written, List.flatMap_cons, List.length_append, Nat.add_assoc]
      rw [← hlength] at h ⊢
      exact @Dollars.next _ (a :: before) _ _ h

theorem inlineDollarsFrom_inside (h : mathTokenEnd ∉ interior) (index : Nat) (rest : Text) :
    inlineDollarsFrom value true index (interior ++ mathTokenEnd :: rest)
      = inlineDollarsFrom value false (index + interior.length + 1) rest := by
  induction interior generalizing index with
  | nil =>
      rw [List.nil_append, inlineDollarsFrom]
      rfl
  | cons u interior ih =>
      have hu : (u != mathTokenEnd) = true := bne_iff_ne.mpr fun heq => h (heq ▸ List.mem_cons_self ..)
      rw [List.cons_append, inlineDollarsFrom, hu,
        ih (fun hmem => h (List.mem_cons_of_mem _ hmem)) (index + 1), List.length_cons]
      congr 1
      omega

theorem Plain.not_mem_end (h : Plain t) : mathTokenEnd ∉ t :=
  fun hmem => absurd (h _ hmem) (by decide)

theorem Tidied.plain {s : Text} (h : Tidied t s) (ht : Plain t) : Plain s := by
  intro u hu
  induction h with
  | nil => cases hu
  | keep v _ ih =>
      rcases List.mem_cons.mp hu with rfl | hu
      · exact ht u (List.mem_cons_self ..)
      · exact ih (fun w hw => ht w (List.mem_cons_of_mem _ hw)) hu
  | blank _ _ ih =>
      rcases List.mem_cons.mp hu with rfl | hu
      · exact isPlain_of_confusable isConfusable_space
      · exact ih (fun w hw => ht w (List.mem_cons_of_mem _ hw)) hu
  | drop _ _ ih => exact ih (fun w hw => ht w (List.mem_cons_of_mem _ hw)) hu

theorem drop_add_of_drop {front back : Text} {start : Nat} (h : value.drop start = front ++ back) :
    value.drop (start + front.length) = back := by
  rw [← List.drop_drop, h, List.drop_left]

theorem dollars_inlineDollarsFrom {atoms : List Atom} (hplain : Plain (atoms.flatMap Atom.raw))
    {start : Nat} (hvalue : value.drop start = written atoms) :
    Dollars start atoms (inlineDollarsFrom value false start (written atoms)) := by
  induction atoms generalizing start with
  | nil => exact .none _ _
  | cons a atoms ih =>
      have ha : Plain a.raw := hplain.of_flatMap (List.mem_cons_self ..)
      have hrest := @ih (Plain.right (t := a.raw) hplain)
        (start + a.token.length) (drop_add_of_drop hvalue)
      cases a with
      | unit u =>
          have hstart : u ≠ mathTokenStart := by
            rintro rfl
            exact absurd (ha _ (List.mem_cons_self ..)) (by decide)
          show Dollars start _ (inlineDollarsFrom value false start (u :: written atoms))
          rw [inlineDollarsFrom, if_neg hstart]
          split
          · next hdollar =>
              have hunit : value[start]? = some u := by
                rw [← Nat.add_zero start, ← List.getElem?_drop, hvalue]
                rfl
              have hu : u = unit '$' := by
                simp only [isInlineDollar, Bool.and_eq_true, beq_iff_eq] at hdollar
                exact Option.some.inj (hunit.symm.trans hdollar.1.1.1)
              subst hu
              exact @Dollars.next _ [] _ _ hrest
          · exact .cons _ hrest
      | span delimiters interior =>
          have hinterior : mathTokenEnd ∉ collapseWhitespace interior :=
            ((Tidied.collapse interior).plain ha.left.right).not_mem_end
          have htext : written (.span delimiters interior :: atoms)
              = mathTokenStart :: (collapseWhitespace interior ++ mathTokenEnd :: written atoms) := by
            simp only [written, List.flatMap_cons, Atom.token, List.cons_append, List.append_assoc,
              List.nil_append]
          have hlength : start + 1 + (collapseWhitespace interior).length + 1
              = start + (Atom.span delimiters interior).token.length := by
            simp only [Atom.token, List.cons_append, List.length_cons, List.length_append,
              List.length_nil]
            omega
          have hends : (collapseWhitespace interior ++ mathTokenEnd :: written atoms).contains
              mathTokenEnd = true := by
            rw [List.contains_iff_mem]
            exact List.mem_append_right _ (List.mem_cons_self ..)
          rw [htext, inlineDollarsFrom, if_pos rfl, hends, inlineDollarsFrom_inside hinterior,
            hlength]
          exact .cons _ hrest

/-! ## The loop -/

/-- The loop has emitted some pieces of the text before a position, and may
have passed an opener since. -/
inductive Emitted : List Piece → Loop → List Atom → Prop
  | closed (pieces : List Piece) (plain : List Atom) :
      Emitted pieces
        { output := pieces.flatMap Piece.token
          emittedThrough := (written (pieces.flatMap Piece.atoms)).length
          opener := none }
        (pieces.flatMap Piece.atoms ++ plain)
  | opened (pieces : List Piece) (plain interior : List Atom) :
      Emitted pieces
        { output := pieces.flatMap Piece.token
          emittedThrough := (written (pieces.flatMap Piece.atoms)).length
          opener := some (written (pieces.flatMap Piece.atoms ++ plain)).length }
        (pieces.flatMap Piece.atoms ++ plain ++ .unit (unit '$') :: interior)

theorem slice_middle (front middle back : Text) :
    slice (front ++ middle ++ back) front.length (front ++ middle).length = middle := by
  rw [slice, List.take_left, List.drop_left]

theorem written_append (front back : List Atom) :
    written (front ++ back) = written front ++ written back := List.flatMap_append

theorem atoms_units (plain : List Atom) : (plain.map Piece.atom).flatMap Piece.atoms = plain := by
  rw [List.flatMap_map]
  exact List.flatMap_singleton' plain

theorem token_units (plain : List Atom) :
    (plain.map Piece.atom).flatMap Piece.token = written plain := by
  rw [List.flatMap_map]
  rfl

theorem Emitted.close (pieces : List Piece) (plain interior after : List Atom) :
    Emitted (pieces ++ (plain.map Piece.atom ++ [Piece.inline interior]))
      (Loop.close
        { output := pieces.flatMap Piece.token
          emittedThrough := (written (pieces.flatMap Piece.atoms)).length
          opener := some (written (pieces.flatMap Piece.atoms ++ plain)).length }
        (written (pieces.flatMap Piece.atoms ++ plain ++ .unit (unit '$') :: interior
          ++ .unit (unit '$') :: after))
        (written (pieces.flatMap Piece.atoms ++ plain)).length
        (written (pieces.flatMap Piece.atoms ++ plain ++ .unit (unit '$') :: interior)).length)
      (pieces.flatMap Piece.atoms ++ plain ++ .unit (unit '$') :: interior
        ++ [.unit (unit '$')]) := by
  have hatoms : (pieces ++ (plain.map Piece.atom ++ [Piece.inline interior])).flatMap Piece.atoms
      = pieces.flatMap Piece.atoms ++ plain ++ .unit (unit '$') :: interior
        ++ [.unit (unit '$')] := by
    simp only [List.flatMap_append, atoms_units, List.flatMap_cons, Piece.atoms, List.flatMap_nil,
      List.append_nil, List.append_assoc, List.cons_append]
  have htokens : (pieces ++ (plain.map Piece.atom ++ [Piece.inline interior])).flatMap Piece.token
      = pieces.flatMap Piece.token ++ written plain
        ++ mathTokenStart :: collapseWhitespace (written interior) ++ [mathTokenEnd] := by
    simp only [List.flatMap_append, token_units, List.flatMap_cons, Piece.token, List.flatMap_nil,
      List.append_nil, List.append_assoc, List.cons_append]
  have hdollar : ∀ atoms, written (.unit (unit '$') :: atoms) = [unit '$'] ++ written atoms :=
    fun _ => rfl
  have hplain : slice (written (pieces.flatMap Piece.atoms ++ plain ++ .unit (unit '$') :: interior
        ++ .unit (unit '$') :: after)) (written (pieces.flatMap Piece.atoms)).length
      (written (pieces.flatMap Piece.atoms ++ plain)).length = written plain := by
    have hslice := slice_middle (written (pieces.flatMap Piece.atoms)) (written plain)
      (written (.unit (unit '$') :: interior ++ .unit (unit '$') :: after))
    simpa only [written_append, List.append_assoc, List.cons_append] using hslice
  have hinterior : slice (written (pieces.flatMap Piece.atoms ++ plain
        ++ .unit (unit '$') :: interior ++ .unit (unit '$') :: after))
      ((written (pieces.flatMap Piece.atoms ++ plain)).length + 1)
      (written (pieces.flatMap Piece.atoms ++ plain ++ .unit (unit '$') :: interior)).length
        = written interior := by
    have hslice := slice_middle (written (pieces.flatMap Piece.atoms ++ plain) ++ [unit '$'])
      (written interior) (written (.unit (unit '$') :: after))
    simpa only [written_append, hdollar, List.append_assoc, List.length_append, List.length_cons,
      List.length_nil, Nat.zero_add, Nat.add_assoc] using hslice
  have hclosed := Emitted.closed (pieces ++ (plain.map Piece.atom ++ [Piece.inline interior])) []
  rw [List.append_nil, hatoms, htokens] at hclosed
  rw [Loop.close, hplain, hinterior]
  convert hclosed using 2
  simp only [written_append, hdollar, List.length_append]
  rfl

variable {υ : Tables} {pieces : List Piece}

theorem Emitted.visit {loop : Loop} {seen : List Atom} (h : Emitted pieces loop seen)
    (later : Bool) (before after : List Atom) :
    ∃ pieces', Emitted pieces'
      (visit υ (written (seen ++ before ++ .unit (unit '$') :: after)) later loop
        (written (seen ++ before)).length) (seen ++ before ++ [.unit (unit '$')]) := by
  cases h with
  | closed plain =>
      simp only [Split.visit]
      split
      · refine ⟨pieces, ?_⟩
        have hopened := Emitted.opened pieces (plain ++ before) []
        simpa only [List.append_assoc] using hopened
      · refine ⟨pieces, ?_⟩
        have hclosed := Emitted.closed pieces (plain ++ before ++ [.unit (unit '$')])
        simpa only [List.append_assoc] using hclosed
  | opened plain interior =>
      have hmoved : Emitted pieces
          { output := pieces.flatMap Piece.token
            emittedThrough := (written (pieces.flatMap Piece.atoms)).length
            opener := some (written (pieces.flatMap Piece.atoms ++ plain
              ++ .unit (unit '$') :: interior ++ before)).length }
          (pieces.flatMap Piece.atoms ++ plain ++ .unit (unit '$') :: interior ++ before
            ++ [.unit (unit '$')]) := by
        have hopened := Emitted.opened pieces (plain ++ .unit (unit '$') :: (interior ++ before)) []
        simpa only [List.append_assoc, List.cons_append] using hopened
      simp only [Split.visit]
      split
      · split
        · exact ⟨pieces, hmoved⟩
        · refine ⟨pieces ++ (plain.map Piece.atom ++ [Piece.inline (interior ++ before)]), ?_⟩
          have hclosed := Emitted.close pieces plain (interior ++ before) after
          simpa only [List.append_assoc, List.cons_append] using hclosed
      · split
        · exact ⟨pieces, hmoved⟩
        · refine ⟨pieces, ?_⟩
          have hopened := Emitted.opened pieces plain (interior ++ before ++ [.unit (unit '$')])
          simpa only [List.append_assoc, List.cons_append] using hopened

theorem Emitted.visitAll {positions : List Nat} {loop : Loop} {seen atoms : List Atom}
    (h : Emitted pieces loop seen) (hdollars : Dollars (written seen).length atoms positions)
    (hvalue : value = written (seen ++ atoms)) :
    ∃ pieces' seen' atoms', seen ++ atoms = seen' ++ atoms'
      ∧ Emitted pieces' (visitAll υ value loop positions) seen' := by
  induction positions generalizing pieces loop seen atoms with
  | nil => exact ⟨pieces, seen, atoms, rfl, h⟩
  | cons index rest ih =>
      cases hdollars with
      | @next _ before after _ hafter =>
          obtain ⟨pieces', hvisit⟩ := h.visit (υ := υ) (!rest.isEmpty) before after
          have hsplit : seen ++ (before ++ .unit (unit '$') :: after)
              = seen ++ before ++ [.unit (unit '$')] ++ after := by
            simp only [List.append_assoc, List.singleton_append]
          have hindex : (written (seen ++ before)).length
              = (written seen).length + (written before).length := by
            rw [written_append, List.length_append]
          have hseen : (written (seen ++ before ++ [.unit (unit '$')])).length
              = (written seen).length + (written before).length + 1 := by
            rw [written_append, List.length_append, hindex]
            rfl
          rw [hindex, List.append_assoc seen, ← hvalue] at hvisit
          rw [← hseen] at hafter
          obtain ⟨pieces'', seen', atoms', heq, hdone⟩ :=
            ih hvisit hafter (by rw [hvalue, hsplit])
          exact ⟨pieces'', seen', atoms', hsplit.trans heq, hdone⟩

theorem Emitted.finish {loop : Loop} {seen : List Atom} (h : Emitted pieces loop seen)
    (rest : List Atom) :
    ∃ plain, pieces.flatMap Piece.atoms ++ plain = seen ++ rest
      ∧ loop.finish (written (seen ++ rest)) = pieces.flatMap Piece.token ++ written plain := by
  have hfinish : ∀ plain opener, Loop.finish
      ⟨pieces.flatMap Piece.token, (written (pieces.flatMap Piece.atoms)).length, opener⟩
      (written (pieces.flatMap Piece.atoms ++ plain)) = pieces.flatMap Piece.token ++ written plain := by
    intro plain opener
    rw [Loop.finish, written_append, List.drop_left]
  cases h with
  | closed plain =>
      refine ⟨plain ++ rest, (List.append_assoc ..).symm, ?_⟩
      rw [List.append_assoc]
      exact hfinish _ _
  | opened plain interior =>
      refine ⟨plain ++ .unit (unit '$') :: interior ++ rest, by simp only [List.append_assoc], ?_⟩
      rw [List.append_assoc, List.append_assoc, ← List.append_assoc plain]
      exact hfinish _ _

theorem tokenizeInlineMath_written {atoms : List Atom} (hplain : Plain (atoms.flatMap Atom.raw)) :
    ∃ pieces : List Piece, pieces.flatMap Piece.atoms = atoms
      ∧ tokenizeInlineMath υ (written atoms) = pieces.flatMap Piece.token := by
  have hdollars : Dollars 0 atoms (inlineDollarPositions (written atoms)) :=
    dollars_inlineDollarsFrom hplain rfl
  obtain ⟨pieces, seen, rest, hsplit, hloop⟩ :=
    (Emitted.closed [] []).visitAll (υ := υ) hdollars (List.nil_append _).symm
  obtain ⟨plain, hatoms, hfinish⟩ := hloop.finish rest
  have heq : [] ++ [] ++ atoms = seen ++ rest := hsplit
  rw [List.nil_append, List.nil_append] at heq
  refine ⟨pieces ++ plain.map Piece.atom, ?_, ?_⟩
  · rw [List.flatMap_append, atoms_units, hatoms, heq]
  · rw [List.flatMap_append, token_units, ← hfinish, ← heq]
    rfl

/-! ## Escapes -/

def escapeUnit (u : UInt16) : Text := (doubleEscape u).flatMap escapeControl

theorem prepareCanonicalInput_eq (υ : Tables) (value : Text) :
    prepareCanonicalInput υ value = (υ.toLowerCase (υ.nfkc value)).flatMap escapeUnit :=
  List.flatMap_assoc

theorem toNat_of_isRawControl (h : isRawControl u = true) : u.toNat < 160 := by
  simp only [isRawControl, Bool.or_eq_true, Bool.and_eq_true, decide_eq_true_eq,
    UInt16.le_iff_toNat_le, UInt16.reduceToNat] at h
  omega

theorem hexPadded_eq (h : isRawControl u = true) :
    hexPadded u = [unit (Nat.digitChar (u.toNat / 16)), unit (Nat.digitChar (u.toNat % 16))] := by
  have hlt : u.toNat < 160 := toNat_of_isRawControl h
  rw [hexPadded]
  by_cases hdigit : u.toNat < 16
  · rw [Nat.toDigits_of_lt_base hdigit, Nat.div_eq_of_lt hdigit, Nat.mod_eq_of_lt hdigit]
    rfl
  · rw [Nat.toDigits_of_base_le (by decide) (Nat.le_of_not_lt hdigit),
      Nat.toDigits_of_lt_base (show u.toNat / 16 < 16 by omega)]
    rfl

theorem escapeUnit_cases (u : UInt16) :
    (u ≠ canonicalEscape ∧ (isRawControl u = true → isConfusable u = true) ∧ escapeUnit u = [u])
      ∨ (u = canonicalEscape ∧ escapeUnit u = [canonicalEscape, canonicalEscape])
      ∨ (isRawControl u = true ∧ isConfusable u = false
        ∧ escapeUnit u = [canonicalEscape, unit 'c', unit (Nat.digitChar (u.toNat / 16)),
          unit (Nat.digitChar (u.toNat % 16)), unit ';']) := by
  by_cases htilde : u = canonicalEscape
  · subst htilde
    exact .inr (.inl ⟨rfl, by decide⟩)
  · have hone : escapeUnit u = escapeControl u := by
      rw [escapeUnit, doubleEscape, if_neg htilde, List.flatMap_singleton]
    rw [hone, escapeControl]
    split
    · next hcontrol =>
        split
        · next hwhite => exact .inl ⟨htilde, fun _ => hwhite, rfl⟩
        · next hwhite =>
            rw [hexPadded_eq hcontrol]
            exact .inr (.inr ⟨hcontrol, Bool.eq_false_iff.mpr hwhite, rfl⟩)
    · next hcontrol => exact .inl ⟨htilde, fun h => absurd h hcontrol, rfl⟩

theorem escapeUnit_ne_nil (u : UInt16) : escapeUnit u ≠ [] := by
  rcases escapeUnit_cases u with ⟨-, -, h⟩ | ⟨-, h⟩ | ⟨-, -, h⟩ <;> rw [h] <;> exact List.cons_ne_nil _ _

theorem digitChar_plain {n : Nat} (h : n < 16) :
    (isPlain (unit (Nat.digitChar n)) && !isConfusable (unit (Nat.digitChar n))
      && unit (Nat.digitChar n) != unit '$' && unit (Nat.digitChar n) != unit '\\') = true := by
  have hall : ∀ n < 16, (isPlain (unit (Nat.digitChar n)) && !isConfusable (unit (Nat.digitChar n))
      && unit (Nat.digitChar n) != unit '$' && unit (Nat.digitChar n) != unit '\\') = true := by
    decide
  exact hall n h

theorem mem_escapeUnit {v : UInt16} (h : v ∈ escapeUnit u) :
    (v = u ∧ (isRawControl u = true → isConfusable u = true))
      ∨ (isPlain v && !isConfusable v && v != unit '$' && v != unit '\\') = true := by
  have hmod : u.toNat % 16 < 16 := Nat.mod_lt _ (by decide)
  rcases escapeUnit_cases u with ⟨-, hwhite, heq⟩ | ⟨-, heq⟩ | ⟨hcontrol, -, heq⟩
  · rw [heq] at h
    exact .inl ⟨List.mem_singleton.mp h, hwhite⟩
  · rw [heq] at h
    simp only [List.mem_cons, List.not_mem_nil, or_false, or_self] at h
    exact .inr (h ▸ by decide)
  · have hlt : u.toNat < 160 := toNat_of_isRawControl hcontrol
    have hdiv : u.toNat / 16 < 16 := by omega
    rw [heq] at h
    simp only [List.mem_cons, List.not_mem_nil, or_false] at h
    rcases h with rfl | rfl | rfl | rfl | rfl
    · exact .inr (by decide)
    · exact .inr (by decide)
    · exact .inr (digitChar_plain hdiv)
    · exact .inr (digitChar_plain hmod)
    · exact .inr (by decide)

theorem isRawControl_of_not_plain (h : isPlain u = false) :
    isRawControl u = true ∧ isConfusable u = false := by
  simp only [isPlain, Bool.and_eq_false_iff, bne_eq_false_iff_eq] at h
  rcases h with rfl | rfl <;> decide

theorem prepareCanonicalInput_plain (υ : Tables) (value : Text) :
    Plain (prepareCanonicalInput υ value) := by
  intro v hv
  rw [prepareCanonicalInput_eq] at hv
  obtain ⟨u, -, hv⟩ := List.mem_flatMap.mp hv
  rcases mem_escapeUnit hv with ⟨rfl, hwhite⟩ | hplain
  · by_contra hnot
    obtain ⟨hcontrol, hclean⟩ := isRawControl_of_not_plain (Bool.eq_false_iff.mpr hnot)
    rw [hwhite hcontrol] at hclean
    cases hclean
  · simp only [Bool.and_eq_true] at hplain
    exact hplain.1.1.1

def hexValue (u : UInt16) : Nat := (text "0123456789abcdef").idxOf u

theorem hexValue_digitChar {n : Nat} (h : n < 16) : hexValue (unit (Nat.digitChar n)) = n := by
  have hall : ∀ n < 16, hexValue (unit (Nat.digitChar n)) = n := by decide
  exact hall n h

def unescape : Text → Option (UInt16 × Text)
  | [] => none
  | u :: rest =>
      if u ≠ canonicalEscape then some (u, rest)
      else if rest.head? ≠ some (unit 'c') then some (u, rest.tail)
      else some (UInt16.ofNat (16 * hexValue (rest.getD 1 0) + hexValue (rest.getD 2 0)),
        rest.drop 4)

theorem unescape_escapeUnit (u : UInt16) (rest : Text) :
    unescape (escapeUnit u ++ rest) = some (u, rest) := by
  rcases escapeUnit_cases u with ⟨htilde, -, heq⟩ | ⟨rfl, heq⟩ | ⟨hcontrol, -, heq⟩
  · rw [heq, List.singleton_append, unescape, if_pos htilde]
  · rw [heq]
    rfl
  · have hlt : u.toNat < 160 := toNat_of_isRawControl hcontrol
    have hvalue : 16 * hexValue (unit (Nat.digitChar (u.toNat / 16)))
        + hexValue (unit (Nat.digitChar (u.toNat % 16))) = u.toNat := by
      rw [hexValue_digitChar (show u.toNat / 16 < 16 by omega),
        hexValue_digitChar (Nat.mod_lt _ (by decide))]
      omega
    rw [heq]
    show some (UInt16.ofNat (16 * hexValue (unit (Nat.digitChar (u.toNat / 16)))
      + hexValue (unit (Nat.digitChar (u.toNat % 16)))), rest) = some (u, rest)
    rw [hvalue, UInt16.ofNat_toNat]

theorem escapeUnit_prefixFree : PrefixFree escapeUnit := by
  intro u v s t h
  have hread := congrArg unescape h
  rw [unescape_escapeUnit, unescape_escapeUnit] at hread
  have hpair := Option.some.inj hread
  exact ⟨congrArg Prod.fst hpair, congrArg Prod.snd hpair⟩

/-! ## White space of an escaped text -/

theorem escapeUnit_white (h : isConfusable u = true) : escapeUnit u = [u] := by
  rcases escapeUnit_cases u with ⟨-, -, heq⟩ | ⟨rfl, -⟩ | ⟨-, hclean, -⟩
  · exact heq
  · exact absurd h (by decide)
  · rw [hclean] at h
    cases h

theorem escapeUnit_clean {v : UInt16} (h : isConfusable u = false) (hv : v ∈ escapeUnit u) :
    isConfusable v = false := by
  rcases mem_escapeUnit hv with ⟨rfl, -⟩ | hplain
  · exact h
  · simp only [Bool.and_eq_true, Bool.not_eq_true'] at hplain
    exact hplain.1.1.2

theorem squeeze_clean_append (h : ∀ u ∈ t, isConfusable u = false) (s : Text) :
    squeeze (t ++ s) = t ++ squeeze s := by
  induction t with
  | nil => rfl
  | cons u t ih =>
      rw [List.cons_append, squeeze, Squeeze.squeeze_element (h u (List.mem_cons_self ..))]
      exact congrArg _ (ih fun v hv => h v (List.mem_cons_of_mem _ hv))

theorem escaped_head (h : ∀ u ∈ t.head?, isConfusable u = false) :
    ∀ u ∈ (t.flatMap escapeUnit).head?, isConfusable u = false := by
  intro u hu
  cases t with
  | nil => cases hu
  | cons v t =>
      rw [List.flatMap_cons, List.head?_append_of_ne_nil _ (escapeUnit_ne_nil v)] at hu
      exact escapeUnit_clean (h v rfl) (List.mem_of_mem_head? hu)

theorem flatMap_escape_white {w : Text} (h : ∀ u ∈ w, isConfusable u = true) :
    w.flatMap escapeUnit = w := by
  induction w with
  | nil => rfl
  | cons u w ih =>
      rw [List.flatMap_cons, escapeUnit_white (h u (List.mem_cons_self ..)),
        ih fun v hv => h v (List.mem_cons_of_mem _ hv), List.singleton_append]

theorem squeeze_escaped (t : Text) :
    squeeze (t.flatMap escapeUnit) = (squeeze t).flatMap escapeUnit := by
  have h : Squeeze.Spread isConfusable (unit ' ') t (squeeze t) := Squeeze.spread_squeeze t
  generalize squeeze t = s at h ⊢
  induction h with
  | nil => rfl
  | element ha _ ih =>
      rw [List.flatMap_cons, List.flatMap_cons,
        squeeze_clean_append fun v hv => escapeUnit_clean ha hv, ih]
  | run hne hw hl _ ih =>
      rw [List.flatMap_append, flatMap_escape_white hw, List.flatMap_cons,
        escapeUnit_white isConfusable_space, squeeze,
        Squeeze.squeeze_run hne hw (escaped_head hl)]
      exact congrArg _ ih

theorem escapeUnit_space {v : UInt16} (hv : v ∈ escapeUnit u) : isSpace v = isSpace u := by
  by_cases hu : isConfusable u = true
  · rw [escapeUnit_white hu] at hv
    rw [List.mem_singleton.mp hv]
  · rw [Bool.not_eq_true] at hu
    rw [isSpace_of_not_confusable hu, isSpace_of_not_confusable (escapeUnit_clean hu hv)]

theorem dropWhile_flatMap (code : UInt16 → Text) (hwhite : ∀ u, isSpace u = true → code u = [u])
    (hclean : ∀ u, ∀ v ∈ code u, isSpace v = isSpace u) (hne : ∀ u, code u ≠ []) (t : Text) :
    (t.flatMap code).dropWhile isSpace = (t.dropWhile isSpace).flatMap code := by
  induction t with
  | nil => rfl
  | cons u t ih =>
      by_cases hu : isSpace u = true
      · rw [List.flatMap_cons, hwhite u hu, List.singleton_append, List.dropWhile_cons_of_pos hu,
          List.dropWhile_cons_of_pos hu, ih]
      · obtain ⟨v, rest, hcode⟩ := List.exists_cons_of_ne_nil (hne u)
        have hv : ¬ isSpace v = true := by
          rw [hclean u v (hcode ▸ List.mem_cons_self ..)]
          exact hu
        rw [List.dropWhile_cons_of_neg hu, List.flatMap_cons, hcode, List.cons_append,
          List.dropWhile_cons_of_neg hv]

theorem trim_escaped (t : Text) : trim (t.flatMap escapeUnit) = (trim t).flatMap escapeUnit := by
  have hwhite : ∀ u, isSpace u = true → escapeUnit u = [u] := fun u hu =>
    escapeUnit_white (isConfusable_of_isSpace hu)
  have hback := dropWhile_flatMap (fun u => (escapeUnit u).reverse)
    (fun u hu => by rw [hwhite u hu]; rfl)
    (fun u v hv => escapeUnit_space (List.mem_reverse.mp hv))
    (fun u hnil => escapeUnit_ne_nil u (List.reverse_eq_nil_iff.mp hnil))
  have hturn : ∀ s : Text, (s.flatMap escapeUnit).reverse
      = s.reverse.flatMap fun u => (escapeUnit u).reverse := fun _ => List.reverse_flatMap
  have hturn' : ∀ s : Text, (s.flatMap fun u => (escapeUnit u).reverse).reverse
      = s.reverse.flatMap escapeUnit := by
    intro s
    rw [← List.reverse_reverse (s.reverse.flatMap escapeUnit), hturn, List.reverse_reverse]
  rw [trim, trim, dropWhile_flatMap _ hwhite (fun _ _ => escapeUnit_space) escapeUnit_ne_nil,
    hturn, hback, hturn']

theorem collapse_escaped (t : Text) :
    collapseWhitespace (t.flatMap escapeUnit) = (collapseWhitespace t).flatMap escapeUnit := by
  rw [collapseWhitespace, squeeze_escaped, trim_escaped, collapseWhitespace]

theorem collapse_prepared_iff (υ : Tables) (s t : Text) :
    collapseWhitespace (prepareCanonicalInput υ s) = collapseWhitespace (prepareCanonicalInput υ t)
      ↔ collapseWhitespace (υ.toLowerCase (υ.nfkc s))
        = collapseWhitespace (υ.toLowerCase (υ.nfkc t)) := by
  rw [prepareCanonicalInput_eq, prepareCanonicalInput_eq, collapse_escaped, collapse_escaped]
  exact (escapeUnit_prefixFree.flatMap_injective escapeUnit_ne_nil).eq_iff

/-! ## The normal form -/

theorem exists_pieces (υ : Tables) (statement : Text) :
    ∃ pieces : List Piece, pieces.flatMap Piece.raw = prepareCanonicalInput υ statement
      ∧ normalizeClaimStatement υ statement
        = collapseWhitespace (pieces.flatMap Piece.token) := by
  have hraw := explicitSpans_raw (prepareCanonicalInput υ statement)
  have hplain : Plain ((explicitSpans 0 (prepareCanonicalInput υ statement)).flatMap Atom.raw) := by
    rw [hraw]
    exact prepareCanonicalInput_plain υ statement
  obtain ⟨pieces, hatoms, htokens⟩ := tokenizeInlineMath_written (υ := υ) hplain
  refine ⟨pieces, ?_, congrArg collapseWhitespace htokens⟩
  rw [← Piece.atoms_raw, hatoms, hraw]

def NoMath (t : Text) : Prop := unit '$' ∉ t ∧ unit '\\' ∉ t

theorem NoMath.prepared {statement : Text} (h : NoMath (υ.toLowerCase (υ.nfkc statement))) :
    NoMath (prepareCanonicalInput υ statement) := by
  have hunit : ∀ v ∈ prepareCanonicalInput υ statement,
      v ∈ υ.toLowerCase (υ.nfkc statement) ∨ (v != unit '$' && v != unit '\\') = true := by
    intro v hv
    rw [prepareCanonicalInput_eq] at hv
    obtain ⟨u, hu, hv⟩ := List.mem_flatMap.mp hv
    rcases mem_escapeUnit hv with ⟨rfl, -⟩ | hclean
    · exact .inl hu
    · simp only [Bool.and_eq_true] at hclean ⊢
      exact .inr ⟨hclean.1.2, hclean.2⟩
  refine ⟨fun hv => ?_, fun hv => ?_⟩
  · exact (hunit _ hv).elim h.1 (by decide)
  · exact (hunit _ hv).elim h.2 (by decide)

theorem tokens_of_noMath (h : NoMath (pieces.flatMap Piece.raw)) :
    pieces.flatMap Piece.token = pieces.flatMap Piece.raw := by
  induction pieces with
  | nil => rfl
  | cons piece pieces ih =>
      rw [List.flatMap_cons] at h
      have hrest : NoMath (pieces.flatMap Piece.raw) :=
        ⟨fun hu => h.1 (List.mem_append_right _ hu), fun hu => h.2 (List.mem_append_right _ hu)⟩
      rw [List.flatMap_cons, List.flatMap_cons, ih hrest]
      cases piece with
      | atom a =>
          cases a with
          | unit u => rfl
          | span delimiters interior =>
              cases delimiters with
              | display => exact absurd (List.mem_append_left _ (List.mem_cons_self ..)) h.1
              | paren => exact absurd (List.mem_append_left _ (List.mem_cons_self ..)) h.2
              | bracket => exact absurd (List.mem_append_left _ (List.mem_cons_self ..)) h.2
      | inline interior => exact absurd (List.mem_append_left _ (List.mem_cons_self ..)) h.1

theorem normalizeClaimStatement_noMath {statement : Text}
    (h : NoMath (υ.toLowerCase (υ.nfkc statement))) :
    normalizeClaimStatement υ statement
      = collapseWhitespace (prepareCanonicalInput υ statement) := by
  obtain ⟨pieces, hraw, hnormal⟩ := exists_pieces υ statement
  rw [hnormal, tokens_of_noMath (hraw ▸ h.prepared), hraw]

/-- The normal form of a statement is its prepared text, which holds no token
character, with the delimiters of its spans as balanced tokens and its white
space collapsed; without the tokens it is the text without the delimiters, up
to white space. Where the lowercased text has no dollar and no backslash, the
normal form tells texts apart that differ in more than white space. -/
theorem normalizeClaimStatement_keeps (υ : Tables) :
    (∀ statement, Plain (prepareCanonicalInput υ statement) ∧ ∃ pieces : List Piece,
      pieces.flatMap Piece.raw = prepareCanonicalInput υ statement
      ∧ normalizeClaimStatement υ statement = collapseWhitespace (pieces.flatMap Piece.token)
      ∧ Balanced (normalizeClaimStatement υ statement)
      ∧ Tidied (pieces.flatMap Piece.bare) ((normalizeClaimStatement υ statement).filter isPlain))
    ∧ ∀ s t, NoMath (υ.toLowerCase (υ.nfkc s)) → NoMath (υ.toLowerCase (υ.nfkc t)) →
      (normalizeClaimStatement υ s = normalizeClaimStatement υ t
        ↔ collapseWhitespace (υ.toLowerCase (υ.nfkc s))
          = collapseWhitespace (υ.toLowerCase (υ.nfkc t))) := by
  constructor
  · intro statement
    have hplain := prepareCanonicalInput_plain υ statement
    obtain ⟨pieces, hraw, hnormal⟩ := exists_pieces υ statement
    have hpiece : ∀ piece ∈ pieces, Plain piece.raw := fun piece hmem =>
      (show Plain (pieces.flatMap Piece.raw) from hraw ▸ hplain).of_flatMap hmem
    refine ⟨hplain, pieces, hraw, hnormal, ?_, ?_⟩
    · rw [hnormal]
      exact (Balanced.flatMap fun piece hmem => piece.token_balanced (hpiece piece hmem)).tidied
        (.collapse _)
    · rw [hnormal]
      refine Tidied.trans ?_ ((Tidied.collapse _).filter fun _ => isPlain_of_confusable)
      rw [List.filter_flatMap]
      exact .flatMap fun piece hmem => piece.token_tidied (hpiece piece hmem)
  · intro s t hs ht
    rw [normalizeClaimStatement_noMath hs, normalizeClaimStatement_noMath ht, collapse_prepared_iff]

/-! ## On fixed texts -/

/-- The fullwidth forms of ASCII and its letters, and nothing else. -/
def fullwidth : Tables where
  nfkc t := t.map fun u => if 0xff01 ≤ u ∧ u ≤ 0xff5e then u - 0xfee0 else u
  nfkd t := t.map fun u => if 0xff01 ≤ u ∧ u ≤ 0xff5e then u - 0xfee0 else u
  toLowerCase t := t.map Text.foldAscii
  isMarkOrFormat _ := false
  isLetter := ofUnit fun u => Text.isLower u || Text.isUpper u
  isNumber := ofUnit isDigit

theorem normalizeClaimStatement_keeps_words :
    normalizeClaimStatement fullwidth (text "A  prime") = normalizeClaimStatement fullwidth (text "a prime ")
      ∧ normalizeClaimStatement fullwidth (text "a prime")
        ≠ normalizeClaimStatement fullwidth (text "aprime") :=
  ⟨((normalizeClaimStatement_keeps fullwidth).2 _ _ (by unfold NoMath; decide)
      (by unfold NoMath; decide)).mpr (by decide),
    fun h => absurd (((normalizeClaimStatement_keeps fullwidth).2 _ _ (by unfold NoMath; decide)
      (by unfold NoMath; decide)).mp h) (by decide)⟩

/-- A fullwidth dollar is a dollar in normal form: two statements without
dollar and backslash have one normal form and different lowercased texts. -/
theorem fullwidth_delimiters_merge :
    ¬ ∀ s t, NoMath s → NoMath t →
      (normalizeClaimStatement fullwidth s = normalizeClaimStatement fullwidth t
        ↔ collapseWhitespace (fullwidth.toLowerCase (fullwidth.nfkc s))
          = collapseWhitespace (fullwidth.toLowerCase (fullwidth.nfkc t))) := by
  intro h
  have hsame := (h (text "＄x＄") (text "＼（x＼）") (by unfold NoMath; decide)
    (by unfold NoMath; decide)).mp (by decide)
  exact absurd hsame (by decide)

end Asimposium.Split
