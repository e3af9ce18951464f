import Mathlib
import Asimposium.Split.Spans

/-!
# The normal form and the spelling of white space

Delimiters hold no white space: the explicit pass commutes with `squeeze`, and
a text and its squeeze have the same dollars. The loop then takes the same
steps on both as long as `currencyOpenerShouldYield` answers alike, whose
patterns look at the white space itself: `follow` is the loop with the answers
given. Two spellings have one normal form when their answers agree, and only
then, since the first answer that differs puts a dollar against a token.
-/

namespace Asimposium.Split

open Text (isSpace trim)

/-! ## Squeezed texts -/

theorem squeeze_clean {u : UInt16} (hu : isConfusable u = false) (t : Text) :
    squeeze (u :: t) = u :: squeeze t := Squeeze.squeeze_element hu t

theorem squeeze_white {w t : Text} (hne : w ≠ []) (hw : ∀ u ∈ w, isConfusable u = true)
    (ht : ∀ u ∈ t.head?, isConfusable u = false) : squeeze (w ++ t) = unit ' ' :: squeeze t :=
  Squeeze.squeeze_run hne hw ht

theorem squeeze_at {u : UInt16} (hu : isConfusable u = false) (s t : Text) :
    squeeze (s ++ u :: t) = squeeze s ++ u :: squeeze t := Squeeze.squeeze_append_element hu s t

theorem squeeze_snoc {u : UInt16} (hu : isConfusable u = false) (t : Text) :
    squeeze (t ++ [u]) = squeeze t ++ [u] := squeeze_at hu t []

theorem squeeze_space {t : Text} (ht : ∀ u ∈ t.head?, isConfusable u = false) :
    squeeze (unit ' ' :: t) = unit ' ' :: squeeze t :=
  squeeze_white (List.cons_ne_nil _ []) (List.forall_mem_singleton.mpr isConfusable_space) ht

theorem squeeze_head {t : Text} (ht : ∀ u ∈ t.head?, isConfusable u = false) :
    ∀ u ∈ (squeeze t).head?, isConfusable u = false :=
  (Squeeze.squeeze_head isConfusable_space).mpr ht

theorem squeeze_idem (t : Text) : squeeze (squeeze t) = squeeze t :=
  Squeeze.squeeze_squeeze isConfusable_space t

theorem isConfusable_start : isConfusable mathTokenStart = false := by decide

theorem isConfusable_end : isConfusable mathTokenEnd = false := by decide

theorem isConfusable_dollar : isConfusable (unit '$') = false := by decide

theorem collapse_squeeze (t : Text) : collapseWhitespace (squeeze t) = collapseWhitespace t := by
  rw [collapseWhitespace, squeeze_idem, collapseWhitespace]

/-! ## The explicit pass -/

theorem isPrefixOf_squeeze {part : Text} (hpart : ∀ u ∈ part, isConfusable u = false) (t : Text) :
    part.isPrefixOf (squeeze t) = part.isPrefixOf t := by
  induction part generalizing t with
  | nil => rw [List.isPrefixOf, List.isPrefixOf]
  | cons u part ih =>
      have hu : isConfusable u = false := hpart u (List.mem_cons_self ..)
      have hwhite : ∀ {v : UInt16}, isConfusable v = true → (u == v) = false := by
        intro v hv
        rw [beq_eq_false_iff_ne]
        rintro rfl
        rw [hu] at hv
        cases hv
      cases t with
      | nil => rfl
      | cons v t =>
          by_cases hv : isConfusable v = true
          · obtain ⟨w, rest, heq, hne, hw, hrest, -⟩ := Squeeze.exists_run hv t
            have hsqueeze : squeeze (v :: t) = unit ' ' :: squeeze rest := by
              rw [heq]
              exact squeeze_white hne hw hrest
            rw [hsqueeze, List.isPrefixOf, List.isPrefixOf, hwhite hv,
              hwhite isConfusable_space, Bool.false_and, Bool.false_and]
          · rw [Bool.not_eq_true] at hv
            rw [squeeze_clean hv, List.isPrefixOf, List.isPrefixOf]
            exact congrArg _ (ih (fun w hw => hpart w (List.mem_cons_of_mem _ hw)) t)

theorem opening_clean (delimiters : Delimiters) :
    ∀ u ∈ delimiters.opening, isConfusable u = false := by
  cases delimiters <;> decide

theorem closing_clean (delimiters : Delimiters) :
    ∀ u ∈ delimiters.closing, isConfusable u = false := by
  cases delimiters <;> decide

theorem isPrefixOf_white {part : Text} (hne : part ≠ [])
    (hpart : ∀ u ∈ part, isConfusable u = false) {v : UInt16} (hv : isConfusable v = true)
    (t : Text) : part.isPrefixOf (v :: t) = false := by
  obtain ⟨u, part, rfl⟩ := List.exists_cons_of_ne_nil hne
  have hu : (u == v) = false := by
    rw [beq_eq_false_iff_ne]
    rintro rfl
    rw [hpart u (List.mem_cons_self ..)] at hv
    cases hv
  rw [List.isPrefixOf, hu, Bool.false_and]

theorem lazyInterior_white {closing : Text} (hne : closing ≠ [])
    (hclean : ∀ u ∈ closing, isConfusable u = false) {w : Text}
    (hw : ∀ u ∈ w, isConfusable u = true) (t : Text) :
    lazyInterior closing (w ++ t) = (lazyInterior closing t).map (w ++ ·) := by
  induction w with
  | nil =>
      rw [List.nil_append]
      exact Option.map_id'.symm ▸ rfl
  | cons u w ih =>
      rw [List.cons_append, lazyInterior,
        isPrefixOf_white hne hclean (hw u (List.mem_cons_self ..)), if_neg Bool.false_ne_true,
        ih fun v hv => hw v (List.mem_cons_of_mem _ hv), Option.map_map]
      rfl

theorem lazyInterior_squeeze {closing : Text} (hne : closing ≠ [])
    (hclean : ∀ u ∈ closing, isConfusable u = false) (t : Text) :
    lazyInterior closing (squeeze t) = (lazyInterior closing t).map squeeze := by
  induction t using Squeeze.runs_induction isConfusable with
  | nil => rfl
  | element u t hu ih =>
      have hfront := isPrefixOf_squeeze hclean (u :: t)
      rw [squeeze_clean hu] at hfront ⊢
      rw [lazyInterior, lazyInterior, hfront]
      split
      · rfl
      · rw [ih, Option.map_map, Option.map_map]
        congr 1
        funext interior
        exact (squeeze_clean hu interior).symm
  | run w t hwne hw ht ih =>
      have hblank : lazyInterior closing ([unit ' '] ++ squeeze t)
          = (lazyInterior closing (squeeze t)).map ([unit ' '] ++ ·) :=
        lazyInterior_white hne hclean (List.forall_mem_singleton.mpr isConfusable_space) _
      rw [squeeze_white hwne hw ht, ← List.singleton_append, hblank, ih,
        lazyInterior_white hne hclean hw, Option.map_map, Option.map_map]
      refine Option.map_congr fun interior hinterior => ?_
      obtain ⟨rest, rfl⟩ := lazyInterior_eq hinterior
      have hhead : ∀ u ∈ interior.head?, isConfusable u = false := by
        intro u hu
        refine ht u ?_
        rw [List.append_assoc, List.head?_append, Option.mem_def.mp hu]
        rfl
      exact (squeeze_white hwne hw hhead).symm

theorem spanAt_squeeze (t : Text) :
    spanAt (squeeze t) = (spanAt t).map fun found => (found.1, squeeze found.2) := by
  rw [spanAt, spanAt, List.map_findSome?]
  congr 1
  funext delimiters
  rw [isPrefixOf_squeeze (opening_clean delimiters), Function.comp_apply]
  split
  · next hopening =>
      obtain ⟨tail, rfl⟩ := List.isPrefixOf_iff_prefix.mp hopening
      have hne : delimiters.closing ≠ [] := by cases delimiters <;> exact List.cons_ne_nil _ _
      rw [squeeze_clean_append (opening_clean delimiters), ← opening_length delimiters,
        List.drop_left, List.drop_left, lazyInterior_squeeze hne (closing_clean delimiters),
        Option.map_map, Option.map_map]
      rfl
  · rfl

theorem spanAt_white {u : UInt16} (hu : isConfusable u = true) (t : Text) :
    spanAt (u :: t) = none := by
  rw [spanAt, List.findSome?_eq_none_iff]
  intro delimiters _
  have hne : delimiters.opening ≠ [] := by cases delimiters <;> exact List.cons_ne_nil _ _
  rw [isPrefixOf_white hne (opening_clean delimiters) hu, if_neg Bool.false_ne_true]

theorem replaceExplicit_span {value interior rest : Text} {delimiters : Delimiters}
    (h : spanAt value = some (delimiters, interior))
    (hvalue : value = delimiters.opening ++ interior ++ delimiters.closing ++ rest) :
    replaceExplicit value = mathTokenStart :: (collapseWhitespace interior
      ++ mathTokenEnd :: replaceExplicit rest) := by
  rw [replaceExplicit, explicitSpans_span h hvalue, List.flatMap_cons, Atom.token,
    List.append_assoc]
  rfl

theorem replaceExplicit_unit {u : UInt16} {rest : Text} (h : spanAt (u :: rest) = none) :
    replaceExplicit (u :: rest) = u :: replaceExplicit rest := by
  rw [replaceExplicit, explicitSpans, h]
  rfl

theorem replaceExplicit_white {w : Text} (hw : ∀ u ∈ w, isConfusable u = true) (t : Text) :
    replaceExplicit (w ++ t) = w ++ replaceExplicit t := by
  induction w with
  | nil => rfl
  | cons u w ih =>
      rw [List.cons_append, replaceExplicit_unit (spanAt_white (hw u (List.mem_cons_self ..)) _),
        ih fun v hv => hw v (List.mem_cons_of_mem _ hv)]
      rfl

theorem replaceExplicit_head {t : Text} (h : ∀ u ∈ t.head?, isConfusable u = false) :
    ∀ u ∈ (replaceExplicit t).head?, isConfusable u = false := by
  intro u hu
  cases t with
  | nil => cases hu
  | cons v t =>
      cases hspan : spanAt (v :: t) with
      | none =>
          rw [replaceExplicit_unit hspan] at hu
          exact h u hu
      | some found =>
          obtain ⟨rest, hvalue⟩ := spanAt_eq hspan
          rw [replaceExplicit_span hspan hvalue] at hu
          cases hu
          decide

theorem squeeze_replaceExplicit (t : Text) :
    squeeze (replaceExplicit (squeeze t)) = squeeze (replaceExplicit t) := by
  generalize hn : t.length = n
  induction n using Nat.strongRecOn generalizing t with
  | ind n ih =>
      cases t with
      | nil => rfl
      | cons u t =>
          cases hspan : spanAt (u :: t) with
          | some found =>
              obtain ⟨delimiters, interior⟩ := found
              obtain ⟨rest, hvalue⟩ := spanAt_eq hspan
              have hlt : rest.length < n := by
                rw [← hn, hvalue]
                simp only [List.length_append, opening_length]
                omega
              have hsqueezed : squeeze (u :: t) = delimiters.opening ++ squeeze interior
                  ++ delimiters.closing ++ squeeze rest := by
                obtain ⟨a, b, hclosing⟩ : ∃ a b, delimiters.closing = [a, b] := by
                  cases delimiters <;> exact ⟨_, _, rfl⟩
                have hclean := closing_clean delimiters
                rw [hclosing] at hvalue hclean ⊢
                have hab : squeeze (interior ++ a :: b :: rest)
                    = squeeze interior ++ a :: b :: squeeze rest := by
                  rw [squeeze_at (hclean a (List.mem_cons_self ..)),
                    squeeze_clean (hclean b (List.mem_cons_of_mem _ (List.mem_cons_self ..)))]
                rw [hvalue, List.append_assoc, List.append_assoc,
                  squeeze_clean_append (opening_clean delimiters)]
                simp only [List.cons_append, List.nil_append, hab, List.append_assoc]
              have hfound := spanAt_squeeze (u :: t)
              rw [hspan] at hfound
              rw [replaceExplicit_span hfound hsqueezed, replaceExplicit_span hspan hvalue,
                collapse_squeeze, squeeze_clean isConfusable_start,
                squeeze_clean isConfusable_start, squeeze_at isConfusable_end,
                squeeze_at isConfusable_end, ih _ hlt rest rfl]
          | none =>
              by_cases hu : isConfusable u = true
              · obtain ⟨w, rest, heq, hne, hw, hrest, hle⟩ := Squeeze.exists_run hu t
                have hlt : rest.length < n := by
                  rw [← hn, List.length_cons]
                  omega
                have hblank := replaceExplicit_white
                  (List.forall_mem_singleton.mpr isConfusable_space) (squeeze rest)
                rw [List.singleton_append, List.singleton_append] at hblank
                rw [heq, replaceExplicit_white hw, squeeze_white hne hw hrest, hblank,
                  squeeze_space (replaceExplicit_head (squeeze_head hrest)),
                  squeeze_white hne hw (replaceExplicit_head hrest), ih _ hlt rest rfl]
              · rw [Bool.not_eq_true] at hu
                have hfound := spanAt_squeeze (u :: t)
                rw [hspan, squeeze_clean hu] at hfound
                rw [replaceExplicit_unit hspan, squeeze_clean hu, replaceExplicit_unit hfound,
                  squeeze_clean hu, squeeze_clean hu,
                  ih t.length (by rw [← hn]; exact Nat.lt_succ_self _) t rfl]

/-! ## Around a dollar -/

/-- An odd number of backslashes stands at the end of a text. -/
def escaped (front : Text) : Bool := (front.reverse.takeWhile (· == unit '\\')).length % 2 == 1

theorem isEscapedDollar_at (front back : Text) :
    isEscapedDollar (front ++ back) front.length = escaped front := by
  rw [isEscapedDollar, List.take_left, escaped]

theorem unitBefore_at (front back : Text) :
    unitBefore (front ++ back) front.length = front.getLast? := by
  rw [unitBefore]
  split
  · next hzero => rw [List.length_eq_zero_iff.mp hzero]; rfl
  · next hne =>
      rw [List.getElem?_append_left (by omega), List.getLast?_eq_getElem?]

theorem getElem?_after (front back : Text) (u : UInt16) :
    (front ++ u :: back)[front.length + 1]? = back.head? := by
  rw [List.getElem?_append_right (by omega), Nat.add_sub_cancel_left, List.getElem?_cons_succ,
    List.head?_eq_getElem?]

/-- A unit that may stand inside a span next to its dollar. -/
def isInner (u : UInt16) : Bool := u != unit '$' && !isConfusable u

theorem canOpenInlineMath_at (front back : Text) :
    canOpenInlineMath (front ++ unit '$' :: back) front.length
      = (back.head?.any isInner && !escaped front) := by
  rw [canOpenInlineMath, getElem?_after, isEscapedDollar_at]
  rfl

theorem canCloseInlineMath_at (front back : Text) :
    canCloseInlineMath (front ++ unit '$' :: back) front.length
      = (front.getLast?.any isInner && !escaped front) := by
  rw [canCloseInlineMath, unitBefore_at, isEscapedDollar_at]
  rfl

theorem isInlineDollar_at (front back : Text) (u : UInt16) :
    isInlineDollar (front ++ u :: back) front.length
      = (u == unit '$' && !front.getLast?.any (· == unit '$') && !back.head?.any (· == unit '$')
        && !escaped front) := by
  have hnext : ∀ o : Option UInt16, (o != some (unit '$')) = !o.any (· == unit '$') := by
    intro o
    cases o with
    | none => rfl
    | some v => rfl
  have hhere : (front ++ u :: back)[front.length]? = some u := by
    rw [List.getElem?_append_right (le_refl _), Nat.sub_self]
    rfl
  rw [isInlineDollar, hhere, unitBefore_at, getElem?_after, isEscapedDollar_at, hnext, hnext]
  rfl

theorem head_squeeze {q : UInt16 → Bool} (hq : ∀ u, isConfusable u = true → q u = false)
    (t : Text) : (squeeze t).head?.any q = t.head?.any q := by
  cases t with
  | nil => rfl
  | cons u t =>
      by_cases hu : isConfusable u = true
      · obtain ⟨w, rest, heq, hne, hw, hrest, -⟩ := Squeeze.exists_run hu t
        have hblank : squeeze (u :: t) = unit ' ' :: squeeze rest := by
          rw [heq]
          exact squeeze_white hne hw hrest
        rw [hblank]
        exact (hq _ isConfusable_space).trans (hq _ hu).symm
      · rw [Bool.not_eq_true] at hu
        rw [squeeze_clean hu]
        rfl

theorem last_squeeze {q : UInt16 → Bool} (hq : ∀ u, isConfusable u = true → q u = false)
    (t : Text) : (squeeze t).getLast?.any q = t.getLast?.any q := by
  cases t using List.reverseRecOn with
  | nil => rfl
  | append_singleton t u =>
      by_cases hu : isConfusable u = true
      · obtain ⟨m, hm⟩ := Squeeze.squeeze_snoc_separator (unit ' ') hu t
        rw [squeeze, hm, List.getLast?_concat, List.getLast?_concat]
        exact (hq _ isConfusable_space).trans (hq _ hu).symm
      · rw [Bool.not_eq_true] at hu
        rw [squeeze_snoc hu, List.getLast?_concat, List.getLast?_concat]

theorem escaped_squeeze (t : Text) : escaped (squeeze t) = escaped t := by
  have hslash : ∀ u, isConfusable u = true → (u == unit '\\') = false := by
    intro u hu
    rw [beq_eq_false_iff_ne]
    rintro rfl
    exact absurd hu (by decide)
  have hrun : (squeeze t).reverse.takeWhile (· == unit '\\')
      = t.reverse.takeWhile (· == unit '\\') := by
    induction t using List.reverseRecOn with
    | nil => rfl
    | append_singleton t u ih =>
        by_cases hu : isConfusable u = true
        · obtain ⟨m, hm⟩ := Squeeze.squeeze_snoc_separator (unit ' ') hu t
          rw [squeeze, hm, List.reverse_append, List.reverse_append, List.reverse_singleton,
            List.reverse_singleton, List.singleton_append, List.singleton_append,
            List.takeWhile_cons, List.takeWhile_cons, hslash _ hu, hslash _ isConfusable_space]
          rfl
        · rw [Bool.not_eq_true] at hu
          rw [squeeze_snoc hu, List.reverse_append, List.reverse_append, List.reverse_singleton, List.singleton_append,
            List.singleton_append, List.takeWhile_cons, List.takeWhile_cons]
          split
          · exact congrArg _ ih
          · rfl
  rw [escaped, hrun, escaped]

theorem isInner_white (u : UInt16) (hu : isConfusable u = true) : isInner u = false := by
  rw [isInner, hu, Bool.not_true, Bool.and_false]

theorem canOpenInlineMath_squeeze (front back : Text) :
    canOpenInlineMath (squeeze front ++ unit '$' :: squeeze back) (squeeze front).length
      = canOpenInlineMath (front ++ unit '$' :: back) front.length := by
  rw [canOpenInlineMath_at, canOpenInlineMath_at, head_squeeze isInner_white, escaped_squeeze]

theorem canCloseInlineMath_squeeze (front back : Text) :
    canCloseInlineMath (squeeze front ++ unit '$' :: squeeze back) (squeeze front).length
      = canCloseInlineMath (front ++ unit '$' :: back) front.length := by
  rw [canCloseInlineMath_at, canCloseInlineMath_at, last_squeeze isInner_white, escaped_squeeze]

theorem isInlineDollar_squeeze (front back : Text) (u : UInt16) :
    isInlineDollar (squeeze front ++ u :: squeeze back) (squeeze front).length
      = isInlineDollar (front ++ u :: back) front.length := by
  have hdollar : ∀ u, isConfusable u = true → (u == unit '$') = false := by
    intro u hu
    rw [beq_eq_false_iff_ne]
    rintro rfl
    exact absurd hu (by decide)
  rw [isInlineDollar_at, isInlineDollar_at, head_squeeze hdollar, last_squeeze hdollar,
    escaped_squeeze]

/-! ## The same dollars -/

/-- Positions of dollars behind a front of a text, and those of its squeeze. -/
inductive SameDollars (value : Text) : Text → List Nat → List Nat → Prop
  | none (front : Text) : SameDollars value front [] []
  | next {front middle back : Text} {rest rest' : List Nat}
      (hvalue : value = front ++ middle ++ unit '$' :: back)
      (h : SameDollars value (front ++ middle ++ [unit '$']) rest rest') :
      SameDollars value front ((front ++ middle).length :: rest)
        ((squeeze (front ++ middle)).length :: rest')

theorem SameDollars.behind {value front : Text} (more : Text) {positions positions' : List Nat}
    (h : SameDollars value (front ++ more) positions positions') :
    SameDollars value front positions positions' := by
  cases h with
  | none => exact .none _
  | @next _ middle back rest rest' hvalue h =>
      have hfront : front ++ more ++ middle = front ++ (more ++ middle) := List.append_assoc ..
      rw [hfront] at hvalue h ⊢
      exact .next hvalue h

theorem SameDollars.here {value front back : Text} {rest rest' : List Nat}
    (hvalue : value = front ++ unit '$' :: back)
    (h : SameDollars value (front ++ [unit '$']) rest rest') :
    SameDollars value front (front.length :: rest) ((squeeze front).length :: rest') := by
  have hnext : SameDollars value front ((front ++ []).length :: rest)
      ((squeeze (front ++ [])).length :: rest') :=
    .next (by rwa [List.append_nil]) (by rwa [List.append_nil])
  rwa [List.append_nil] at hnext

theorem inlineDollarsFrom_white {w : Text} (hw : ∀ u ∈ w, isConfusable u = true) (inside : Bool)
    (front t : Text) :
    inlineDollarsFrom (front ++ (w ++ t)) inside front.length (w ++ t)
      = inlineDollarsFrom (front ++ (w ++ t)) inside (front ++ w).length t := by
  induction w generalizing front with
  | nil => rw [List.append_nil, List.nil_append]
  | cons u w ih =>
      have hu := hw u (List.mem_cons_self ..)
      have hrest := ih (fun v hv => hw v (List.mem_cons_of_mem _ hv)) (front ++ [u])
      have hfront : front ++ [u] ++ (w ++ t) = front ++ (u :: w ++ t) := by
        rw [List.append_assoc]
        rfl
      have hlength : (front ++ [u] ++ w).length = (front ++ u :: w).length := by
        rw [List.append_assoc]
        rfl
      rw [hfront, hlength, List.length_append, List.length_singleton] at hrest
      rw [← hrest]
      cases inside with
      | true =>
          have hend : (u != mathTokenEnd) = true := by
            rw [bne_iff_ne]
            rintro rfl
            exact absurd hu (by decide)
          rw [List.cons_append, inlineDollarsFrom, hend]
      | false =>
          have hstart : u ≠ mathTokenStart := by
            rintro rfl
            exact absurd hu (by decide)
          have hdollar : (u == unit '$') = false := by
            rw [beq_eq_false_iff_ne]
            rintro rfl
            exact absurd hu (by decide)
          rw [List.cons_append, inlineDollarsFrom, if_neg hstart, isInlineDollar_at, hdollar,
            Bool.false_and, Bool.false_and, Bool.false_and, if_neg Bool.false_ne_true]

theorem sameDollars_from (value : Text) (inside : Bool) {front t : Text}
    (hvalue : value = front ++ t) (hapart : Squeeze.Apart isConfusable front t) :
    SameDollars value front (inlineDollarsFrom value inside front.length t)
      (inlineDollarsFrom (squeeze value) inside (squeeze front).length (squeeze t)) := by
  have hsqueeze : squeeze value = squeeze front ++ squeeze t := by
    rw [hvalue]
    exact Squeeze.squeeze_append hapart
  induction t using Squeeze.runs_induction isConfusable generalizing front inside with
  | nil => exact .none _
  | element u t hu ih =>
      have hrest : ∀ inside, SameDollars value (front ++ [u])
          (inlineDollarsFrom value inside (front.length + 1) t)
          (inlineDollarsFrom (squeeze value) inside ((squeeze front).length + 1) (squeeze t)) := by
        intro inside
        have hnext := @ih inside (front ++ [u])
          (by rw [hvalue, List.append_assoc, List.singleton_append])
          (.inl fun v hv => by
            rw [List.getLast?_concat] at hv
            exact Option.some.inj hv ▸ hu)
          (by rw [hsqueeze, squeeze_clean hu, squeeze_snoc hu, List.append_assoc,
            List.singleton_append])
        rw [squeeze_snoc hu, List.length_append, List.length_append] at hnext
        exact hnext
      rw [squeeze_clean hu]
      cases inside with
      | true =>
          rw [inlineDollarsFrom, inlineDollarsFrom]
          exact (hrest _).behind [u]
      | false =>
          rw [inlineDollarsFrom, inlineDollarsFrom]
          split
          · have hends : (squeeze t).contains mathTokenEnd = t.contains mathTokenEnd := by
              rw [Bool.eq_iff_iff, List.contains_iff_mem, List.contains_iff_mem]
              exact Squeeze.mem_squeeze_element isConfusable_end isConfusable_space
            rw [hends]
            exact (hrest _).behind [u]
          · have hdollar : isInlineDollar (squeeze value) (squeeze front).length
                = isInlineDollar value front.length := by
              rw [hsqueeze, squeeze_clean hu, isInlineDollar_squeeze, hvalue]
            rw [hdollar]
            split
            · next hyes =>
                have hunit : u = unit '$' := by
                  rw [hvalue, isInlineDollar_at] at hyes
                  simp only [Bool.and_eq_true, beq_iff_eq] at hyes
                  exact hyes.1.1.1
                subst hunit
                exact .here hvalue (hrest false)
            · exact (hrest _).behind [u]
  | run w t hne hw ht ih =>
      have hlast : ∀ u ∈ front.getLast?, isConfusable u = false := by
        refine hapart.resolve_right fun hhead => ?_
        obtain ⟨u, w, rfl⟩ := List.exists_cons_of_ne_nil hne
        have hclean := hhead u rfl
        rw [hw u (List.mem_cons_self ..)] at hclean
        cases hclean
      have hwhite : squeeze w = [unit ' '] := by
        have hrun := squeeze_white hne hw (t := []) fun u hu => absurd hu (Option.not_mem_none u)
        rwa [List.append_nil] at hrun
      have hfront : squeeze (front ++ w) = squeeze front ++ [unit ' '] := by
        rw [squeeze, Squeeze.squeeze_append (.inl hlast)]
        exact congrArg _ hwhite
      have hnext := @ih inside (front ++ w) (by rw [hvalue, List.append_assoc]) (.inr ht)
        (by rw [hsqueeze, squeeze_white hne hw ht, hfront, List.append_assoc,
          List.singleton_append])
      have hblank := inlineDollarsFrom_white
        (List.forall_mem_singleton.mpr isConfusable_space) inside (squeeze front) (squeeze t)
      rw [List.singleton_append, ← squeeze_white hne hw ht, ← hsqueeze] at hblank
      have hrun := inlineDollarsFrom_white hw inside front t
      rw [← hvalue] at hrun
      rw [hblank, hrun, ← hfront]
      exact hnext.behind w

/-! ## The loop with the answers given -/

def asked (υ : Tables) (value : Text) (hasLaterDollar : Bool) (loop : Loop) (index : Nat) :
    Option Bool :=
  loop.opener.bind fun opener =>
    if canCloseInlineMath value index then
      some (currencyOpenerShouldYield υ value opener index hasLaterDollar)
    else none

/-- The answers of `currencyOpenerShouldYield`, in the order of the loop. -/
def answersFrom (υ : Tables) (value : Text) : Loop → List Nat → List Bool
  | _, [] => []
  | loop, index :: rest =>
      (asked υ value (!rest.isEmpty) loop index).toList
        ++ answersFrom υ value (visit υ value (!rest.isEmpty) loop index) rest

def currencyAnswers (υ : Tables) (statement : Text) : List Bool :=
  let value := replaceExplicit (prepareCanonicalInput υ statement)
  answersFrom υ value .start (inlineDollarPositions value)

def asks (value : Text) (loop : Loop) (index : Nat) : Bool :=
  loop.opener.isSome && canCloseInlineMath value index

/-- `visit`, with the answer given. -/
def visitWith (value : Text) (answer : Bool) (loop : Loop) (index : Nat) : Loop :=
  match loop.opener with
  | none => if canOpenInlineMath value index then { loop with opener := some index } else loop
  | some opener =>
      if canCloseInlineMath value index then
        if answer then { loop with opener := some index } else loop.close value opener index
      else if canOpenInlineMath value index then { loop with opener := some index }
      else loop

/-- The loop over some dollars, and the answers it is given. -/
inductive Follows (value : Text) : Loop → List Nat → List Bool → Loop → Prop
  | done (loop : Loop) : Follows value loop [] [] loop
  | asked {loop last : Loop} {index : Nat} {rest : List Nat} {answers : List Bool}
      (hasks : asks value loop index = true) (answer : Bool)
      (h : Follows value (visitWith value answer loop index) rest answers last) :
      Follows value loop (index :: rest) (answer :: answers) last
  | passed {loop last : Loop} {index : Nat} {rest : List Nat} {answers : List Bool}
      (hasks : asks value loop index = false)
      (h : Follows value (visitWith value false loop index) rest answers last) :
      Follows value loop (index :: rest) answers last

theorem follows_visitAll (υ : Tables) (value : Text) (loop : Loop) (positions : List Nat) :
    Follows value loop positions (answersFrom υ value loop positions)
      (visitAll υ value loop positions) := by
  induction positions generalizing loop with
  | nil => exact .done _
  | cons index rest ih =>
      have hrest := ih (visit υ value (!rest.isEmpty) loop index)
      rw [answersFrom, visitAll]
      cases hopener : loop.opener with
      | none =>
          have hvisit : visit υ value (!rest.isEmpty) loop index
              = visitWith value false loop index := by
            rw [visit, visitWith, hopener]
          have hnone : asked υ value (!rest.isEmpty) loop index = none := by
            rw [asked, hopener]
            rfl
          rw [hnone]
          rw [hvisit] at hrest ⊢
          exact .passed (by rw [asks, hopener]; rfl) hrest
      | some opener =>
          by_cases hclose : canCloseInlineMath value index = true
          · have hvisit : visit υ value (!rest.isEmpty) loop index
                = visitWith value (currencyOpenerShouldYield υ value opener index (!rest.isEmpty))
                  loop index := by
              rw [visit, visitWith, hopener]
            have hsome : asked υ value (!rest.isEmpty) loop index
                = some (currencyOpenerShouldYield υ value opener index (!rest.isEmpty)) := by
              rw [asked, hopener, Option.bind_some, if_pos hclose]
            rw [hsome]
            rw [hvisit] at hrest ⊢
            exact .asked (by rw [asks, hopener, hclose]; rfl) _ hrest
          · have hvisit : visit υ value (!rest.isEmpty) loop index
                = visitWith value false loop index := by
              rw [visit, visitWith, hopener]
              simp only [if_neg hclose]
            have hnone : asked υ value (!rest.isEmpty) loop index = none := by
              rw [asked, hopener, Option.bind_some, if_neg hclose]
            rw [hnone]
            rw [hvisit] at hrest ⊢
            rw [Bool.not_eq_true] at hclose
            exact .passed (by rw [asks, hopener, hclose]; rfl) hrest

theorem Follows.unique {value : Text} {loop last last' : Loop} {positions : List Nat}
    {answers : List Bool} (h : Follows value loop positions answers last)
    (h' : Follows value loop positions answers last') : last = last' := by
  induction h with
  | done => 
      cases h'
      rfl
  | asked hasks answer _ ih =>
      cases h' with
      | asked _ _ h' => exact ih h'
      | passed hnot _ =>
          rw [hasks] at hnot
          cases hnot
  | passed hasks _ ih =>
      cases h' with
      | asked hyes _ _ =>
          rw [hasks] at hyes
          cases hyes
      | passed _ h' => exact ih h'

/-! ## A text and its squeeze -/

def CleanEnd (t : Text) : Prop := ∀ u ∈ t.getLast?, isConfusable u = false

theorem cleanEnd_nil : CleanEnd [] := fun _ h => nomatch h

/-- The loop on a text and on its squeeze, both before the same front: what
is emitted has one squeeze, and the slices to come begin at the same units. -/
inductive LoopAlike : Text → Loop → Loop → Prop
  | closed {output output' done : Text} (houtput : squeeze output = squeeze output')
      (hend : CleanEnd output) (hend' : CleanEnd output') (hdone : CleanEnd done) (plain : Text) :
      LoopAlike (done ++ plain) ⟨output, done.length, none⟩ ⟨output', (squeeze done).length, none⟩
  | opened {output output' done : Text} (houtput : squeeze output = squeeze output')
      (hend : CleanEnd output) (hend' : CleanEnd output') (hdone : CleanEnd done)
      (plain interior : Text) :
      LoopAlike (done ++ plain ++ unit '$' :: interior)
        ⟨output, done.length, some (done ++ plain).length⟩
        ⟨output', (squeeze done).length, some (squeeze (done ++ plain)).length⟩

theorem squeeze_append {front : Text} (h : CleanEnd front) (back : Text) :
    squeeze (front ++ back) = squeeze front ++ squeeze back := Squeeze.squeeze_append (.inl h)

theorem LoopAlike.close {output output' done : Text} (houtput : squeeze output = squeeze output')
    (hend : CleanEnd output) (hend' : CleanEnd output') (hdone : CleanEnd done)
    (plain interior back : Text) :
    LoopAlike (done ++ plain ++ unit '$' :: interior ++ [unit '$'])
      (Loop.close ⟨output, done.length, some (done ++ plain).length⟩
        (done ++ plain ++ unit '$' :: interior ++ unit '$' :: back) (done ++ plain).length
        (done ++ plain ++ unit '$' :: interior).length)
      (Loop.close ⟨output', (squeeze done).length, some (squeeze (done ++ plain)).length⟩
        (squeeze (done ++ plain ++ unit '$' :: interior ++ unit '$' :: back))
        (squeeze (done ++ plain)).length
        (squeeze (done ++ plain ++ unit '$' :: interior)).length) := by
  have hslices : ∀ done plain interior back : Text,
      slice (done ++ plain ++ unit '$' :: interior ++ unit '$' :: back) done.length
          (done ++ plain).length = plain
        ∧ slice (done ++ plain ++ unit '$' :: interior ++ unit '$' :: back)
          ((done ++ plain).length + 1) (done ++ plain ++ unit '$' :: interior).length
          = interior := by
    intro done plain interior back
    constructor
    · have hslice := slice_middle done plain (unit '$' :: interior ++ unit '$' :: back)
      simpa only [List.append_assoc] using hslice
    · have hslice := slice_middle (done ++ plain ++ [unit '$']) interior (unit '$' :: back)
      simpa only [List.append_assoc, List.cons_append, List.nil_append, List.length_append,
        List.length_cons, List.length_nil, Nat.zero_add, Nat.add_assoc] using hslice
  have hfront : squeeze (done ++ plain ++ unit '$' :: interior)
      = squeeze (done ++ plain) ++ unit '$' :: squeeze interior :=
    squeeze_at isConfusable_dollar _ _
  have hvalue : squeeze (done ++ plain ++ unit '$' :: interior ++ unit '$' :: back)
      = squeeze done ++ squeeze plain ++ unit '$' :: squeeze interior ++ unit '$' :: squeeze back := by
    rw [squeeze_at isConfusable_dollar, hfront, squeeze_append hdone]
  have hstart : squeeze (done ++ plain) = squeeze done ++ squeeze plain := squeeze_append hdone _
  obtain ⟨hplain, hinterior⟩ := hslices done plain interior back
  obtain ⟨hplain', hinterior'⟩ := hslices (squeeze done) (squeeze plain) (squeeze interior)
    (squeeze back)
  rw [hfront, hvalue, hstart, Loop.close, Loop.close, hplain, hinterior, hplain', hinterior',
    collapse_squeeze]
  have hlast : ∀ front : Text, CleanEnd (front ++ [mathTokenEnd]) := by
    intro front u hu
    rw [List.getLast?_concat] at hu
    cases hu
    decide
  have houtputs : squeeze (output ++ plain ++ mathTokenStart :: collapseWhitespace interior
        ++ [mathTokenEnd])
      = squeeze (output' ++ squeeze plain ++ mathTokenStart :: collapseWhitespace interior
        ++ [mathTokenEnd]) := by
    rw [List.append_assoc (output ++ plain), List.append_assoc (output' ++ squeeze plain),
      List.cons_append, squeeze_at isConfusable_start, squeeze_at isConfusable_start,
      squeeze_append hend, squeeze_append hend', houtput, squeeze_idem]
  have hdollar : CleanEnd (done ++ plain ++ unit '$' :: interior ++ [unit '$']) := by
    intro u hu
    rw [List.getLast?_concat] at hu
    cases hu
    decide
  have hclosed := LoopAlike.closed houtputs (hlast _) (hlast _) hdollar []
  rw [List.append_nil, squeeze_snoc isConfusable_dollar, hfront, hstart] at hclosed
  convert hclosed using 2
  · simp only [List.length_append, List.length_singleton]
  · simp only [List.length_append, List.length_singleton]

theorem LoopAlike.visitWith {front : Text} {loop loop' : Loop} (h : LoopAlike front loop loop')
    (answer : Bool) (middle back : Text) :
    asks (squeeze (front ++ middle ++ unit '$' :: back)) loop' (squeeze (front ++ middle)).length
        = asks (front ++ middle ++ unit '$' :: back) loop (front ++ middle).length
      ∧ LoopAlike (front ++ middle ++ [unit '$'])
        (visitWith (front ++ middle ++ unit '$' :: back) answer loop (front ++ middle).length)
        (visitWith (squeeze (front ++ middle ++ unit '$' :: back)) answer loop'
          (squeeze (front ++ middle)).length) := by
  have hopen : canOpenInlineMath (squeeze (front ++ middle ++ unit '$' :: back))
        (squeeze (front ++ middle)).length
      = canOpenInlineMath (front ++ middle ++ unit '$' :: back) (front ++ middle).length := by
    rw [squeeze_at isConfusable_dollar, canOpenInlineMath_squeeze]
  have hclose : canCloseInlineMath (squeeze (front ++ middle ++ unit '$' :: back))
        (squeeze (front ++ middle)).length
      = canCloseInlineMath (front ++ middle ++ unit '$' :: back) (front ++ middle).length := by
    rw [squeeze_at isConfusable_dollar, canCloseInlineMath_squeeze]
  rw [asks, asks, hclose]
  cases h with
  | closed houtput hend hend' hdone plain =>
      refine ⟨rfl, ?_⟩
      simp only [Split.visitWith, hopen]
      split
      · have hopened := LoopAlike.opened houtput hend hend' hdone (plain ++ middle) []
        simpa only [List.append_assoc] using hopened
      · have hclosed := LoopAlike.closed houtput hend hend' hdone (plain ++ middle ++ [unit '$'])
        simpa only [List.append_assoc] using hclosed
  | opened houtput hend hend' hdone plain interior =>
      refine ⟨rfl, ?_⟩
      have hmoved := LoopAlike.opened houtput hend hend' hdone
        (plain ++ unit '$' :: (interior ++ middle)) []
      simp only [Split.visitWith, hopen, hclose]
      split
      · split
        · simpa only [List.append_assoc, List.cons_append] using hmoved
        · have hclosed := LoopAlike.close houtput hend hend' hdone plain (interior ++ middle) back
          simpa only [List.append_assoc, List.cons_append] using hclosed
      · split
        · simpa only [List.append_assoc, List.cons_append] using hmoved
        · have hopened := LoopAlike.opened houtput hend hend' hdone plain
            (interior ++ middle ++ [unit '$'])
          simpa only [List.append_assoc, List.cons_append] using hopened

theorem LoopAlike.follows {value front : Text} {loop loop' last : Loop}
    {positions positions' : List Nat} {answers : List Bool} (h : LoopAlike front loop loop')
    (hdollars : SameDollars value front positions positions')
    (hvalue : ∃ back, value = front ++ back)
    (hfollows : Follows value loop positions answers last) :
    ∃ front' last' back, value = front' ++ back ∧ LoopAlike front' last last'
      ∧ Follows (squeeze value) loop' positions' answers last' := by
  induction hfollows generalizing front loop' positions' with
  | done loop =>
      cases hdollars
      obtain ⟨back, hback⟩ := hvalue
      exact ⟨front, loop', back, hback, h, .done _⟩
  | asked hasks answer _ ih =>
      cases hdollars with
      | @next _ middle back _ _ hsplit hrest =>
          obtain ⟨hsame, hvisit⟩ := h.visitWith answer middle back
          rw [← hsplit] at hsame hvisit
          obtain ⟨front', last', back', hback, hlast, hdone⟩ := ih hvisit hrest
            ⟨back, by rw [hsplit, List.append_assoc _ [_], List.singleton_append]⟩
          exact ⟨front', last', back', hback, hlast, .asked (hsame.trans hasks) answer hdone⟩
  | passed hasks _ ih =>
      cases hdollars with
      | @next _ middle back _ _ hsplit hrest =>
          obtain ⟨hsame, hvisit⟩ := h.visitWith false middle back
          rw [← hsplit] at hsame hvisit
          obtain ⟨front', last', back', hback, hlast, hdone⟩ := ih hvisit hrest
            ⟨back, by rw [hsplit, List.append_assoc _ [_], List.singleton_append]⟩
          exact ⟨front', last', back', hback, hlast, .passed (hsame.trans hasks) hdone⟩

theorem LoopAlike.finish {front : Text} {loop loop' : Loop} (h : LoopAlike front loop loop')
    (back : Text) :
    squeeze (loop.finish (front ++ back)) = squeeze (loop'.finish (squeeze (front ++ back))) := by
  have hfinish : ∀ {output output' done rest : Text} {opener opener' : Option Nat},
      squeeze output = squeeze output' → CleanEnd output → CleanEnd output' → CleanEnd done →
      squeeze (Loop.finish ⟨output, done.length, opener⟩ (done ++ rest))
        = squeeze (Loop.finish ⟨output', (squeeze done).length, opener'⟩
          (squeeze (done ++ rest))) := by
    intro output output' done rest opener opener' houtput hend hend' hdone
    rw [Loop.finish, Loop.finish, squeeze_append hdone, List.drop_left, List.drop_left,
      squeeze_append hend, squeeze_append hend', houtput, squeeze_idem]
  cases h with
  | closed houtput hend hend' hdone plain =>
      rw [List.append_assoc]
      exact hfinish houtput hend hend' hdone
  | opened houtput hend hend' hdone plain interior =>
      rw [List.append_assoc, List.append_assoc]
      exact hfinish houtput hend hend' hdone

theorem follows_squeeze (υ : Tables) (value : Text) :
    ∃ last, Follows (squeeze value) .start (inlineDollarPositions (squeeze value))
        (answersFrom υ value .start (inlineDollarPositions value)) last
      ∧ squeeze (tokenizeInlineMath υ value) = squeeze (last.finish (squeeze value)) := by
  have hdollars : SameDollars value [] (inlineDollarPositions value)
      (inlineDollarPositions (squeeze value)) :=
    sameDollars_from value false rfl (.inl fun _ h => nomatch h)
  have hstart : LoopAlike [] .start .start :=
    LoopAlike.closed rfl cleanEnd_nil cleanEnd_nil cleanEnd_nil []
  obtain ⟨front, last, back, hvalue, hlast, hfollows⟩ := hstart.follows hdollars ⟨value, rfl⟩
    (follows_visitAll υ value .start (inlineDollarPositions value))
  refine ⟨last, hfollows, ?_⟩
  have hfinish := hlast.finish back
  rwa [← hvalue] at hfinish

/-! ## Different answers -/

/-- Positions of dollars in the order of the text, from a position on. -/
inductive Ordered (value : Text) : Nat → List Nat → Prop
  | nil (start : Nat) : Ordered value start []
  | cons {start index : Nat} {rest : List Nat} (hle : start ≤ index)
      (hdollar : value[index]? = some (unit '$')) (h : Ordered value (index + 1) rest) :
      Ordered value start (index :: rest)

theorem Ordered.mono {value : Text} {start earlier : Nat} {positions : List Nat}
    (h : Ordered value start positions) (hle : earlier ≤ start) :
    Ordered value earlier positions := by
  cases h with
  | nil => exact .nil _
  | cons hstart hdollar h => exact .cons (hle.trans hstart) hdollar h

theorem ordered_from (value : Text) (inside : Bool) (index : Nat) (t : Text) :
    Ordered value index (inlineDollarsFrom value inside index t) := by
  induction t generalizing inside index with
  | nil =>
      cases inside <;> exact .nil _
  | cons u t ih =>
      cases inside with
      | true =>
          rw [inlineDollarsFrom]
          exact (ih _ _).mono (Nat.le_succ _)
      | false =>
          rw [inlineDollarsFrom]
          split
          · exact (ih _ _).mono (Nat.le_succ _)
          · split
            · next hdollar =>
                simp only [isInlineDollar, Bool.and_eq_true, beq_iff_eq] at hdollar
                exact .cons (le_refl _) hdollar.1.1.1 (ih _ _)
            · exact (ih _ _).mono (Nat.le_succ _)

/-- What is emitted lies before the opener, and both before the dollars left. -/
def Ready (value : Text) (loop : Loop) (positions : List Nat) : Prop :=
  match loop.opener with
  | none => Ordered value loop.emittedThrough positions
  | some opener =>
      loop.emittedThrough ≤ opener ∧ value[opener]? = some (unit '$')
        ∧ Ordered value (opener + 1) positions

theorem Ready.visitWith {value : Text} {loop : Loop} {index : Nat} {rest : List Nat}
    (h : Ready value loop (index :: rest)) (answer : Bool) :
    Ready value (visitWith value answer loop index) rest := by
  obtain ⟨output, emitted, opener⟩ := loop
  cases opener with
  | none =>
      obtain ⟨⟩ | ⟨hle, hdollar, hrest⟩ := (h : Ordered value emitted (index :: rest))
      simp only [Split.visitWith]
      split
      · exact ⟨hle, hdollar, hrest⟩
      · exact (hrest.mono (hle.trans (Nat.le_succ _)) : Ordered value emitted rest)
  | some opener =>
      obtain ⟨hemitted, hopener, hordered⟩ := h
      obtain ⟨⟩ | ⟨hle, hdollar, hrest⟩ := hordered
      have hbefore : emitted ≤ index := hemitted.trans ((Nat.le_succ _).trans hle)
      simp only [Split.visitWith]
      split
      · split
        · exact ⟨hbefore, hdollar, hrest⟩
        · exact hrest
      · split
        · exact ⟨hbefore, hdollar, hrest⟩
        · exact ⟨hemitted, hopener, hrest.mono (hle.trans (Nat.le_succ _))⟩

theorem visitWith_output (value : Text) (answer : Bool) (loop : Loop) (index : Nat) :
    loop.output <+: (visitWith value answer loop index).output := by
  rw [visitWith]
  split
  · split <;> exact List.prefix_refl _
  · split
    · split
      · exact List.prefix_refl _
      · rw [Loop.close, List.append_assoc, List.append_assoc]
        exact List.prefix_append _ _
    · split <;> exact List.prefix_refl _

theorem Follows.output {value : Text} {loop last : Loop} {positions : List Nat}
    {answers : List Bool} (h : Follows value loop positions answers last) :
    loop.output <+: last.finish value := by
  induction h with
  | done => exact List.prefix_append _ _
  | asked _ _ _ ih => exact (visitWith_output ..).trans ih
  | passed _ _ ih => exact (visitWith_output ..).trans ih

theorem slice_take (value : Text) (start : Nat) {stop later : Nat} (h : stop ≤ later) :
    slice value start stop <+: slice value start later := by
  rw [slice, slice, List.drop_take, List.drop_take]
  exact List.take_prefix_take_left (by omega)

theorem Follows.front {value output : Text} {emitted opener : Nat} {last : Loop}
    {positions : List Nat} {answers : List Bool}
    (h : Follows value ⟨output, emitted, some opener⟩ positions answers last)
    (hordered : Ordered value (opener + 1) positions) :
    output ++ slice value emitted opener <+: last.finish value := by
  induction positions generalizing opener answers with
  | nil =>
      cases h
      refine (List.prefix_append_right_inj _).mpr ?_
      rw [slice, List.drop_take]
      exact List.take_prefix _ _
  | cons index rest ih =>
      obtain ⟨⟩ | ⟨hle, -, hrest⟩ := hordered
      have hlater : opener ≤ index := (Nat.le_succ _).trans hle
      have hmoved : ∀ {answers}, Follows value ⟨output, emitted, some index⟩ rest answers last →
          output ++ slice value emitted opener <+: last.finish value := fun h =>
        ((List.prefix_append_right_inj _).mpr (slice_take value emitted hlater)).trans (ih h hrest)
      cases h with
      | asked hasks answer h =>
          have hclose : canCloseInlineMath value index = true := by
            simpa only [asks, Option.isSome_some, Bool.true_and] using hasks
          simp only [Split.visitWith, if_pos hclose] at h
          cases answer with
          | true => exact hmoved h
          | false =>
              refine List.IsPrefix.trans ?_ h.output
              rw [if_neg Bool.false_ne_true, Loop.close, List.append_assoc (output ++ _)]
              exact List.prefix_append _ _
      | passed hasks h =>
          have hclose : canCloseInlineMath value index = false := by
            simpa only [asks, Option.isSome_some, Bool.true_and] using hasks
          simp only [Split.visitWith, hclose, Bool.false_eq_true, if_false] at h
          split at h
          · exact hmoved h
          · exact ih h (hrest.mono (hle.trans (Nat.le_succ _)))

def Parted (t s : Text) : Prop :=
  ∃ front, front ++ [unit '$'] <+: t ∧ front ++ [mathTokenStart] <+: s

theorem slice_dollar {value : Text} {start index later : Nat} (hstart : start ≤ index)
    (hdollar : value[index]? = some (unit '$')) (hlater : index < later) :
    slice value start index ++ [unit '$'] <+: slice value start later := by
  have hstep : slice value start (index + 1) = slice value start index ++ [unit '$'] := by
    obtain ⟨hlt, hget⟩ := List.getElem?_eq_some_iff.mp hdollar
    rw [slice, slice, List.take_add_one, hdollar, Option.toList_some, List.drop_append_of_le_length]
    rw [List.length_take]
    omega
  rw [← hstep]
  exact slice_take value start hlater

theorem parted_of_answers {value output : Text} {emitted opener index : Nat} {rest : List Nat}
    {last last' : Loop} {answers answers' : List Bool} (hemitted : emitted ≤ opener)
    (hopener : value[opener]? = some (unit '$')) (hlater : opener < index)
    (hrest : Ordered value (index + 1) rest)
    (h : Follows value ⟨output, emitted, some index⟩ rest answers last)
    (h' : Follows value (Loop.close ⟨output, emitted, some opener⟩ value opener index) rest answers'
      last') : Parted (last.finish value) (last'.finish value) := by
  refine ⟨output ++ slice value emitted opener, ?_, ?_⟩
  · rw [List.append_assoc]
    exact ((List.prefix_append_right_inj _).mpr (slice_dollar hemitted hopener hlater)).trans
      (h.front hrest)
  · refine List.IsPrefix.trans ?_ h'.output
    rw [Loop.close, List.append_assoc (output ++ _), List.prefix_append_right_inj]
    exact List.prefix_append [mathTokenStart] _

theorem Follows.differ {value : Text} {loop last last' : Loop} {positions : List Nat}
    {answers answers' : List Bool} (h : Follows value loop positions answers last)
    (h' : Follows value loop positions answers' last') (hready : Ready value loop positions)
    (hne : answers ≠ answers') :
    Parted (last.finish value) (last'.finish value) ∨ Parted (last'.finish value) (last.finish value) := by
  induction h generalizing answers' with
  | done =>
      cases h'
      exact absurd rfl hne
  | passed hasks _ ih =>
      cases h' with
      | asked hyes _ _ =>
          rw [hasks] at hyes
          cases hyes
      | passed _ h' => exact ih h' (hready.visitWith false) hne
  | @asked loop last index rest answers hasks answer h ih =>
      cases h' with
      | passed hnot _ =>
          rw [hasks] at hnot
          cases hnot
      | @asked _ _ _ _ answers' _ answer' h' =>
          by_cases hanswer : answer = answer'
          · subst hanswer
            exact ih h' (hready.visitWith answer) fun heq => hne (by rw [heq])
          · obtain ⟨output, emitted, opener⟩ := loop
            cases opener with
            | none => cases hasks
            | some opener =>
                have hclose : canCloseInlineMath value index = true := by
                  simpa only [asks, Option.isSome_some, Bool.true_and] using hasks
                obtain ⟨hemitted, hopener, hordered⟩ := hready
                obtain ⟨⟩ | ⟨hle, -, hrest⟩ := hordered
                simp only [Split.visitWith, if_pos hclose] at h h'
                cases answer with
                | true =>
                    obtain rfl : answer' = false := by
                      cases answer' with
                      | true => exact absurd rfl hanswer
                      | false => rfl
                    exact .inl (parted_of_answers hemitted hopener hle hrest h h')
                | false =>
                    obtain rfl : answer' = true := by
                      cases answer' with
                      | true => rfl
                      | false => exact absurd rfl hanswer
                    exact .inr (parted_of_answers hemitted hopener hle hrest h' h)

/-! ## One squeeze, one normal form -/

theorem dropWhile_append_cons {p : UInt16 → Bool} {c : UInt16} (hc : p c = false) (s t : Text) :
    (s ++ c :: t).dropWhile p = s.dropWhile p ++ c :: t := by
  induction s with
  | nil => rw [List.nil_append, List.dropWhile_nil, List.nil_append,
      List.dropWhile_cons_of_neg (by rw [hc]; exact Bool.false_ne_true)]
  | cons u s ih =>
      by_cases hu : p u = true
      · rw [List.cons_append, List.dropWhile_cons_of_pos hu, List.dropWhile_cons_of_pos hu, ih]
      · rw [List.cons_append, List.dropWhile_cons_of_neg hu, List.dropWhile_cons_of_neg hu]
        rfl

theorem collapse_at {c : UInt16} (hc : isConfusable c = false) (s t : Text) :
    collapseWhitespace (s ++ c :: t) = (squeeze s).dropWhile isSpace
      ++ c :: ((squeeze t).reverse.dropWhile isSpace).reverse := by
  have hspace := isSpace_of_not_confusable hc
  rw [collapseWhitespace, squeeze_at hc, trim, dropWhile_append_cons hspace, List.reverse_append,
    List.reverse_cons, List.append_assoc, List.singleton_append, dropWhile_append_cons hspace,
    List.reverse_append, List.reverse_cons, List.reverse_reverse, List.append_assoc]
  rfl

theorem Parted.collapse_ne {t s : Text} (h : Parted t s) :
    collapseWhitespace t ≠ collapseWhitespace s := by
  obtain ⟨front, ⟨rest, rfl⟩, ⟨rest', rfl⟩⟩ := h
  intro heq
  rw [List.append_assoc, List.append_assoc, List.singleton_append, List.singleton_append,
    collapse_at isConfusable_dollar, collapse_at isConfusable_start] at heq
  exact absurd (List.cons.inj (List.append_cancel_left heq)).1 (by decide)

theorem collapse_of_squeeze {t s : Text} (h : squeeze t = squeeze s) :
    collapseWhitespace t = collapseWhitespace s := by
  rw [← collapse_squeeze, h, collapse_squeeze]

theorem tokens_iff_answers (υ : Tables) {value value' : Text} (h : squeeze value = squeeze value') :
    collapseWhitespace (tokenizeInlineMath υ value)
        = collapseWhitespace (tokenizeInlineMath υ value')
      ↔ answersFrom υ value .start (inlineDollarPositions value)
        = answersFrom υ value' .start (inlineDollarPositions value') := by
  obtain ⟨last, hfollows, htokens⟩ := follows_squeeze υ value
  obtain ⟨last', hfollows', htokens'⟩ := follows_squeeze υ value'
  rw [← h] at hfollows' htokens'
  rw [collapse_of_squeeze htokens, collapse_of_squeeze htokens']
  constructor
  · intro heq
    by_contra hne
    have hready : Ready (squeeze value) .start (inlineDollarPositions (squeeze value)) :=
      ordered_from (squeeze value) false 0 (squeeze value)
    rcases hfollows.differ hfollows' hready hne with hparted | hparted
    · exact hparted.collapse_ne heq
    · exact hparted.collapse_ne heq.symm
  · intro heq
    rw [heq] at hfollows
    rw [hfollows.unique hfollows']

/-! ## Two spellings of a statement -/

/-- A final sigma and another, which lowercase depending on what follows. -/
def isSigma (u : UInt16) : Bool := u == 0x3c3 || u == 0x3c2

def SigmaAlike (u v : UInt16) : Prop := u = v ∨ (isSigma u = true ∧ isSigma v = true)

def IsGap (w : Text) : Prop := w ≠ [] ∧ ∀ u ∈ w, isConfusable u = true

/-- What Unicode says of white space. It starts and ends a normalization
segment and normalizes to white space; it is its own lowercase, and around it
only the form of a sigma can depend on it. -/
structure SpacingLaws (υ : Tables) : Prop where
  nfkc : ∀ a w b, IsGap w → ∃ v, IsGap v ∧ υ.nfkc (a ++ w ++ b) = υ.nfkc a ++ v ++ υ.nfkc b
  toLowerCase : ∀ a w w' b, IsGap w → IsGap w' → ∃ a₁ a₂ b₁ b₂,
    υ.toLowerCase (a ++ w ++ b) = a₁ ++ w ++ b₁ ∧ υ.toLowerCase (a ++ w' ++ b) = a₂ ++ w' ++ b₂
      ∧ List.Forall₂ SigmaAlike a₁ a₂ ∧ List.Forall₂ SigmaAlike b₁ b₂

theorem SigmaAlike.confusable {u v : UInt16} (h : SigmaAlike u v) :
    isConfusable u = isConfusable v := by
  have hclean : ∀ {u : UInt16}, isSigma u = true → isConfusable u = false := by
    intro u hu
    simp only [isSigma, Bool.or_eq_true, beq_iff_eq] at hu
    rcases hu with rfl | rfl <;> decide
  rcases h with rfl | ⟨hu, hv⟩
  · rfl
  · rw [hclean hu, hclean hv]

theorem squeeze_sigma {t s : Text} (h : List.Forall₂ SigmaAlike t s) :
    List.Forall₂ SigmaAlike (squeeze t) (squeeze s) := by
  induction h with
  | nil => exact .nil
  | @cons u v t s huv h ih =>
      have hnext : t.head?.any isConfusable = s.head?.any isConfusable := by
        cases h with
        | nil => rfl
        | cons huv _ => exact huv.confusable
      rw [squeeze, squeeze, Squeeze.squeeze, Squeeze.squeeze, huv.confusable, hnext]
      split
      · split
        · exact ih
        · exact .cons (.inl rfl) ih
      · exact .cons huv ih

theorem eq_of_sigma {t s : Text} (h : List.Forall₂ SigmaAlike t s)
    (hfilter : t.filter isSigma = s.filter isSigma) : t = s := by
  induction h with
  | nil => rfl
  | @cons u v t s huv h ih =>
      by_cases hu : isSigma u = true
      · have hv : isSigma v = true := by
          rcases huv with rfl | ⟨-, hv⟩
          · exact hu
          · exact hv
        rw [List.filter_cons_of_pos hu, List.filter_cons_of_pos hv] at hfilter
        obtain ⟨rfl, hrest⟩ := List.cons.inj hfilter
        rw [ih hrest]
      · obtain rfl : u = v := huv.resolve_right fun hboth => hu hboth.1
        rw [List.filter_cons_of_neg hu, List.filter_cons_of_neg hu] at hfilter
        rw [ih hfilter]

theorem isSigma_white {u : UInt16} (hu : isConfusable u = true) : isSigma u = false := by
  by_contra hsigma
  rw [Bool.not_eq_false] at hsigma
  simp only [isSigma, Bool.or_eq_true, beq_iff_eq] at hsigma
  rcases hsigma with rfl | rfl <;> exact absurd hu (by decide)

theorem Tidied.filter_sigma {t s : Text} (h : Tidied t s) :
    s.filter isSigma = t.filter isSigma := by
  induction h with
  | nil => rfl
  | keep u _ ih => simp only [List.filter_cons, ih]
  | blank hu _ ih =>
      rw [List.filter_cons_of_neg (by rw [isSigma_white isConfusable_space]; exact Bool.false_ne_true),
        List.filter_cons_of_neg (by rw [isSigma_white hu]; exact Bool.false_ne_true), ih]
  | drop hu _ ih => simp only [List.filter_cons, isSigma_white hu, ih, Bool.false_eq_true, if_false]

theorem filter_sigma_token (t : Text) :
    (mathTokenStart :: collapseWhitespace t ++ [mathTokenEnd]).filter isSigma
      = t.filter isSigma := by
  rw [List.cons_append, List.filter_cons_of_neg (by decide), List.filter_append,
    (Tidied.collapse t).filter_sigma, List.filter_cons_of_neg (by decide), List.filter_nil,
    List.append_nil]

theorem Atom.filter_sigma (a : Atom) : a.token.filter isSigma = a.raw.filter isSigma := by
  cases a with
  | unit u => rfl
  | span delimiters interior =>
      have hdelimiters : delimiters.opening.filter isSigma = []
          ∧ delimiters.closing.filter isSigma = [] := by
        cases delimiters <;> decide
      rw [token, filter_sigma_token, raw, List.filter_append, List.filter_append, hdelimiters.1,
        hdelimiters.2, List.nil_append, List.append_nil]

theorem Piece.filter_sigma (piece : Piece) :
    piece.token.filter isSigma = piece.raw.filter isSigma := by
  cases piece with
  | atom a => exact a.filter_sigma
  | inline interior =>
      rw [token, filter_sigma_token, raw, List.cons_append, List.filter_cons_of_neg (by decide),
        List.filter_append, List.filter_cons_of_neg (by decide), List.filter_nil, List.append_nil,
        List.filter_flatMap, List.filter_flatMap]
      congr 1
      funext a
      exact a.filter_sigma

theorem filter_sigma_escaped (t : Text) :
    (t.flatMap escapeUnit).filter isSigma = t.filter isSigma := by
  induction t with
  | nil => rfl
  | cons u t ih =>
      have hunit : (escapeUnit u).filter isSigma = [u].filter isSigma := by
        rcases escapeUnit_cases u with ⟨-, -, heq⟩ | ⟨rfl, -⟩ | ⟨hcontrol, hclean, heq⟩
        · rw [heq]
        · decide
        · have hdigit : ∀ n < 16, isSigma (unit (Nat.digitChar n)) = false := by decide
          have hlt : u.toNat < 160 := toNat_of_isRawControl hcontrol
          have hsigma : isSigma u = false := by
            by_contra hsigma
            rw [Bool.not_eq_false] at hsigma
            simp only [isSigma, Bool.or_eq_true, beq_iff_eq] at hsigma
            rcases hsigma with rfl | rfl <;> exact absurd hlt (by decide)
          have hconstant : isSigma canonicalEscape = false ∧ isSigma (unit 'c') = false
              ∧ isSigma (unit ';') = false := by decide
          simp only [heq, List.filter_cons, List.filter_nil, hsigma, hconstant,
            hdigit _ (show u.toNat / 16 < 16 by omega), hdigit _ (Nat.mod_lt u.toNat (by decide)),
            Bool.false_eq_true, if_false]
      rw [List.flatMap_cons, List.filter_append, hunit, ih, ← List.filter_append,
        List.singleton_append]

theorem filter_sigma_normal (υ : Tables) (statement : Text) :
    (normalizeClaimStatement υ statement).filter isSigma
      = (υ.toLowerCase (υ.nfkc statement)).filter isSigma := by
  obtain ⟨pieces, hraw, hnormal⟩ := exists_pieces υ statement
  calc (normalizeClaimStatement υ statement).filter isSigma
      = (pieces.flatMap Piece.token).filter isSigma := by
        rw [hnormal, (Tidied.collapse _).filter_sigma]
    _ = (pieces.flatMap Piece.raw).filter isSigma := by
        rw [List.filter_flatMap, List.filter_flatMap]
        congr 1
        funext piece
        exact piece.filter_sigma
    _ = (υ.toLowerCase (υ.nfkc statement)).filter isSigma := by
        rw [hraw, prepareCanonicalInput_eq, filter_sigma_escaped]

/-- Two texts that lowercase to the same units up to white space, and whose
dollars get the same answers. -/
def SpelledAlike (υ : Tables) (s t : Text) : Prop :=
  squeeze (υ.toLowerCase (υ.nfkc s)) = squeeze (υ.toLowerCase (υ.nfkc t))
    ∧ currencyAnswers υ s = currencyAnswers υ t

theorem normal_iff_answers (υ : Tables) {s t : Text}
    (h : squeeze (υ.toLowerCase (υ.nfkc s)) = squeeze (υ.toLowerCase (υ.nfkc t))) :
    normalizeClaimStatement υ s = normalizeClaimStatement υ t
      ↔ currencyAnswers υ s = currencyAnswers υ t := by
  have hprepared : squeeze (prepareCanonicalInput υ s) = squeeze (prepareCanonicalInput υ t) := by
    rw [prepareCanonicalInput_eq, prepareCanonicalInput_eq, squeeze_escaped, squeeze_escaped, h]
  have hexplicit : squeeze (replaceExplicit (prepareCanonicalInput υ s))
      = squeeze (replaceExplicit (prepareCanonicalInput υ t)) := by
    rw [← squeeze_replaceExplicit, hprepared, squeeze_replaceExplicit]
  exact tokens_iff_answers υ hexplicit

theorem SpacingLaws.sigma {υ : Tables} (laws : SpacingLaws υ) {w w' : Text} (hw : IsGap w)
    (hw' : IsGap w') (a b : Text) :
    List.Forall₂ SigmaAlike (squeeze (υ.toLowerCase (υ.nfkc (a ++ w ++ b))))
      (squeeze (υ.toLowerCase (υ.nfkc (a ++ w' ++ b)))) := by
  obtain ⟨v, hv, hnfkc⟩ := laws.nfkc a w b hw
  obtain ⟨v', hv', hnfkc'⟩ := laws.nfkc a w' b hw'
  obtain ⟨a₁, a₂, b₁, b₂, hlower, hlower', ha, hb⟩ :=
    laws.toLowerCase (υ.nfkc a) v v' (υ.nfkc b) hv hv'
  have hrespelled : squeeze (a₂ ++ v' ++ b₂) = squeeze (a₂ ++ v ++ b₂) :=
    Squeeze.squeeze_respell hv'.1 hv.1 hv'.2 hv.2 a₂ b₂
  have hgap : List.Forall₂ SigmaAlike v v := List.forall₂_same.mpr fun _ _ => .inl rfl
  rw [hnfkc, hnfkc', hlower, hlower', hrespelled]
  exact squeeze_sigma (List.rel_append (List.rel_append ha hgap) hb)

/-- A gap may be spelled otherwise if and only if no sigma changes its form
and the currency patterns answer alike. -/
theorem normalizeClaimStatement_respelled {υ : Tables} (laws : SpacingLaws υ) {w w' : Text}
    (hw : IsGap w) (hw' : IsGap w') (a b : Text) :
    normalizeClaimStatement υ (a ++ w ++ b) = normalizeClaimStatement υ (a ++ w' ++ b)
      ↔ SpelledAlike υ (a ++ w ++ b) (a ++ w' ++ b) := by
  constructor
  · intro heq
    have hsigma := congrArg (List.filter isSigma) heq
    rw [filter_sigma_normal, filter_sigma_normal,
      ← (Tidied.squeeze (υ.toLowerCase (υ.nfkc (a ++ w ++ b)))).filter_sigma,
      ← (Tidied.squeeze (υ.toLowerCase (υ.nfkc (a ++ w' ++ b)))).filter_sigma] at hsigma
    have hsame := eq_of_sigma (laws.sigma hw hw' a b) hsigma
    exact ⟨hsame, (normal_iff_answers υ hsame).mp heq⟩
  · rintro ⟨hsame, hanswers⟩
    exact (normal_iff_answers υ hsame).mpr hanswers

/-! ## On fixed texts -/

theorem fullwidth_white {u : UInt16} (hu : isConfusable u = true) :
    ¬ (0xff01 ≤ u ∧ u ≤ 0xff5e) ∧ Text.isUpper u = false := by
  simp only [isConfusable, Text.isWhiteSpace, Bool.or_eq_true, Bool.and_eq_true, decide_eq_true_eq,
    beq_iff_eq, UInt16.le_iff_toNat_le, ← UInt16.toNat_inj, UInt16.reduceToNat] at hu
  have hupper : Text.isUpper u = true ↔ 65 ≤ u.toNat ∧ u.toNat ≤ 90 := by
    rw [Text.isUpper, Bool.and_eq_true, decide_eq_true_eq, decide_eq_true_eq,
      UInt16.le_iff_toNat_le, UInt16.le_iff_toNat_le]
    rfl
  rw [UInt16.le_iff_toNat_le, UInt16.le_iff_toNat_le, Bool.eq_false_iff, ne_eq, hupper]
  simp only [UInt16.reduceToNat]
  omega

theorem fullwidth_laws : SpacingLaws fullwidth := by
  have hgap : ∀ f : UInt16 → UInt16, (∀ u, isConfusable u = true → f u = u) → ∀ w, IsGap w →
      w.map f = w := fun f hf w hw =>
    (List.map_congr_left fun u hu => hf u (hw.2 u hu)).trans (List.map_id w)
  have hsame : ∀ t : Text, List.Forall₂ SigmaAlike t t := fun t =>
    List.forall₂_same.mpr fun _ _ => .inl rfl
  constructor
  · intro a w b hw
    refine ⟨w, hw, ?_⟩
    simp only [fullwidth, List.map_append]
    rw [hgap _ (fun u hu => if_neg (fullwidth_white hu).1) w hw]
  · intro a w w' b hw hw'
    have hlower : ∀ w, IsGap w → w.map Text.foldAscii = w :=
      hgap _ fun u hu => by rw [Text.foldAscii, (fullwidth_white hu).2, if_neg Bool.false_ne_true]
    refine ⟨a.map Text.foldAscii, a.map Text.foldAscii, b.map Text.foldAscii,
      b.map Text.foldAscii, ?_, ?_, hsame _, hsame _⟩
    · simp only [fullwidth, List.map_append, hlower w hw]
    · simp only [fullwidth, List.map_append, hlower w' hw']

theorem normalizeClaimStatement_respelled_costs :
    normalizeClaimStatement fullwidth (text "Cost" ++ text " " ++ text "$5$")
      = normalizeClaimStatement fullwidth (text "Cost" ++ text "\t " ++ text "$5$") :=
  (normalizeClaimStatement_respelled fullwidth_laws ⟨by decide, by decide⟩ ⟨by decide, by decide⟩
    (text "Cost") (text "$5$")).mpr ⟨by decide, by decide⟩

/-- One space before a currency code is read as part of the amount, two are
not: the second spelling turns the amount into mathematics. -/
theorem currency_code_spacing :
    ¬ ∀ a w w' b, IsGap w → IsGap w' →
      normalizeClaimStatement fullwidth (a ++ w ++ b)
        = normalizeClaimStatement fullwidth (a ++ w' ++ b) := by
  intro h
  exact absurd (h (text "$5") (text " ") (text "  ") (text "usd.ab$c d$") ⟨by decide, by decide⟩
    ⟨by decide, by decide⟩) (by decide)

end Asimposium.Split
