import Mathlib

/-!
# Reading in pages

A reader answers a cursor with a page and, unless the page is the last,
with the cursor of the next one. A walk follows the cursors. If every page
takes its items off the front of what is left at its cursor, then a walk
takes them off in order, and one that has ended has taken them all.
-/

namespace Paging

variable {κ α β : Type*} {page : κ → List α → Option κ → Prop}

/-- The pages read from a cursor on, and the cursor that is still open. -/
inductive Walk (page : κ → List α → Option κ → Prop) : κ → List (List α) → Option κ → Prop
  | last {c : κ} {items : List α} {next : Option κ} (hpage : page c items next) :
      Walk page c [items] next
  | more {c c' : κ} {items : List α} {pages : List (List α)} {next : Option κ}
      (hpage : page c items (some c')) (hrest : Walk page c' pages next) :
      Walk page c (items :: pages) next

/-- What is left once a page has been read: nothing without a cursor. -/
def Remains (Left : κ → List β → Prop) (rest : List β) : Option κ → Prop
  | none => rest = []
  | some c => Left c rest

namespace Walk

/-- A walk takes what it reads off the front of what was left. -/
theorem covers {Left : κ → List β → Prop} {f : α → β}
    (hstep : ∀ c items next left, page c items next → Left c left →
      ∃ rest, left = items.map f ++ rest ∧ Remains Left rest next)
    {c : κ} {pages : List (List α)} {next : Option κ} {left : List β}
    (hwalk : Walk page c pages next) (hleft : Left c left) :
    ∃ rest, left = pages.flatten.map f ++ rest ∧ Remains Left rest next := by
  induction hwalk generalizing left with
  | last hpage =>
      rw [List.flatten_singleton]
      exact hstep _ _ _ _ hpage hleft
  | more hpage _ ih =>
      obtain ⟨rest, hitems, hrest⟩ := hstep _ _ _ _ hpage hleft
      obtain ⟨rest', hpages, hrest'⟩ := ih hrest
      refine ⟨rest', ?_, hrest'⟩
      rw [hitems, hpages, List.flatten_cons, List.map_append, List.append_assoc]

/-- Where every cursor has a page and the next cursor is nearer to the end,
the walk ends. -/
theorem ends {P : κ → Prop} {size : κ → Nat}
    (hstep : ∀ c, P c → ∃ items next, page c items next ∧ ∀ c' ∈ next, P c' ∧ size c' < size c)
    {c : κ} (h : P c) : ∃ pages, Walk page c pages none := by
  induction hsize : size c using Nat.strongRecOn generalizing c with
  | ind n ih =>
      obtain ⟨items, next, hpage, hnext⟩ := hstep c h
      cases next with
      | none => exact ⟨[items], .last hpage⟩
      | some c' =>
          obtain ⟨hc', hlt⟩ := hnext c' rfl
          obtain ⟨pages, hrest⟩ := ih (size c') (hsize ▸ hlt) hc' rfl
          exact ⟨items :: pages, .more hpage hrest⟩

/-- Where only the last page may be empty, there are no more pages than
items, and one. -/
theorem length_le (hstep : ∀ c items c', page c items (some c') → items ≠ []) {c : κ}
    {pages : List (List α)} {next : Option κ} (hwalk : Walk page c pages next) :
    pages.length ≤ pages.flatten.length + 1 := by
  induction hwalk with
  | last hpage => simp
  | more hpage hrest ih =>
      have hpos := List.length_pos_iff.mpr (hstep _ _ _ hpage)
      rw [List.length_cons, List.flatten_cons, List.length_append]
      omega

end Walk

/-! ## Pages after a key -/

/-- Of a list that ascends by a key, what lies after the last of a page is
what the page left over. -/
theorem filter_after_last {ι : Type*} [LinearOrder ι] {key : α → ι} {l front rest : List α}
    {final : α} {after : ι} (hsorted : l.Pairwise fun a b => key a < key b)
    (hsplit : (l.filter fun a => decide (after < key a)) = front ++ rest)
    (hlast : front.getLast? = some final) :
    (l.filter fun a => decide (key final < key a)) = rest := by
  obtain ⟨init, rfl⟩ := List.getLast?_eq_some_iff.mp hlast
  have hafter : after < key final := by
    have hmem : final ∈ l.filter fun a => decide (after < key a) := by rw [hsplit]; simp
    exact of_decide_eq_true (List.mem_filter.mp hmem).2
  have htwice : (l.filter fun a => decide (key final < key a))
      = (init ++ [final] ++ rest).filter fun a => decide (key final < key a) := by
    rw [← hsplit, List.filter_filter]
    refine List.filter_congr fun a _ => ?_
    rw [Bool.eq_iff_iff, Bool.and_eq_true, decide_eq_true_eq, decide_eq_true_eq]
    exact ⟨fun h => ⟨h, lt_trans hafter h⟩, And.left⟩
  have hordered : (init ++ [final] ++ rest).Pairwise fun a b => key a < key b := by
    rw [← hsplit]
    exact hsorted.filter _
  rw [List.append_assoc, List.singleton_append, List.pairwise_append,
    List.pairwise_cons] at hordered
  rw [htwice, List.append_assoc, List.singleton_append, List.filter_append,
    List.filter_cons_of_neg (by simp)]
  have hbefore : (init.filter fun a => decide (key final < key a)) = [] := by
    rw [List.filter_eq_nil_iff]
    intro a ha
    have hlt := hordered.2.2 a ha final (List.mem_cons_self ..)
    rw [decide_eq_true_eq]
    exact not_lt_of_gt hlt
  rw [hbefore, List.nil_append, List.filter_eq_self]
  intro a ha
  exact decide_eq_true (hordered.2.1.1 a ha)

end Paging
