import Mathlib.Data.List.DropRight
import Mathlib.Data.List.Infix

/-!
# Runs of separators become one blank

`squeeze` writes one blank for every maximal run of separators and keeps the
other elements. `Spread` is its graph, run by run: what reads a list from
left to right is compared on a list and its squeeze by induction over it.
-/

namespace Squeeze

variable {α : Type} (sep : α → Bool) (blank : α)

/-- The blank stands for a run at the run's last element. -/
def squeeze : List α → List α
  | [] => []
  | a :: l =>
      if sep a then if l.head?.any sep then squeeze l else blank :: squeeze l
      else a :: squeeze l

/-- A list and its squeeze: elements are kept, runs become a blank. -/
inductive Spread : List α → List α → Prop
  | nil : Spread [] []
  | element {a : α} {l m : List α} (ha : sep a = false) (h : Spread l m) :
      Spread (a :: l) (a :: m)
  | run {w l m : List α} (hne : w ≠ []) (hw : ∀ a ∈ w, sep a = true)
      (hl : ∀ a ∈ l.head?, sep a = false) (h : Spread l m) : Spread (w ++ l) (blank :: m)

/-- No run reaches from one list into the other. -/
def Apart (s t : List α) : Prop :=
  (∀ a ∈ s.getLast?, sep a = false) ∨ ∀ a ∈ t.head?, sep a = false

variable {sep blank}

@[simp] theorem squeeze_nil : squeeze sep blank [] = [] := rfl

variable {a : α}

theorem squeeze_element (ha : sep a = false) (l : List α) :
    squeeze sep blank (a :: l) = a :: squeeze sep blank l := by
  rw [squeeze, ha, if_neg Bool.false_ne_true]

variable {l : List α}

theorem any_head (h : ∀ a ∈ l.head?, sep a = false) : l.head?.any sep = false := by
  cases l with
  | nil => rfl
  | cons a l => exact h a rfl

theorem squeeze_run {w : List α} (hne : w ≠ []) (hw : ∀ a ∈ w, sep a = true)
    (hl : ∀ a ∈ l.head?, sep a = false) :
    squeeze sep blank (w ++ l) = blank :: squeeze sep blank l := by
  induction w with
  | nil => exact absurd rfl hne
  | cons a w ih =>
      rw [List.cons_append, squeeze, if_pos (hw a (List.mem_cons_self ..))]
      cases w with
      | nil => rw [List.nil_append, any_head hl, if_neg Bool.false_ne_true]
      | cons b w =>
          have hb : ((b :: w) ++ l).head?.any sep = true :=
            hw b (List.mem_cons_of_mem _ (List.mem_cons_self ..))
          rw [if_pos hb]
          exact ih (List.cons_ne_nil _ _) fun c hc => hw c (List.mem_cons_of_mem _ hc)

/-- A list starts with a run, up to an element that is no separator. -/
theorem exists_run (ha : sep a = true) (l : List α) :
    ∃ w rest, a :: l = w ++ rest ∧ w ≠ [] ∧ (∀ b ∈ w, sep b = true)
      ∧ (∀ b ∈ rest.head?, sep b = false) ∧ rest.length ≤ l.length := by
  refine ⟨a :: l.takeWhile sep, l.dropWhile sep, ?_, List.cons_ne_nil _ _, ?_, ?_, ?_⟩
  · rw [List.cons_append, List.takeWhile_append_dropWhile]
  · intro b hb
    rcases List.mem_cons.mp hb with rfl | hb
    · exact ha
    · exact List.mem_takeWhile_imp hb
  · intro b hb
    have hnot := List.head?_dropWhile_not sep l
    rw [Option.mem_def.mp hb] at hnot
    simpa using hnot
  · exact (List.dropWhile_suffix _).length_le

theorem spread_squeeze (l : List α) : Spread sep blank l (squeeze sep blank l) := by
  generalize hn : l.length = n
  induction n using Nat.strongRecOn generalizing l with
  | ind n ih =>
      cases l with
      | nil => exact .nil
      | cons a l =>
          cases ha : sep a with
          | false =>
              rw [squeeze_element ha]
              exact .element ha (ih l.length (by rw [← hn]; exact Nat.lt_succ_self _) l rfl)
          | true =>
              obtain ⟨w, rest, heq, hne, hw, hrest, hle⟩ := exists_run ha l
              rw [heq, squeeze_run hne hw hrest]
              have hlt : rest.length < n := by
                rw [← hn, List.length_cons]
                omega
              exact .run hne hw hrest (ih rest.length hlt rest rfl)

/-- A list is read run by run. -/
@[elab_as_elim]
theorem runs_induction (sep : α → Bool) {motive : List α → Prop} (nil : motive [])
    (element : ∀ a l, sep a = false → motive l → motive (a :: l))
    (run : ∀ w l, w ≠ [] → (∀ a ∈ w, sep a = true) → (∀ a ∈ l.head?, sep a = false) → motive l →
      motive (w ++ l)) (l : List α) : motive l := by
  have hspread : ∀ {l m : List α} {b : α}, Spread sep b l m → motive l := by
    intro l m b h
    induction h with
    | nil => exact nil
    | element ha _ ih => exact element _ _ ha ih
    | run hne hw hl _ ih => exact run _ _ hne hw hl ih
  cases l with
  | nil => exact nil
  | cons b l => exact hspread (b := b) (spread_squeeze (b :: l))

/-! ## Pieces of a list -/

theorem squeeze_append {s t : List α} (h : Apart sep s t) :
    squeeze sep blank (s ++ t) = squeeze sep blank s ++ squeeze sep blank t := by
  induction s with
  | nil => rfl
  | cons a s ih =>
      have htail : Apart sep s t := by
        rcases h with h | h
        · cases s with
          | nil => exact .inl fun b hb => nomatch hb
          | cons b s => exact .inl fun c hc => h c (by rwa [List.getLast?_cons_cons])
        · exact .inr h
      cases ha : sep a with
      | false => rw [List.cons_append, squeeze_element ha, squeeze_element ha, ih htail]; rfl
      | true =>
          have hnext : (s ++ t).head?.any sep = s.head?.any sep := by
            cases s with
            | nil =>
                rcases h with h | h
                · rw [h a rfl] at ha
                  cases ha
                · exact any_head h
            | cons b s => rfl
          rw [List.cons_append, squeeze, squeeze, ha, if_pos rfl, if_pos rfl, hnext, ih htail]
          split <;> rfl

/-- An element that is no separator parts a list. -/
theorem squeeze_append_element (ha : sep a = false) (s t : List α) :
    squeeze sep blank (s ++ a :: t) = squeeze sep blank s ++ a :: squeeze sep blank t := by
  have hapart : Apart sep s (a :: t) := .inr fun b hb => Option.some.inj hb ▸ ha
  rw [squeeze_append hapart, squeeze_element ha]

variable (blank) in
/-- A list that ends in a separator has a squeeze that ends in the blank. -/
theorem squeeze_snoc_separator (ha : sep a = true) (l : List α) :
    ∃ m, squeeze sep blank (l ++ [a]) = m ++ [blank] := by
  induction l with
  | nil =>
      refine ⟨[], ?_⟩
      rw [List.nil_append, squeeze, if_pos ha]
      rfl
  | cons b l ih =>
      obtain ⟨m, hm⟩ := ih
      rw [List.cons_append, squeeze]
      split
      · split
        · exact ⟨m, hm⟩
        · exact ⟨blank :: m, by rw [hm]; rfl⟩
      · exact ⟨b :: m, by rw [hm]; rfl⟩

/-- A run may be written in any other way. -/
theorem squeeze_respell {w w' : List α} (hne : w ≠ []) (hne' : w' ≠ [])
    (hw : ∀ a ∈ w, sep a = true) (hw' : ∀ a ∈ w', sep a = true) (s t : List α) :
    squeeze sep blank (s ++ w ++ t) = squeeze sep blank (s ++ w' ++ t) := by
  induction s with
  | nil =>
      cases ht : t.head?.any sep with
      | false =>
          have hhead : ∀ a ∈ t.head?, sep a = false := by
            intro a ha
            rw [Option.mem_def.mp ha] at ht
            exact ht
          rw [List.nil_append, List.nil_append, squeeze_run hne hw hhead,
            squeeze_run hne' hw' hhead]
      | true =>
          obtain ⟨a, l, rfl⟩ : ∃ a l, t = a :: l := by
            cases t with
            | nil => cases ht
            | cons a l => exact ⟨a, l, rfl⟩
          have ha : sep a = true := ht
          obtain ⟨v, rest, heq, -, hv, hrest, -⟩ := exists_run ha l
          have hjoin : ∀ {w : List α}, w ≠ [] → (∀ a ∈ w, sep a = true) →
              squeeze sep blank ([] ++ w ++ (v ++ rest)) = blank :: squeeze sep blank rest := by
            intro w hne hw
            rw [List.nil_append, ← List.append_assoc]
            exact squeeze_run (List.append_ne_nil_of_left_ne_nil hne _)
              (List.forall_mem_append.mpr ⟨hw, hv⟩) hrest
          rw [heq, hjoin hne hw, hjoin hne' hw']
  | cons a s ih =>
      have hnext : (s ++ w ++ t).head?.any sep = (s ++ w' ++ t).head?.any sep := by
        cases s with
        | nil =>
            obtain ⟨b, w, rfl⟩ := List.exists_cons_of_ne_nil hne
            obtain ⟨b', w', rfl⟩ := List.exists_cons_of_ne_nil hne'
            exact (hw b (List.mem_cons_self ..)).trans (hw' b' (List.mem_cons_self ..)).symm
        | cons b s => rfl
      rw [List.cons_append, List.cons_append, List.cons_append, List.cons_append, squeeze, squeeze,
        hnext, ih]

theorem mem_squeeze_element (ha : sep a = false) (hblank : sep blank = true) :
    a ∈ squeeze sep blank l ↔ a ∈ l := by
  have h : Spread sep blank l (squeeze sep blank l) := spread_squeeze l
  generalize squeeze sep blank l = m at h
  induction h with
  | nil => exact Iff.rfl
  | element _ _ ih => simp only [List.mem_cons, ih]
  | run _ hw _ _ ih =>
      simp only [List.mem_cons, List.mem_append, ih]
      constructor
      · rintro (rfl | h)
        · rw [ha] at hblank
          cases hblank
        · exact .inr h
      · rintro (h | h)
        · rw [hw a h] at ha
          cases ha
        · exact .inr h

/-- The squeeze starts with a separator where the list does. -/
theorem squeeze_head (hblank : sep blank = true) :
    (∀ a ∈ (squeeze sep blank l).head?, sep a = false) ↔ ∀ a ∈ l.head?, sep a = false := by
  have h : Spread sep blank l (squeeze sep blank l) := spread_squeeze l
  generalize squeeze sep blank l = m at h ⊢
  cases h with
  | nil => exact Iff.rfl
  | element _ _ => exact Iff.rfl
  | @run w l' _ hne hw _ _ =>
      obtain ⟨b, w, rfl⟩ := List.exists_cons_of_ne_nil hne
      constructor
      · intro h
        have hno := h blank rfl
        rw [hblank] at hno
        cases hno
      · intro h
        have hno : sep b = false := h b rfl
        rw [hw b (List.mem_cons_self ..)] at hno
        cases hno

theorem squeeze_squeeze (hblank : sep blank = true) (l : List α) :
    squeeze sep blank (squeeze sep blank l) = squeeze sep blank l := by
  have h : Spread sep blank l (squeeze sep blank l) := spread_squeeze l
  generalize squeeze sep blank l = m at h ⊢
  induction h with
  | nil => rfl
  | element ha _ ih => rw [squeeze_element ha, ih]
  | @run w l m hne hw hl h ih =>
      have hhead : ∀ a ∈ m.head?, sep a = false := by
        cases h with
        | nil => exact fun _ ha => nomatch ha
        | element ha _ => exact fun b hb => Option.some.inj hb ▸ ha
        | @run v _ _ hne' hv _ _ =>
            obtain ⟨b, v, rfl⟩ := List.exists_cons_of_ne_nil hne'
            have hno : sep b = false := hl b rfl
            rw [hv b (List.mem_cons_self ..)] at hno
            cases hno
      rw [← List.singleton_append, squeeze_run (List.cons_ne_nil _ _)
        (List.forall_mem_singleton.mpr hblank) hhead, ih, List.singleton_append]

end Squeeze
