import Mathlib.Data.List.Induction

/-!
# Labelled runs

The runs of a labelled step relation, with the labels in order. Runs are taken
apart at an append of labels, and there are two induction rules: an invariant
that the steps keep, and a property of the labels so far and the state they
lead to.
-/

/-- A run from one state to another, with its labels. -/
inductive Trace {S L : Type*} (Step : S → L → S → Prop) : S → List L → S → Prop
  | nil (s : S) : Trace Step s [] s
  | cons {s s' s'' : S} {l : L} {ls : List L} (hstep : Step s l s') (hrest : Trace Step s' ls s'') :
      Trace Step s (l :: ls) s''

namespace Trace

variable {S L : Type*} {Step : S → L → S → Prop}

variable {s : S} {ls : List L}

theorem cons_iff {s'' : S} {l : L} :
    Trace Step s (l :: ls) s'' ↔ ∃ s', Step s l s' ∧ Trace Step s' ls s'' := by
  constructor
  · intro h
    cases h with
    | cons hstep hrest => exact ⟨_, hstep, hrest⟩
  · rintro ⟨s', hstep, hrest⟩
    exact .cons hstep hrest

theorem append_iff {s'' : S} {ls' : List L} :
    Trace Step s (ls ++ ls') s'' ↔ ∃ s', Trace Step s ls s' ∧ Trace Step s' ls' s'' := by
  induction ls generalizing s with
  | nil =>
      constructor
      · intro h
        exact ⟨s, .nil s, h⟩
      · rintro ⟨s', hnil, h⟩
        cases hnil
        exact h
  | cons l ls ih =>
      rw [List.cons_append, cons_iff]
      constructor
      · rintro ⟨s₁, hstep, hrest⟩
        obtain ⟨s', hfirst, hsecond⟩ := ih.mp hrest
        exact ⟨s', .cons hstep hfirst, hsecond⟩
      · rintro ⟨s', hfirst, hsecond⟩
        obtain ⟨s₁, hstep, hfirst⟩ := cons_iff.mp hfirst
        exact ⟨s₁, hstep, ih.mpr ⟨s', hfirst, hsecond⟩⟩

/-- The last step of a run. -/
theorem snoc_iff {s'' : S} {l : L} :
    Trace Step s (ls ++ [l]) s'' ↔ ∃ s', Trace Step s ls s' ∧ Step s' l s'' := by
  rw [append_iff]
  constructor
  · rintro ⟨s', hfirst, hlast⟩
    obtain ⟨s₁, hstep, hnil⟩ := cons_iff.mp hlast
    cases hnil
    exact ⟨s', hfirst, hstep⟩
  · rintro ⟨s', hfirst, hstep⟩
    exact ⟨s', hfirst, .cons hstep (.nil _)⟩

/-- What the steps keep holds at the end of a run. -/
theorem invariant {Inv : S → Prop} (hstep : ∀ s l s', Inv s → Step s l s' → Inv s') {s' : S}
    (hrun : Trace Step s ls s') (h : Inv s) : Inv s' := by
  induction hrun with
  | nil s => exact h
  | cons hfirst _ ih => exact ih (hstep _ _ _ h hfirst)

/-- What holds at the start and after one more step holds of every run. -/
theorem history {P : List L → S → Prop} (hstart : P [] s)
    (hstep : ∀ ls s' l s'', Trace Step s ls s' → P ls s' → Step s' l s'' → P (ls ++ [l]) s'')
    {s' : S} (hrun : Trace Step s ls s') : P ls s' := by
  induction ls using List.reverseRecOn generalizing s' with
  | nil =>
      cases hrun
      exact hstart
  | append_singleton ls l ih =>
      obtain ⟨s₁, hfirst, hlast⟩ := snoc_iff.mp hrun
      exact hstep ls s₁ l s' hfirst (ih hfirst) hlast

end Trace
