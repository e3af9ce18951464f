import Mathlib.Data.List.Forall2

/-!
# Lists related element by element

Moving along `List.Forall₂`: an element has its partner, equal images make
equal lists, counts compare, and partners that exist one by one make a list.
-/

namespace Related

variable {α β γ : Type*} {R : α → β → Prop} {l : List α} {l' : List β}

theorem getElem? (h : List.Forall₂ R l l') (i : Nat) : Option.Rel R l[i]? l'[i]? := by
  induction h generalizing i with
  | nil => exact .none
  | cons hhead _ ih =>
      cases i with
      | zero => exact .some hhead
      | succ i => exact ih i

theorem mem_left (h : List.Forall₂ R l l') {a : α} (ha : a ∈ l) : ∃ b ∈ l', R a b := by
  induction h with
  | nil => cases ha
  | cons hhead _ ih =>
      rcases List.mem_cons.mp ha with rfl | hrest
      · exact ⟨_, List.mem_cons_self .., hhead⟩
      · obtain ⟨b, hb, hrelated⟩ := ih hrest
        exact ⟨b, List.mem_cons_of_mem _ hb, hrelated⟩

theorem mem_right (h : List.Forall₂ R l l') {b : β} (hb : b ∈ l') : ∃ a ∈ l, R a b :=
  @mem_left _ _ (fun b a => R a b) _ _ h.flip b hb

theorem map_eq (h : List.Forall₂ R l l') {f : α → γ} {g : β → γ}
    (hfg : ∀ a b, R a b → f a = g b) : l.map f = l'.map g := by
  induction h with
  | nil => rfl
  | cons hab _ ih => rw [List.map_cons, List.map_cons, hfg _ _ hab, ih]

theorem countP_le (h : List.Forall₂ R l l') {p : α → Bool} {q : β → Bool}
    (hpq : ∀ a b, R a b → p a = true → q b = true) : l.countP p ≤ l'.countP q := by
  induction h with
  | nil => exact Nat.le_refl 0
  | @cons a b _ _ hab _ ih =>
      rw [List.countP_cons, List.countP_cons]
      by_cases hp : p a = true
      · rw [if_pos hp, if_pos (hpq a b hab hp)]
        exact Nat.add_le_add_right ih 1
      · rw [if_neg hp]
        exact Nat.le_trans ih (Nat.le_add_right _ _)

theorem countP_eq (h : List.Forall₂ R l l') {p : α → Bool} {q : β → Bool}
    (hpq : ∀ a b, R a b → p a = q b) : l.countP p = l'.countP q :=
  Nat.le_antisymm (countP_le h fun a b hab hp => hpq a b hab ▸ hp)
    (countP_le h.flip fun b a hab hq => (hpq a b hab).trans hq)

theorem filterMap {R : β → γ → Prop} {f : α → Option β} {g : α → Option γ} {l : List α}
    (h : ∀ a ∈ l, Option.Rel R (f a) (g a)) : List.Forall₂ R (l.filterMap f) (l.filterMap g) := by
  induction l with
  | nil => exact .nil
  | cons a l ih =>
      have hrest := ih fun b hb => h b (List.mem_cons_of_mem a hb)
      have ha := h a List.mem_cons_self
      rw [List.filterMap_cons, List.filterMap_cons]
      generalize f a = x at ha ⊢
      generalize g a = y at ha ⊢
      cases ha with
      | none => exact hrest
      | some hxy => exact .cons hxy hrest

/-- A partner for each is a list of partners. -/
theorem exists_right (h : ∀ a ∈ l, ∃ b, R a b) : ∃ l', List.Forall₂ R l l' := by
  induction l with
  | nil => exact ⟨[], .nil⟩
  | cons a l ih =>
      obtain ⟨b, hab⟩ := h a (List.mem_cons_self ..)
      obtain ⟨l', hrest⟩ := ih fun a ha => h a (List.mem_cons_of_mem _ ha)
      exact ⟨b :: l', .cons hab hrest⟩

/-- Something between each pair is a list between. -/
theorem exists_between {S : α → γ → Prop} {T : γ → β → Prop} (h : List.Forall₂ R l l')
    (hbetween : ∀ a ∈ l, ∀ b ∈ l', R a b → ∃ c, S a c ∧ T c b) :
    ∃ m, List.Forall₂ S l m ∧ List.Forall₂ T m l' := by
  induction h with
  | nil => exact ⟨[], .nil, .nil⟩
  | @cons a b _ _ hab _ ih =>
      obtain ⟨c, hac, hcb⟩ := hbetween a (List.mem_cons_self ..) b (List.mem_cons_self ..) hab
      obtain ⟨m, hleft, hright⟩ := ih fun a ha b hb =>
        hbetween a (List.mem_cons_of_mem _ ha) b (List.mem_cons_of_mem _ hb)
      exact ⟨c :: m, .cons hac hleft, .cons hcb hright⟩

/-- A fallible map of a list. -/
theorem mapM_some {f : α → Option β} :
    l.mapM f = some l' ↔ List.Forall₂ (fun a b => f a = some b) l l' := by
  induction l generalizing l' with
  | nil =>
      rw [List.mapM_nil, List.forall₂_nil_left_iff]
      exact ⟨fun h => (Option.some.inj h).symm, fun h => congrArg some h.symm⟩
  | cons a l ih =>
      rw [List.mapM_cons, List.forall₂_cons_left_iff]
      simp only [Option.pure_def, Option.bind_eq_bind, Option.bind_eq_some_iff, Option.some.injEq]
      constructor
      · rintro ⟨b, hb, bs, hbs, rfl⟩
        exact ⟨b, bs, hb, ih.mp hbs, rfl⟩
      · rintro ⟨b, bs, hb, hbs, rfl⟩
        exact ⟨b, hb, bs, ih.mpr hbs, rfl⟩

end Related
