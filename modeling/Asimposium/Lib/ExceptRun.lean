import Mathlib.Data.List.Forall2

/-!
# Runs of a fallible step function

A step `σ → α → Except ε σ` run over a list with `List.foldlM`. The
rules here are the ones a development over such runs keeps using:
inversion at a cons and at an append, the invariant rule, and two
simulation rules (lockstep, and lockstep with skipped inputs).
-/

namespace ExceptRun

section Sequencing

variable {ε : Type*} {α β : Type}

variable {x : Except ε α} {f : α → Except ε β} {b : β}

theorem bind_ok : (x >>= f) = .ok b ↔ ∃ a, x = .ok a ∧ f a = .ok b := by
  cases x with
  | error e => simp [bind, Except.bind]
  | ok a => simp [bind, Except.bind]

/-- After a check. -/
theorem bind_unit_ok {x : Except ε Unit} {f : Unit → Except ε β} :
    (x >>= f) = .ok b ↔ x = .ok () ∧ f () = .ok b := by
  rw [bind_ok]
  exact ⟨fun ⟨_, hx, hf⟩ => ⟨hx, hf⟩, fun ⟨hx, hf⟩ => ⟨(), hx, hf⟩⟩

theorem bind_error {e : ε} :
    (x >>= f) = .error e ↔ x = .error e ∨ ∃ a, x = .ok a ∧ f a = .error e := by
  cases x with
  | error e' => simp [bind, Except.bind]
  | ok a => simp [bind, Except.bind]

theorem map_ok {f : α → β} : x.map f = .ok b ↔ ∃ a, x = .ok a ∧ f a = b := by
  cases x with
  | error e => simp [Except.map]
  | ok a => simp [Except.map]

theorem map_error {f : α → β} {e : ε} : x.map f = .error e ↔ x = .error e := by
  cases x with
  | error e' => simp [Except.map]
  | ok a => simp [Except.map]

theorem mapError_ok {ε' : Type*} {f : ε → ε'} {a : α} : x.mapError f = .ok a ↔ x = .ok a := by
  cases x with
  | error e => simp [Except.mapError]
  | ok a' => simp [Except.mapError]

variable {as : List α}

/-- A check of every element passes when each passes. -/
theorem forM_ok {check : α → Except ε Unit} :
    as.forM check = .ok () ↔ ∀ a ∈ as, check a = .ok () := by
  induction as with
  | nil => simp [pure, Except.pure]
  | cons a as ih =>
      change (check a >>= fun _ => as.forM check) = .ok () ↔ _
      rw [bind_ok, List.forall_mem_cons, ih]
      constructor
      · rintro ⟨_, h, hrest⟩
        exact ⟨h, hrest⟩
      · rintro ⟨h, hrest⟩
        exact ⟨(), h, hrest⟩

/-- A failure of a check of every element is that of some element. -/
theorem forM_error {check : α → Except ε Unit} {e : ε} (h : as.forM check = .error e) :
    ∃ a ∈ as, check a = .error e := by
  induction as with
  | nil => cases h
  | cons a as ih =>
      change (check a >>= fun _ => as.forM check) = .error e at h
      rcases bind_error.mp h with h | ⟨_, _, h⟩
      · exact ⟨a, List.mem_cons_self .., h⟩
      · obtain ⟨b, hb, hcheck⟩ := ih h
        exact ⟨b, List.mem_cons_of_mem _ hb, hcheck⟩

/-- A fallible map succeeds element by element. -/
theorem mapM_ok {bs : List β} :
    as.mapM f = .ok bs ↔ List.Forall₂ (fun a b => f a = .ok b) as bs := by
  induction as generalizing bs with
  | nil => cases bs <;> simp [pure, Except.pure]
  | cons a as ih =>
      rw [List.mapM_cons]
      constructor
      · intro h
        obtain ⟨b, hb, h⟩ := bind_ok.mp h
        obtain ⟨rest, hrest, h⟩ := bind_ok.mp h
        cases h
        exact .cons hb (ih.mp hrest)
      · intro h
        cases h with
        | cons hb hrest => exact bind_ok.mpr ⟨_, hb, bind_ok.mpr ⟨_, ih.mpr hrest, rfl⟩⟩

/-- What a map of partial results has made was made of an element. -/
theorem mem_of_mapM {f : α → Option β} {bs : List β} (h : as.mapM f = some bs) (hb : b ∈ bs) :
    ∃ a ∈ as, f a = some b := by
  induction as generalizing bs with
  | nil =>
      obtain rfl := Option.some.inj h
      cases hb
  | cons a as ih =>
      simp only [List.mapM_cons, Option.pure_def, Option.bind_eq_bind, Option.bind_eq_some_iff] at h
      obtain ⟨b', hb', bs', hbs', hcons⟩ := h
      obtain rfl := Option.some.inj hcons
      rcases List.mem_cons.mp hb with rfl | hb
      · exact ⟨a, List.mem_cons_self .., hb'⟩
      · obtain ⟨a', ha', hf⟩ := ih hbs' hb
        exact ⟨a', List.mem_cons_of_mem _ ha', hf⟩

end Sequencing

variable {σ τ ε α : Type*} {step : σ → α → Except ε σ}

/-! ## Inversion -/

variable {s t : σ}

theorem run_nil_ok : List.foldlM step s [] = .ok t ↔ s = t := by
  simp [pure, Except.pure]

theorem run_cons (s : σ) (a : α) (as : List α) :
    List.foldlM step s (a :: as) = (step s a >>= fun m => List.foldlM step m as) := rfl

variable {as : List α}

theorem run_cons_ok {a : α} :
    List.foldlM step s (a :: as) = .ok t ↔
      ∃ m, step s a = .ok m ∧ List.foldlM step m as = .ok t := by
  rw [run_cons]
  cases h : step s a with
  | error e => simp [bind, Except.bind]
  | ok m => simp [bind, Except.bind]

theorem run_append_ok {bs : List α} :
    List.foldlM step s (as ++ bs) = .ok t ↔
      ∃ m, List.foldlM step s as = .ok m ∧ List.foldlM step m bs = .ok t := by
  induction as generalizing s with
  | nil => simp [run_nil_ok, -List.foldlM_nil]
  | cons a as ih =>
      simp only [List.cons_append, run_cons_ok, ih]
      constructor
      · rintro ⟨m, hm, n, hn, ht⟩
        exact ⟨n, ⟨m, hm, hn⟩, ht⟩
      · rintro ⟨n, ⟨m, hm, hn⟩, ht⟩
        exact ⟨m, hm, n, hn, ht⟩

/-! ## The invariant rule -/

/-- What every step over an input of the list preserves, the run
preserves. -/
theorem run_invariant {I : σ → Prop} (hstep : ∀ s a t, a ∈ as → I s → step s a = .ok t → I t)
    (hs : I s) (h : List.foldlM step s as = .ok t) : I t := by
  induction as generalizing s with
  | nil => cases h; exact hs
  | cons a as ih =>
      obtain ⟨m, hm, ht⟩ := run_cons_ok.mp h
      exact ih (fun s' a' t' ha' => hstep s' a' t' (List.mem_cons_of_mem _ ha'))
        (hstep s a m (List.mem_cons_self ..) hs hm) ht

/-- The rule for an invariant that also speaks of the inputs to come. -/
theorem run_invariant_rest {I : List α → σ → Prop}
    (hstep : ∀ a rest s t, I (a :: rest) s → step s a = .ok t → I rest t) (hs : I as s)
    (h : List.foldlM step s as = .ok t) : I [] t := by
  induction as generalizing s with
  | nil => cases h; exact hs
  | cons a as ih =>
      obtain ⟨m, hm, ht⟩ := run_cons_ok.mp h
      exact ih (hstep a as s m hs hm) ht

/-! ## Simulation -/

/-- Two runs over one list stay related when each step keeps the
relation. -/
theorem run_simulation {step' : τ → α → Except ε τ} {R : σ → τ → Prop}
    (hstep : ∀ s s' a t, R s s' → step s a = .ok t → ∃ t', step' s' a = .ok t' ∧ R t t') {s' : τ}
    (hs : R s s') (h : List.foldlM step s as = .ok t) :
    ∃ t', List.foldlM step' s' as = .ok t' ∧ R t t' := by
  induction as generalizing s s' with
  | nil => cases h; exact ⟨s', rfl, hs⟩
  | cons a as ih =>
      obtain ⟨m, hm, ht⟩ := run_cons_ok.mp h
      obtain ⟨m', hm', hR⟩ := hstep s s' a m hs hm
      obtain ⟨t', ht', hRt⟩ := ih hR ht
      exact ⟨t', run_cons_ok.mpr ⟨m', hm', ht'⟩, hRt⟩

end ExceptRun
