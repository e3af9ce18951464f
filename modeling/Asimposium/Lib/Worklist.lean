import Mathlib.Data.Finset.Card
import Mathlib.Data.List.Induction

/-!
# Closing a list under successors with a worklist

The loop pops the first pending element and pushes each successor that
was not seen before, onto the worklist and onto the list of seen
elements alike. With enough fuel for a finite universe the seen elements
are exactly those reached from the seeds, whatever the order of the
seeds and of the successors.
-/

namespace Worklist

variable {α : Type*} [DecidableEq α]

/-! ## The loop -/

/-- Push one successor: `(pending, seen)`. -/
def push (state : List α × List α) (x : α) : List α × List α :=
  if x ∈ state.2 then state else (state.1 ++ [x], state.2 ++ [x])

def drain (next : α → List α) : Nat → List α → List α → List α
  | 0, _, seen => seen
  | _ + 1, [], seen => seen
  | fuel + 1, x :: pending, seen =>
      let state := (next x).foldl push (pending, seen)
      drain next fuel state.1 state.2

def closure (next : α → List α) (fuel : Nat) (seeds : List α) : List α :=
  drain next fuel seeds seeds

/-- Reached from the seeds. -/
inductive Reached (next : α → List α) (seeds : List α) : α → Prop
  | seed {x : α} (h : x ∈ seeds) : Reached next seeds x
  | step {x y : α} (hx : Reached next seeds x) (h : y ∈ next x) : Reached next seeds y

/-! ## One round of pushes -/

section Push

variable {state : List α × List α} {x y : α} {xs : List α}

theorem mem_push_seen : y ∈ (push state x).2 ↔ y ∈ state.2 ∨ y = x := by
  unfold push
  split
  · rename_i hmem
    constructor
    · exact Or.inl
    · rintro (hy | rfl)
      · exact hy
      · exact hmem
  · simp

theorem mem_pushes_seen : y ∈ (xs.foldl push state).2 ↔ y ∈ state.2 ∨ y ∈ xs := by
  induction xs generalizing state with
  | nil => simp
  | cons x xs ih => rw [List.foldl_cons, ih, mem_push_seen, List.mem_cons, or_assoc]

theorem mem_push_pending (h : y ∈ (push state x).2) :
    y ∈ (push state x).1 ∨ y ∈ state.2 := by
  unfold push at h ⊢
  split
  · rename_i hmem
    rw [if_pos hmem] at h
    exact .inr h
  · rename_i hmem
    rw [if_neg hmem] at h
    simp only [List.mem_append, List.mem_singleton] at h ⊢
    tauto

theorem subset_push_pending : state.1 ⊆ (push state x).1 := by
  unfold push
  split
  · exact List.Subset.refl _
  · exact List.subset_append_left _ _

theorem subset_pushes_pending : state.1 ⊆ (xs.foldl push state).1 :=
  List.foldlRecOn (motive := fun after => state.1 ⊆ after.1) xs push (List.Subset.refl _)
    fun _ h _ _ => List.Subset.trans h subset_push_pending

theorem push_pending_subset (h : state.1 ⊆ state.2) : (push state x).1 ⊆ (push state x).2 := by
  unfold push
  split
  · exact h
  · exact List.append_subset.mpr
      ⟨fun _ hy => List.mem_append_left _ (h hy), List.subset_append_right _ _⟩

theorem pushes_pending_subset (h : state.1 ⊆ state.2) :
    (xs.foldl push state).1 ⊆ (xs.foldl push state).2 :=
  List.foldlRecOn (motive := fun state => state.1 ⊆ state.2) xs push h
    fun _ h _ _ => push_pending_subset h

theorem push_pending_of {P : α → Prop} (hx : P x) (h : ∀ y ∈ state.1, P y) :
    ∀ y ∈ (push state x).1, P y := by
  unfold push
  split
  · exact h
  · intro y hy
    rcases List.mem_append.mp hy with hy | hy
    · exact h y hy
    · rw [List.mem_singleton.mp hy]
      exact hx

theorem pushes_pending_of {P : α → Prop} (hxs : ∀ x ∈ xs, P x) (h : ∀ y ∈ state.1, P y) :
    ∀ y ∈ (xs.foldl push state).1, P y :=
  List.foldlRecOn (motive := fun state => ∀ y ∈ state.1, P y) xs push h
    fun _ h x hx => push_pending_of (hxs x hx) h

/-- What was pushed is pending. -/
theorem mem_pushes_pending (h : y ∈ (xs.foldl push state).2) :
    y ∈ (xs.foldl push state).1 ∨ y ∈ state.2 := by
  induction xs generalizing state with
  | nil => exact .inr h
  | cons x xs ih =>
      rcases ih h with hpending | hseen
      · exact .inl hpending
      · rcases mem_push_pending hseen with hpushed | hbefore
        · exact .inl (@subset_pushes_pending _ _ (push state x) _ _ hpushed)
        · exact .inr hbefore

/-- A push trades an unseen element for a pending one. -/
theorem push_measure {carrier : Finset α} (h : x ∈ carrier) :
    (push state x).1.length + (carrier \ (push state x).2.toFinset).card
      ≤ state.1.length + (carrier \ state.2.toFinset).card := by
  unfold push
  split
  · exact le_rfl
  · rename_i hmem
    have hx : x ∈ carrier \ state.2.toFinset := by simp [h, hmem]
    have hsubset : carrier \ (state.2 ++ [x]).toFinset
        ⊆ (carrier \ state.2.toFinset).erase x := by
      intro z hz
      simp only [List.toFinset_append, Finset.mem_sdiff, Finset.mem_union, List.mem_toFinset,
        List.mem_singleton, Finset.mem_erase] at hz ⊢
      tauto
    have hcard := Finset.card_le_card hsubset
    rw [Finset.card_erase_of_mem hx] at hcard
    have hpos := Finset.card_pos.mpr ⟨x, hx⟩
    dsimp only
    rw [List.length_append, List.length_singleton]
    omega

theorem pushes_measure {carrier : Finset α} (h : ∀ x ∈ xs, x ∈ carrier) :
    (xs.foldl push state).1.length + (carrier \ (xs.foldl push state).2.toFinset).card
      ≤ state.1.length + (carrier \ state.2.toFinset).card := by
  induction xs generalizing state with
  | nil => exact le_rfl
  | cons x xs ih =>
      exact (ih fun y hy => h y (List.mem_cons_of_mem _ hy)).trans
        (push_measure (h x (List.mem_cons_self ..)))

end Push

/-! ## The whole loop -/

section Drain

variable {next : α → List α}

variable {fuel : Nat} {pending seen : List α}

theorem subset_drain : seen ⊆ drain next fuel pending seen := by
  induction fuel generalizing pending seen with
  | zero => exact List.Subset.refl _
  | succ fuel ih =>
      cases pending with
      | nil => exact List.Subset.refl _
      | cons x pending =>
          intro y hy
          exact ih (mem_pushes_seen.mpr (.inl hy))

/-- A property of the seen and of the successors of what has it holds of
the result. -/
theorem drain_sound {P : α → Prop} (hstep : ∀ x, P x → ∀ y ∈ next x, P y)
    (hpending : pending ⊆ seen) (hseen : ∀ x ∈ seen, P x) :
    ∀ x ∈ drain next fuel pending seen, P x := by
  induction fuel generalizing pending seen with
  | zero => exact hseen
  | succ fuel ih =>
      cases pending with
      | nil => exact hseen
      | cons x pending =>
          refine ih (pushes_pending_subset fun y hy => hpending (List.mem_cons_of_mem _ hy)) ?_
          · intro y hy
            rcases mem_pushes_seen.mp hy with hbefore | hnext
            · exact hseen y hbefore
            · exact hstep x (hseen x (hpending (List.mem_cons_self ..))) y hnext

/-- With enough fuel the worklist is emptied, and the result is closed. -/
theorem drain_closed {carrier : Finset α} (hnext : ∀ x ∈ carrier, ∀ y ∈ next x, y ∈ carrier)
    (hpending : ∀ x ∈ pending, x ∈ carrier)
    (hfuel : pending.length + (carrier \ seen.toFinset).card ≤ fuel)
    (hseen : ∀ x ∈ seen, x ∈ pending ∨ ∀ y ∈ next x, y ∈ seen) :
    ∀ x ∈ drain next fuel pending seen, ∀ y ∈ next x, y ∈ drain next fuel pending seen := by
  induction fuel generalizing pending seen with
  | zero =>
      have hnil : pending = [] := List.length_eq_zero_iff.mp (by omega)
      subst hnil
      intro x hx
      rcases hseen x hx with hmem | hclosed
      · exact (List.not_mem_nil hmem).elim
      · exact hclosed
  | succ fuel ih =>
      cases pending with
      | nil =>
          intro x hx
          rcases hseen x hx with hmem | hclosed
          · exact (List.not_mem_nil hmem).elim
          · exact hclosed
      | cons x pending =>
          have hx := hpending x (List.mem_cons_self ..)
          have hpushed : ∀ y ∈ next x, y ∈ carrier := hnext x hx
          refine ih ?_ ?_ ?_
          · exact pushes_pending_of hpushed fun y hy => hpending y (List.mem_cons_of_mem _ hy)
          · have hmeasure := @pushes_measure _ _ (pending, seen) _ _ hpushed
            simp only [List.length_cons] at hfuel hmeasure
            omega
          · intro y hy
            rcases mem_pushes_pending hy with hpend | hbefore
            · exact .inl hpend
            · rcases hseen y hbefore with hmem | hclosed
              · rcases List.mem_cons.mp hmem with rfl | hmem
                · exact .inr fun z hz => mem_pushes_seen.mpr (.inr hz)
                · exact .inl (@subset_pushes_pending _ _ (pending, seen) _ _ hmem)
              · exact .inr fun z hz => mem_pushes_seen.mpr (.inl (hclosed z hz))

/-- With enough fuel the loop has ended: more makes no difference. -/
theorem drain_add {carrier : Finset α} (hnext : ∀ x ∈ carrier, ∀ y ∈ next x, y ∈ carrier)
    (hpending : ∀ x ∈ pending, x ∈ carrier)
    (hfuel : pending.length + (carrier \ seen.toFinset).card ≤ fuel) (more : Nat) :
    drain next (fuel + more) pending seen = drain next fuel pending seen := by
  induction fuel generalizing pending seen with
  | zero =>
      obtain rfl : pending = [] := List.length_eq_zero_iff.mp (by omega)
      cases more with
      | zero => rfl
      | succ more => rw [Nat.zero_add, drain, drain]
  | succ fuel ih =>
      cases pending with
      | nil => rw [Nat.add_right_comm, drain, drain]
      | cons x pending =>
          have hpushed : ∀ y ∈ next x, y ∈ carrier := hnext x (hpending x (List.mem_cons_self ..))
          rw [Nat.add_right_comm, drain, drain]
          refine ih (pushes_pending_of hpushed fun y hy => hpending y (List.mem_cons_of_mem _ hy)) ?_
          have hmeasure := @pushes_measure _ _ (pending, seen) _ _ hpushed
          simp only [List.length_cons] at hfuel hmeasure
          omega

/-- The closure is what is reached from the seeds. -/
theorem mem_closure {carrier : Finset α} {seeds : List α}
    (hnext : ∀ x ∈ carrier, ∀ y ∈ next x, y ∈ carrier) (hseeds : ∀ x ∈ seeds, x ∈ carrier)
    (hfuel : seeds.length + carrier.card ≤ fuel) {x : α} :
    x ∈ closure next fuel seeds ↔ Reached next seeds x := by
  constructor
  · exact drain_sound (P := Reached next seeds) (fun _ hx _ hy => hx.step hy)
      (List.Subset.refl _) (fun _ hx => .seed hx) x
  · intro hx
    induction hx with
    | seed h => exact subset_drain h
    | step hreached h ih =>
        refine drain_closed hnext hseeds ?_ (fun _ hmem => .inl hmem) _ ih _ h
        exact (Nat.add_le_add_left (Finset.card_le_card Finset.sdiff_subset) _).trans hfuel

end Drain

end Worklist
