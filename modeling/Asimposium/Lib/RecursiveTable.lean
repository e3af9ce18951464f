import Asimposium.Lib.Worklist

/-!
# Recursive tables

`WITH RECURSIVE … UNION … LIMIT n`: rows wait in a queue, the first is
moved to the table, and the rows it leads to are queued unless they have
been queued before. The queue may be kept in any order (`enqueue`). At
most `limit` rows are moved.

The rows of a table are distinct and reached from the seeds; a table
that is shorter than its limit holds everything that is reached.
-/

namespace RecursiveTable

open Worklist (Reached)

variable {α : Type*} [DecidableEq α]

/-- Queue one row, unless it has been seen: `(queue, seen)`. -/
def push (enqueue : α → List α → List α) (state : List α × List α) (x : α) : List α × List α :=
  if x ∈ state.2 then state else (enqueue x state.1, x :: state.2)

/-- Move rows from the queue to the table. -/
def rows (next : α → List α) (enqueue : α → List α → List α) : Nat → List α × List α → List α
  | 0, _ => []
  | _ + 1, ([], _) => []
  | limit + 1, (x :: queue, seen) =>
      x :: rows next enqueue limit ((next x).foldl (push enqueue) (queue, seen))

def table (next : α → List α) (enqueue : α → List α → List α) (limit : Nat) (seeds : List α) :
    List α :=
  rows next enqueue limit (seeds.foldl (push enqueue) ([], []))

/-! ## The queue -/

/-- What is queued is distinct and has been seen, and what has been seen
is done or queued. -/
structure Queued (done : List α) (state : List α × List α) : Prop where
  nodup : state.1.Nodup
  seen : ∀ x, x ∈ state.2 ↔ x ∈ done ∨ x ∈ state.1
  apart : ∀ x ∈ state.1, x ∉ done

section Push

variable {enqueue : α → List α → List α}
  (henqueue : ∀ x queue, (enqueue x queue).Perm (x :: queue))
include henqueue

variable {state : List α × List α}

theorem Queued.push {done : List α} (h : Queued done state) (x : α) :
    Queued done (push enqueue state x) := by
  unfold RecursiveTable.push
  by_cases hseen : x ∈ state.2
  · rw [if_pos hseen]
    exact h
  · rw [if_neg hseen]
    have hmem : ∀ y, y ∈ enqueue x state.1 ↔ y = x ∨ y ∈ state.1 := fun y =>
      (henqueue x state.1).mem_iff.trans List.mem_cons
    have hnew : x ∉ done ∧ x ∉ state.1 := by
      rwa [h.seen, not_or] at hseen
    refine ⟨?_, fun y => ?_, fun y hy => ?_⟩
    · exact (henqueue x state.1).nodup_iff.mpr (List.nodup_cons.mpr ⟨hnew.2, h.nodup⟩)
    · rw [List.mem_cons, h.seen, hmem]
      tauto
    · rcases (hmem y).mp hy with rfl | hold
      · exact hnew.1
      · exact h.apart y hold

theorem Queued.pushes {done : List α} (h : Queued done state) (xs : List α) :
    Queued done (xs.foldl (RecursiveTable.push enqueue) state) := by
  induction xs generalizing state with
  | nil => exact h
  | cons x xs ih => exact ih (h.push henqueue x)

omit henqueue in
theorem mem_push_seen {x y : α} : y ∈ (push enqueue state x).2 ↔ y ∈ state.2 ∨ y = x := by
  unfold push
  by_cases hseen : x ∈ state.2
  · rw [if_pos hseen]
    constructor
    · exact .inl
    · rintro (hy | rfl)
      · exact hy
      · exact hseen
  · rw [if_neg hseen, List.mem_cons, or_comm]

omit henqueue in
theorem mem_pushes_seen {xs : List α} {y : α} :
    y ∈ (xs.foldl (push enqueue) state).2 ↔ y ∈ state.2 ∨ y ∈ xs := by
  induction xs generalizing state with
  | nil => simp
  | cons x xs ih => rw [List.foldl_cons, ih, mem_push_seen, List.mem_cons, or_assoc]

/-- Moving the first row of the queue. -/
theorem Queued.move {next : α → List α} {done queue seen : List α} {x : α}
    (h : Queued done (x :: queue, seen)) :
    Queued (done ++ [x]) ((next x).foldl (RecursiveTable.push enqueue) (queue, seen)) := by
  refine Queued.pushes henqueue ⟨(List.nodup_cons.mp h.nodup).2, fun y => ?_, fun y hy => ?_⟩ _
  · rw [h.seen, List.mem_cons, List.mem_append, List.mem_singleton]
    tauto
  · rw [List.mem_append, List.mem_singleton, not_or]
    refine ⟨h.apart y (List.mem_cons_of_mem _ hy), ?_⟩
    rintro rfl
    exact (List.nodup_cons.mp h.nodup).1 hy

end Push

/-! ## The table -/

section Table

variable {next : α → List α} {enqueue : α → List α → List α}
  (henqueue : ∀ x queue, (enqueue x queue).Perm (x :: queue))
include henqueue

variable {limit : Nat}

theorem rows_nodup {done : List α} {state : List α × List α} (h : Queued done state) :
    (rows next enqueue limit state).Nodup ∧ ∀ x ∈ rows next enqueue limit state, x ∉ done := by
  induction limit generalizing done state with
  | zero => exact ⟨List.nodup_nil, fun x hx => absurd hx List.not_mem_nil⟩
  | succ limit ih =>
      obtain ⟨queue, seen⟩ := state
      cases queue with
      | nil => exact ⟨List.nodup_nil, fun x hx => absurd hx List.not_mem_nil⟩
      | cons x queue =>
          obtain ⟨hnodup, hapart⟩ := ih (h.move henqueue)
          rw [rows]
          refine ⟨List.nodup_cons.mpr ⟨fun hx => hapart x hx (by simp), hnodup⟩, fun y hy => ?_⟩
          rcases List.mem_cons.mp hy with rfl | hrest
          · exact h.apart y (List.mem_cons_self ..)
          · exact fun hdone => hapart y hrest (List.mem_append_left _ hdone)

/-- A property of the queue that leads on to the next rows holds of the
table. -/
theorem rows_sound {P : α → Prop} (hstep : ∀ x, P x → ∀ y ∈ next x, P y) {state : List α × List α}
    (h : ∀ x ∈ state.1, P x) : ∀ x ∈ rows next enqueue limit state, P x := by
  have hpush : ∀ xs : List α, (∀ x ∈ xs, P x) → ∀ state : List α × List α,
      (∀ x ∈ state.1, P x) → ∀ x ∈ (xs.foldl (push enqueue) state).1, P x := by
    intro xs hxs
    induction xs with
    | nil => exact fun _ h => h
    | cons y xs ih =>
        intro state h
        refine ih (fun x hx => hxs x (List.mem_cons_of_mem _ hx)) _ ?_
        unfold push
        by_cases hseen : y ∈ state.2
        · rw [if_pos hseen]
          exact h
        · rw [if_neg hseen]
          intro x hx
          rcases List.mem_cons.mp ((henqueue y state.1).mem_iff.mp hx) with rfl | hold
          · exact hxs x (List.mem_cons_self ..)
          · exact h x hold
  induction limit generalizing state with
  | zero => exact fun x hx => absurd hx List.not_mem_nil
  | succ limit ih =>
      obtain ⟨queue, seen⟩ := state
      cases queue with
      | nil => exact fun x hx => absurd hx List.not_mem_nil
      | cons y queue =>
          have hy := h y (List.mem_cons_self ..)
          have hqueue : ∀ x ∈ queue, P x := fun x hx => h x (List.mem_cons_of_mem _ hx)
          intro x hx
          rcases List.mem_cons.mp hx with rfl | hrest
          · exact hy
          · exact ih (hpush _ (hstep y hy) (queue, seen) hqueue) x hrest

/-- A table shorter than its limit has emptied the queue. -/
theorem rows_closed {done : List α} {state : List α × List α} (h : Queued done state)
    (hdone : ∀ x ∈ done, ∀ y ∈ next x, y ∈ state.2)
    (hshort : (rows next enqueue limit state).length < limit) :
    (∀ x ∈ state.2, x ∈ done ∨ x ∈ rows next enqueue limit state)
      ∧ ∀ x ∈ rows next enqueue limit state, ∀ y ∈ next x,
        y ∈ done ∨ y ∈ rows next enqueue limit state := by
  induction limit generalizing done state with
  | zero => exact absurd hshort (Nat.not_lt_zero _)
  | succ limit ih =>
      obtain ⟨queue, seen⟩ := state
      cases queue with
      | nil =>
          refine ⟨fun x hx => (h.seen x).mp hx, fun x hx => absurd hx List.not_mem_nil⟩
      | cons x queue =>
          rw [rows, List.length_cons] at hshort
          have hnext : ∀ y ∈ done ++ [x], ∀ z ∈ next y,
              z ∈ ((next x).foldl (push enqueue) (queue, seen)).2 := by
            intro y hy z hz
            rcases List.mem_append.mp hy with hold | hlast
            · exact mem_pushes_seen.mpr (.inl (hdone y hold z hz))
            · rw [List.mem_singleton.mp hlast] at hz
              exact mem_pushes_seen.mpr (.inr hz)
          obtain ⟨hseen, hclosed⟩ := ih (h.move henqueue) hnext (by omega)
          have hsplit : ∀ y, (y ∈ done ++ [x]
              ∨ y ∈ rows next enqueue limit ((next x).foldl (push enqueue) (queue, seen))) →
              y ∈ done ∨ y ∈ rows next enqueue (limit + 1) (x :: queue, seen) := by
            intro y hy
            rw [rows, List.mem_cons]
            rw [List.mem_append, List.mem_singleton] at hy
            tauto
          refine ⟨fun y hy => hsplit y (hseen y (mem_pushes_seen.mpr (.inl hy))), ?_⟩
          intro y hy z hz
          rcases List.mem_cons.mp hy with rfl | hrest
          · exact hsplit z (hseen z (mem_pushes_seen.mpr (.inr hz)))
          · exact hsplit z (hclosed y hrest z hz)

theorem queued_seeds (seeds : List α) : Queued [] (seeds.foldl (push enqueue) ([], [])) :=
  Queued.pushes henqueue ⟨List.nodup_nil, by simp, by simp⟩ seeds

theorem table_nodup {seeds : List α} : (table next enqueue limit seeds).Nodup :=
  (rows_nodup henqueue (queued_seeds henqueue seeds)).1

theorem table_sound {seeds : List α} {x : α} (h : x ∈ table next enqueue limit seeds) :
    Reached next seeds x := by
  refine rows_sound henqueue (fun x hx y hy => hx.step hy) (fun y hy => ?_) x h
  have hseen := ((queued_seeds henqueue seeds).seen y).mpr (.inr hy)
  exact .seed ((mem_pushes_seen.mp hseen).resolve_left List.not_mem_nil)

theorem table_complete {seeds : List α} {x : α}
    (hshort : (table next enqueue limit seeds).length < limit) (h : Reached next seeds x) :
    x ∈ table next enqueue limit seeds := by
  obtain ⟨hseen, hclosed⟩ := rows_closed henqueue (queued_seeds henqueue seeds)
    (fun _ hx => absurd hx List.not_mem_nil) hshort
  induction h with
  | seed hx =>
      exact (hseen _ (mem_pushes_seen.mpr (.inr hx))).resolve_left List.not_mem_nil
  | step _ hy ih => exact (hclosed _ ih _ hy).resolve_left List.not_mem_nil

end Table

end RecursiveTable
