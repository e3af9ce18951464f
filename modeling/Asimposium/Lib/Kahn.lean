import Mathlib.Data.Fintype.Card
import Mathlib.Data.Set.Finite.List
import Mathlib.Data.List.Nodup
import Mathlib.Order.WellFounded

/-!
# Kahn's order

The elements of a finite graph are settled one by one, each when the last of
its parents is. The loop keeps for every element the number of parents it
still waits for and a queue of those that wait for none. What it settles is
in causal order, and it settles everything exactly when no element is among
its own ancestors.
-/

namespace Kahn

variable {α : Type*} [DecidableEq α]

/-! ## The loop -/

structure State (α : Type*) where
  degree : α → Int
  queue : List α
  order : List α

/-- A dependent of a settled element waits for one parent less. -/
def settle (state : (α → Int) × List α) (dependent : α) : (α → Int) × List α :=
  let remaining := state.1 dependent - 1
  (Function.update state.1 dependent remaining,
    if remaining = 0 then state.2 ++ [dependent] else state.2)

def run (dependents : α → List α) : Nat → State α → State α
  | 0, s => s
  | fuel + 1, s =>
      match s.queue with
      | [] => s
      | current :: rest =>
          let settled := (dependents current).foldl settle (s.degree, rest)
          run dependents fuel ⟨settled.1, settled.2, s.order ++ [current]⟩

theorem foldl_settle {dependents : List α} (h : dependents.Nodup) (degree : α → Int)
    (queue : List α) :
    dependents.foldl settle (degree, queue)
      = (fun x => if x ∈ dependents then degree x - 1 else degree x,
        queue ++ dependents.filter fun x => degree x = 1) := by
  induction dependents generalizing degree queue with
  | nil => simp
  | cons d rest ih =>
      obtain ⟨hd, hrest⟩ := List.nodup_cons.mp h
      rw [List.foldl_cons, settle, ih hrest]
      have hkeep : ∀ x ∈ rest, Function.update degree d (degree d - 1) x = degree x := by
        intro x hx
        have hne : x ≠ d := by
          rintro rfl
          exact hd hx
        rw [Function.update_of_ne hne]
      have hfilter : (rest.filter fun x => Function.update degree d (degree d - 1) x = 1)
          = rest.filter fun x => degree x = 1 :=
        List.filter_congr fun x hx => by rw [hkeep x hx]
      refine Prod.ext (funext fun x => ?_) ?_
      · by_cases hxd : x = d
        · subst hxd
          simp [hd]
        · by_cases hxr : x ∈ rest
          · simp [hxd, hxr]
          · simp [hxd, hxr]
      · dsimp only
        rw [hfilter, List.filter_cons]
        by_cases hone : degree d = 1
        · simp [hone]
        · have hne : ¬ degree d - 1 = 0 := by omega
          simp [hone, hne]

/-! ## Graphs -/

/-- A finite graph without doubled edges, by the parents of its elements. -/
structure Graph (α : Type*) where
  ids : List α
  parents : α → List α
  ids_nodup : ids.Nodup
  parents_nodup : ∀ x ∈ ids, (parents x).Nodup
  parents_mem : ∀ x ∈ ids, ∀ p ∈ parents x, p ∈ ids

namespace Graph

variable (g : Graph α)

def Causes (p x : α) : Prop := x ∈ g.ids ∧ p ∈ g.parents x

def Acyclic : Prop := ∀ x, ¬ Relation.TransGen g.Causes x x

/-- Parents stand before what they caused. -/
def Causal (order : List α) : Prop :=
  ∀ before x after, order = before ++ x :: after → ∀ p ∈ g.parents x, p ∈ before

def dependents (p : α) : List α := g.ids.filter fun x => p ∈ g.parents x

def start : State α where
  degree := fun x => (g.parents x).length
  queue := g.ids.filter fun x => (g.parents x).length = 0
  order := []

/-- What holds before every round. -/
structure Invariant (s : State α) : Prop where
  degree : ∀ x ∈ g.ids, s.degree x = ((g.parents x).filter (· ∉ s.order)).length
  reached : ∀ x, x ∈ s.order ++ s.queue ↔ x ∈ g.ids ∧ ∀ p ∈ g.parents x, p ∈ s.order
  nodup : (s.order ++ s.queue).Nodup
  causal : g.Causal s.order

variable {g}

variable {x : α}

theorem mem_dependents {p : α} : x ∈ g.dependents p ↔ x ∈ g.ids ∧ p ∈ g.parents x := by
  rw [dependents, List.mem_filter, decide_eq_true_eq]

theorem invariant_start : g.Invariant g.start where
  degree := by
    intro x hx
    simp [start]
  reached := by
    intro x
    simp only [start, List.nil_append, List.mem_filter, decide_eq_true_eq, List.not_mem_nil,
      List.length_eq_zero_iff]
    rw [List.eq_nil_iff_forall_not_mem]
  nodup := by
    rw [start, List.nil_append]
    exact g.ids_nodup.filter _
  causal := by
    intro before x after h
    exact absurd h.symm (List.append_ne_nil_of_right_ne_nil _ (List.cons_ne_nil _ _))

omit [DecidableEq α] in
variable {order : List α}

omit [DecidableEq α] in
theorem Causal.snoc {c : α} (h : g.Causal order) (hc : ∀ p ∈ g.parents c, p ∈ order) :
    g.Causal (order ++ [c]) := by
  intro before x after heq
  rcases List.eq_nil_or_concat after with rfl | ⟨after, last, rfl⟩
  · obtain ⟨rfl, hx⟩ := List.append_inj' heq rfl
    obtain rfl := List.singleton_inj.mp hx
    exact hc
  · have hassoc : order ++ [c] = (before ++ x :: after) ++ [last] := by
      rw [heq, List.concat_eq_append, List.append_assoc]
      rfl
    obtain ⟨hfront, -⟩ := List.append_inj' hassoc rfl
    exact h before x after hfront

/-- The parents an element waits for, when one more is settled. -/
theorem waiting_snoc {c : α} (hx : x ∈ g.ids) (hc : c ∉ order) :
    (((g.parents x).filter (· ∉ order ++ [c])).length : Int)
      = if c ∈ g.parents x then (((g.parents x).filter (· ∉ order)).length : Int) - 1
        else ((g.parents x).filter (· ∉ order)).length := by
  have hsplit : (g.parents x).filter (· ∉ order ++ [c])
      = ((g.parents x).filter (· ∉ order)).erase c := by
    rw [((g.parents_nodup x hx).filter _).erase_eq_filter, List.filter_filter]
    refine List.filter_congr fun p hp => ?_
    by_cases hpc : p = c <;> by_cases hpo : p ∈ order <;> simp [hpc, hpo, hc]
  rw [hsplit]
  split
  · rename_i hmem
    have hin : c ∈ (g.parents x).filter (· ∉ order) := List.mem_filter.mpr ⟨hmem, by simpa using hc⟩
    have hpos := List.length_pos_of_mem hin
    rw [List.length_erase_of_mem hin]
    omega
  · rename_i hmem
    rw [List.erase_of_not_mem fun hin => hmem (List.mem_filter.mp hin).1]

/-- The last parent an element waits for. -/
theorem waits_for_one {c : α} (hx : x ∈ g.ids) (hc : c ∉ order) (hparent : c ∈ g.parents x) :
    ((g.parents x).filter (· ∉ order)).length = 1
      ↔ ∀ p ∈ g.parents x, p ∈ order ++ [c] := by
  have hin : c ∈ (g.parents x).filter (· ∉ order) :=
    List.mem_filter.mpr ⟨hparent, by simpa using hc⟩
  constructor
  · intro hone p hp
    by_cases hpo : p ∈ order
    · exact List.mem_append_left _ hpo
    · obtain ⟨q, hq⟩ := List.length_eq_one_iff.mp hone
      have hpin : p ∈ (g.parents x).filter (· ∉ order) :=
        List.mem_filter.mpr ⟨hp, by simpa using hpo⟩
      rw [hq, List.mem_singleton] at hin hpin
      rw [hpin, ← hin]
      exact List.mem_append_right _ (List.mem_singleton_self _)
  · intro hall
    have hsub : ∀ p ∈ (g.parents x).filter (· ∉ order), p = c := by
      intro p hp
      obtain ⟨hp, hpo⟩ := List.mem_filter.mp hp
      rw [decide_eq_true_eq] at hpo
      exact List.mem_singleton.mp ((List.mem_append.mp (hall p hp)).resolve_left hpo)
    have hnodup := (g.parents_nodup x hx).filter fun p => p ∉ order
    have hle : ((g.parents x).filter (· ∉ order)).length ≤ [c].length :=
      (List.subperm_of_subset hnodup fun p hp => List.mem_singleton.mpr (hsub p hp)).length_le
    have hpos := List.length_pos_of_mem hin
    rw [List.length_singleton] at hle
    omega

/-- The step lemma. -/
theorem Invariant.step {s : State α} {current : α} {rest : List α} (h : g.Invariant s)
    (hqueue : s.queue = current :: rest) :
    g.Invariant ⟨((g.dependents current).foldl settle (s.degree, rest)).1,
      ((g.dependents current).foldl settle (s.degree, rest)).2, s.order ++ [current]⟩ := by
  have hnodup := h.nodup
  rw [hqueue] at hnodup
  have hfresh : current ∉ s.order := fun hmem =>
    (List.nodup_append.mp hnodup).2.2 current hmem current (List.mem_cons_self ..) rfl
  obtain ⟨hids, hsettled⟩ := (h.reached current).mp
    (List.mem_append_right _ (hqueue ▸ List.mem_cons_self ..))
  have hdependents : (g.dependents current).Nodup := g.ids_nodup.filter _
  rw [foldl_settle hdependents]
  have hnew : ∀ x, x ∈ (g.dependents current).filter (fun x => s.degree x = 1)
      ↔ x ∈ g.ids ∧ current ∈ g.parents x ∧ ∀ p ∈ g.parents x, p ∈ s.order ++ [current] := by
    intro x
    rw [List.mem_filter, mem_dependents, decide_eq_true_eq]
    constructor
    · rintro ⟨⟨hx, hparent⟩, hone⟩
      rw [h.degree x hx] at hone
      exact ⟨hx, hparent, (waits_for_one hx hfresh hparent).mp (by exact_mod_cast hone)⟩
    · rintro ⟨hx, hparent, hall⟩
      refine ⟨⟨hx, hparent⟩, ?_⟩
      rw [h.degree x hx]
      exact_mod_cast (waits_for_one hx hfresh hparent).mpr hall
  refine ⟨?_, ?_, ?_, h.causal.snoc hsettled⟩
  · intro x hx
    dsimp only
    rw [waiting_snoc hx hfresh, h.degree x hx]
    simp only [mem_dependents, hx, true_and]
  · intro x
    dsimp only
    rw [List.append_assoc, List.singleton_append, ← List.cons_append, ← List.append_assoc,
      ← hqueue, List.mem_append, hnew, h.reached]
    constructor
    · rintro (⟨hx, hall⟩ | ⟨hx, -, hall⟩)
      · exact ⟨hx, fun p hp => List.mem_append_left _ (hall p hp)⟩
      · exact ⟨hx, hall⟩
    · rintro ⟨hx, hall⟩
      by_cases hparent : current ∈ g.parents x
      · exact .inr ⟨hx, hparent, hall⟩
      · refine .inl ⟨hx, fun p hp => (List.mem_append.mp (hall p hp)).resolve_right ?_⟩
        exact fun hmem => hparent (List.mem_singleton.mp hmem ▸ hp)
  · dsimp only
    rw [List.append_assoc, List.singleton_append, ← List.cons_append, ← List.append_assoc,
      ← hqueue, List.nodup_append]
    refine ⟨h.nodup, (g.ids_nodup.filter _).filter _, ?_⟩
    rintro x hx y hy rfl
    obtain ⟨-, hparent, -⟩ := (hnew x).mp hy
    exact hfresh (((h.reached x).mp hx).2 current hparent)

theorem Invariant.run {s : State α} (h : g.Invariant s) (fuel : Nat) :
    g.Invariant (Kahn.run g.dependents fuel s) := by
  induction fuel generalizing s with
  | zero => exact h
  | succ fuel ih =>
      cases hqueue : s.queue with
      | nil =>
          rw [Kahn.run, hqueue]
          exact h
      | cons current rest =>
          rw [Kahn.run, hqueue]
          exact ih (h.step hqueue)

/-- No more can be settled than there are elements. -/
theorem Invariant.length_le {s : State α} (h : g.Invariant s) :
    s.order.length + s.queue.length ≤ g.ids.length := by
  rw [← List.length_append]
  exact (List.subperm_of_subset h.nodup fun x hx => ((h.reached x).mp hx).1).length_le

/-- With fuel for every element the queue is emptied. -/
theorem run_queue {s : State α} (h : g.Invariant s) {fuel : Nat}
    (hfuel : g.ids.length ≤ fuel + s.order.length) :
    (Kahn.run g.dependents fuel s).queue = [] := by
  induction fuel generalizing s with
  | zero =>
      have hle := h.length_le
      exact List.length_eq_zero_iff.mp (by rw [Kahn.run]; omega)
  | succ fuel ih =>
      cases hqueue : s.queue with
      | nil =>
          rw [Kahn.run, hqueue]
          exact hqueue
      | cons current rest =>
          rw [Kahn.run, hqueue]
          refine ih (h.step hqueue) ?_
          rw [List.length_append, List.length_singleton]
          omega

/-! ## Orders and cycles -/

theorem Causal.lt_of_causes (h : g.Causal order) {p : α} (hx : x ∈ order) (hp : p ∈ g.parents x) :
    order.idxOf p < order.idxOf x := by
  obtain ⟨before, after, rfl, hnot⟩ := List.eq_append_cons_of_mem hx
  have hbefore := h before x after rfl p hp
  rw [List.idxOf_append_of_mem hbefore, List.idxOf_append_of_notMem hnot, List.idxOf_cons_self,
    Nat.add_zero]
  exact List.idxOf_lt_length_of_mem hbefore

/-- A complete causal order leaves no room for a cycle. -/
theorem Causal.acyclic (h : g.Causal order) (hall : ∀ x ∈ g.ids, x ∈ order) : g.Acyclic := by
  have hlt : ∀ {p x : α}, Relation.TransGen g.Causes p x → order.idxOf p < order.idxOf x := by
    intro p x hpath
    induction hpath with
    | single hedge => exact h.lt_of_causes (hall _ hedge.1) hedge.2
    | tail _ hedge ih => exact ih.trans (h.lt_of_causes (hall _ hedge.1) hedge.2)
  exact fun x hcycle => lt_irrefl _ (hlt hcycle)

/-- A run that left an element unsettled has a parent of it unsettled too, so
that the unsettled elements hold a cycle. -/
theorem Invariant.complete_of_acyclic {s : State α} (h : g.Invariant s) (hqueue : s.queue = [])
    (hacyclic : g.Acyclic) : ∀ x ∈ g.ids, x ∈ s.order := by
  have hreached : ∀ x, x ∈ s.order ↔ x ∈ g.ids ∧ ∀ p ∈ g.parents x, p ∈ s.order := by
    intro x
    have hx := h.reached x
    rwa [hqueue, List.append_nil] at hx
  let Before : { x // x ∈ g.ids } → { x // x ∈ g.ids } → Prop :=
    fun p x => Relation.TransGen g.Causes p x
  have : IsTrans _ Before := ⟨fun _ _ _ hab hbc => Relation.TransGen.trans hab hbc⟩
  have : Std.Irrefl Before := ⟨fun x hcycle => hacyclic x hcycle⟩
  have : Finite { x // x ∈ g.ids } := (List.finite_toSet g.ids).to_subtype
  have hwf : WellFounded Before := Finite.wellFounded_of_trans_of_irrefl Before
  have hall : ∀ x : { x // x ∈ g.ids }, x.1 ∈ s.order := by
    intro x
    induction x using hwf.induction with
    | _ x ih =>
        refine (hreached x).mpr ⟨x.2, fun p hp => ?_⟩
        exact ih ⟨p, g.parents_mem x x.2 p hp⟩ (.single ⟨x.2, hp⟩)
  exact fun x hx => hall ⟨x, hx⟩

/-- The whole run: what it settles is causal, and it settles everything
exactly when the graph is acyclic. -/
theorem run_start {fuel : Nat} (hfuel : g.ids.length ≤ fuel) :
    g.Causal (Kahn.run g.dependents fuel g.start).order
      ∧ ((Kahn.run g.dependents fuel g.start).order.length = g.ids.length ↔ g.Acyclic)
      ∧ (g.Acyclic → (Kahn.run g.dependents fuel g.start).order.Perm g.ids) := by
  have hinv := (@invariant_start _ _ g).run fuel
  have hqueue := @run_queue _ _ g _ invariant_start fuel hfuel
  obtain ⟨s, hs⟩ : ∃ s, s = Kahn.run g.dependents fuel g.start := ⟨_, rfl⟩
  rw [← hs] at hinv hqueue ⊢
  have hnodup := hinv.nodup
  rw [hqueue, List.append_nil] at hnodup
  have hsub : ∀ x ∈ s.order, x ∈ g.ids := fun x hx =>
    ((hinv.reached x).mp (List.mem_append_left _ hx)).1
  have hperm : g.Acyclic → s.order.Perm g.ids := fun hacyclic =>
    (List.perm_ext_iff_of_nodup hnodup g.ids_nodup).mpr fun x =>
      ⟨hsub x, hinv.complete_of_acyclic hqueue hacyclic x⟩
  refine ⟨hinv.causal, ⟨fun hlength => ?_, fun hacyclic => (hperm hacyclic).length_eq⟩, hperm⟩
  have hsame := (List.subperm_of_subset hnodup hsub).perm_of_length_le hlength.ge
  exact hinv.causal.acyclic fun x hx => hsame.mem_iff.mpr hx

end Graph

end Kahn
