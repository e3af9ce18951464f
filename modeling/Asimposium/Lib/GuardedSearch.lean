import Mathlib.Data.List.Nodup
import Mathlib.Data.List.Perm.Subperm
import Asimposium.Lib.BreadthFirst

/-!
# Breadth-first search that refuses repeated labels

A breadth-first search over adjacency lists in which a child is refused
when its label already occurs on the path by which the parent was
reached. Every node keeps the one path by which it was first reached, so
what is refused may depend on the order of the lists.

`Front k p v` says, without any order, that `p` is a path of `k` steps
to `v` that a search may keep: it repeats no label, and nothing shorter
of the kind leads to any node on it. When all such paths to one node
refuse the same children (`Agrees`), the kept paths are fronts and all
fronts are met (`levels`). A search that lists the steps of a front
first keeps that front (`kept_of_first`).
-/

namespace GuardedSearch

open BreadthFirst

variable {α β : Type*} [DecidableEq α] [DecidableEq β]

/-! ## The search -/

/-- Discover one child of the parent. -/
def discover (label : α → β) (parent : α × List α) (queue : List (α × List α)) (child : α) :
    List (α × List α) :=
  if label child ∈ parent.2.map label ∨ child ∈ queue.map (·.1) then queue
  else queue ++ [(child, parent.2 ++ [child])]

/-- Discover all children of the parent, in order. -/
def expand (children : α → List α) (label : α → β) (queue : List (α × List α))
    (parent : α × List α) : List (α × List α) :=
  (children parent.1).foldl (discover label parent) queue

/-- Process the queue from the index on. -/
def search (children : α → List α) (label : α → β) :
    Nat → Nat → List (α × List α) → List (α × List α)
  | 0, _, queue => queue
  | fuel + 1, index, queue =>
      match queue[index]? with
      | none => queue
      | some parent => search children label fuel (index + 1) (expand children label queue parent)

/-- The entries the parent adds for its new children. -/
def entries (parent : α × List α) (new : List α) : List (α × List α) :=
  new.map fun child => (child, parent.2 ++ [child])

/-- What discovering a list of children does: `new` are the children
neither refused nor known, the first child among them if it is one. -/
structure Discovered (label : α → β) (parent : α × List α) (queue : List (α × List α))
    (children new : List α) : Prop where
  fold : children.foldl (discover label parent) queue = queue ++ entries parent new
  nodup : new.Nodup
  mem : ∀ child, child ∈ new ↔ child ∈ children ∧ label child ∉ parent.2.map label
    ∧ child ∉ queue.map (·.1)
  first : ∀ child, children.head? = some child → child ∈ new → new.head? = some child

theorem discovered (label : α → β) (parent : α × List α) (queue : List (α × List α))
    (children : List α) : ∃ new, Discovered label parent queue children new := by
  induction children generalizing queue with
  | nil => exact ⟨[], by simp [entries], List.nodup_nil, by simp, by simp⟩
  | cons child rest ih =>
      by_cases hrefused : label child ∈ parent.2.map label ∨ child ∈ queue.map (·.1)
      · obtain ⟨new, h⟩ := ih queue
        have hold : child ∉ new := fun hmem => by
          have hnew := (h.mem child).mp hmem
          tauto
        refine ⟨new, ?_, h.nodup, fun other => ?_, fun other hhead hmem => ?_⟩
        · rw [List.foldl_cons, discover, if_pos hrefused]
          exact h.fold
        · rw [h.mem, List.mem_cons]
          refine ⟨fun hother => ⟨.inr hother.1, hother.2⟩, fun hother => ⟨?_, hother.2⟩⟩
          rcases hother.1 with rfl | hrest
          · tauto
          · exact hrest
        · cases hhead
          exact absurd hmem hold
      · obtain ⟨new, h⟩ := ih (queue ++ [(child, parent.2 ++ [child])])
        have hknown : child ∉ new := fun hmem => ((h.mem child).mp hmem).2.2 (by simp)
        refine ⟨child :: new, ?_, List.nodup_cons.mpr ⟨hknown, h.nodup⟩, fun other => ?_, ?_⟩
        · rw [List.foldl_cons, discover, if_neg hrefused, h.fold]
          simp [entries]
        · rw [not_or] at hrefused
          rw [List.mem_cons, h.mem, List.mem_cons, List.map_append, List.mem_append]
          by_cases heq : other = child
          · subst heq
            simp only [true_or, true_and, true_iff]
            exact hrefused
          · simp [heq]
        · intro other hhead _
          exact hhead

/-! ## The invariant -/

/-- The queue, cut into what has been processed and what is waiting. -/
structure GuardInv (children : α → List α) (label : α → β) (root : α)
    (done todo : List (α × List α)) : Prop where
  start : (root, [root]) ∈ done ++ todo
  nodup : ((done ++ todo).map (·.1)).Nodup
  parents : ∀ entry ∈ done ++ todo, entry = (root, [root]) ∨ ∃ parent ∈ done,
    entry.2 = parent.2 ++ [entry.1] ∧ entry.1 ∈ children parent.1
      ∧ label entry.1 ∉ parent.2.map label
  closed : ∀ entry ∈ done, ∀ child ∈ children entry.1, label child ∉ entry.2.map label →
    ∃ found ∈ done ++ todo, found.1 = child ∧ found.2.length ≤ entry.2.length + 1
  sorted : (done ++ todo).Pairwise fun left right => left.2.length ≤ right.2.length
  ahead : ∀ entry ∈ done ++ todo, ∀ next ∈ todo.head?, entry.2.length ≤ next.2.length + 1

section Search

variable {children : α → List α} {label : α → β} {root : α} {done todo : List (α × List α)}

omit [DecidableEq α] [DecidableEq β] in
theorem guardInv_init (children : α → List α) (label : α → β) (root : α) :
    GuardInv children label root [] [(root, [root])] where
  start := List.mem_singleton.mpr rfl
  nodup := by simp
  parents _ hentry := .inl (List.mem_singleton.mp hentry)
  closed _ hentry := (List.not_mem_nil hentry).elim
  sorted := List.pairwise_singleton _ _
  ahead entry hentry next hnext := by
    rw [List.mem_singleton.mp hentry]
    simp

theorem GuardInv.expand {parent : α × List α} {rest : List (α × List α)} {new : List α}
    (h : GuardInv children label root done (parent :: rest))
    (hnew : Discovered label parent (done ++ parent :: rest) (children parent.1) new) :
    GuardInv children label root (done ++ [parent]) (rest ++ entries parent new) := by
  have hassoc : (done ++ [parent]) ++ (rest ++ entries parent new)
      = (done ++ parent :: rest) ++ entries parent new := by simp
  have hentries : ∀ entry ∈ entries parent new, entry.1 ∈ new
      ∧ entry.2 = parent.2 ++ [entry.1] := by
    intro entry hentry
    obtain ⟨child, hchild, rfl⟩ := List.mem_map.mp hentry
    exact ⟨hchild, rfl⟩
  have hlength : ∀ entry ∈ entries parent new, entry.2.length = parent.2.length + 1 := by
    intro entry hentry
    rw [(hentries entry hentry).2, List.length_append, List.length_singleton]
  have hbound : ∀ entry ∈ done ++ parent :: rest, entry.2.length ≤ parent.2.length + 1 :=
    fun entry hentry => h.ahead entry hentry parent rfl
  refine ⟨?_, ?_, ?_, ?_, ?_, ?_⟩
  · rw [hassoc]
    exact List.mem_append_left _ h.start
  · rw [hassoc, List.map_append, List.nodup_append]
    refine ⟨h.nodup, ?_, fun node hnode other hother heq => ?_⟩
    · rw [entries, List.map_map]
      exact (List.map_id new).symm ▸ hnew.nodup
    · obtain ⟨entry, hentry, rfl⟩ := List.mem_map.mp hother
      exact ((hnew.mem _).mp (hentries entry hentry).1).2.2 (heq ▸ hnode)
  · intro entry hentry
    rw [hassoc] at hentry
    rcases List.mem_append.mp hentry with hold | hadded
    · rcases h.parents entry hold with hroot | ⟨earlier, hearlier, hpath⟩
      · exact .inl hroot
      · exact .inr ⟨earlier, List.mem_append_left _ hearlier, hpath⟩
    · obtain ⟨hchild, hpath⟩ := hentries entry hadded
      obtain ⟨hlisted, hallowed, -⟩ := (hnew.mem _).mp hchild
      exact .inr ⟨parent, by simp, hpath, hlisted, hallowed⟩
  · intro entry hentry child hchild hallowed
    rw [hassoc]
    rcases List.mem_append.mp hentry with hold | hlast
    · obtain ⟨found, hfound, heq, hle⟩ := h.closed entry hold child hchild hallowed
      exact ⟨found, List.mem_append_left _ hfound, heq, hle⟩
    · rw [List.mem_singleton] at hlast
      subst hlast
      by_cases hknown : child ∈ (done ++ entry :: rest).map (·.1)
      · obtain ⟨found, hfound, rfl⟩ := List.mem_map.mp hknown
        exact ⟨found, List.mem_append_left _ hfound, rfl, hbound found hfound⟩
      · have hmem := (hnew.mem child).mpr ⟨hchild, hallowed, hknown⟩
        refine ⟨(child, entry.2 ++ [child]), List.mem_append_right _ ?_, rfl, by simp⟩
        exact List.mem_map_of_mem hmem
  · rw [hassoc, List.pairwise_append]
    refine ⟨h.sorted, ?_, fun entry hentry added hadded => ?_⟩
    · exact List.pairwise_of_forall_mem_list fun left hleft right hright => by
        rw [hlength left hleft, hlength right hright]
    · rw [hlength added hadded]
      exact hbound entry hentry
  · intro entry hentry next hnext
    rw [hassoc] at hentry
    have hparent : parent.2.length ≤ next.2.length := by
      cases rest with
      | nil =>
          have hmem : next ∈ entries parent new := List.mem_of_mem_head? hnext
          rw [hlength next hmem]
          omega
      | cons second rest =>
          cases hnext
          have htail := (List.pairwise_append.mp h.sorted).2.1
          exact (List.pairwise_cons.mp htail).1 next (by simp)
    rcases List.mem_append.mp hentry with hold | hadded
    · exact (hbound entry hold).trans (by omega)
    · rw [hlength entry hadded]
      omega

/-- A property of the cut queue that every expansion keeps holds of the
finished queue, given fuel for the nodes still unknown. -/
theorem GuardInv.search {nodes : List α} {Q : List (α × List α) → List (α × List α) → Prop}
    (hnodes : ∀ node ∈ nodes, ∀ child ∈ children node, child ∈ nodes)
    (hstep : ∀ done parent rest new, GuardInv children label root done (parent :: rest) →
      Discovered label parent (done ++ parent :: rest) (children parent.1) new →
      Q done (parent :: rest) → Q (done ++ [parent]) (rest ++ entries parent new))
    (fuel : Nat) (hfuel : nodes.length ≤ fuel + done.length)
    (h : GuardInv children label root done todo) (hQ : Q done todo)
    (hmem : ∀ entry ∈ done ++ todo, entry.1 ∈ nodes) :
    GuardInv children label root
        (GuardedSearch.search children label fuel done.length (done ++ todo)) []
      ∧ Q (GuardedSearch.search children label fuel done.length (done ++ todo)) [] := by
  induction fuel generalizing done todo with
  | zero =>
      have hsub : (done ++ todo).map (·.1) ⊆ nodes := by
        intro node hnode
        obtain ⟨entry, hentry, rfl⟩ := List.mem_map.mp hnode
        exact hmem entry hentry
      have hlen := (List.subperm_of_subset h.nodup hsub).length_le
      simp only [List.length_map, List.length_append] at hlen
      obtain rfl : todo = [] := List.eq_nil_of_length_eq_zero (by omega)
      rw [GuardedSearch.search, List.append_nil]
      exact ⟨h, hQ⟩
  | succ fuel ih =>
      cases todo with
      | nil =>
          have hend : done[done.length]? = none := by simp
          rw [List.append_nil]
          simp only [GuardedSearch.search, hend]
          exact ⟨h, hQ⟩
      | cons parent rest =>
          obtain ⟨new, hnew⟩ := discovered label parent (done ++ parent :: rest)
            (children parent.1)
          have hhead : (done ++ parent :: rest)[done.length]? = some parent := by simp
          have hassoc : (done ++ parent :: rest) ++ entries parent new
              = (done ++ [parent]) ++ (rest ++ entries parent new) := by simp
          have hparent : parent.1 ∈ nodes := hmem parent (by simp)
          simp only [GuardedSearch.search, hhead, GuardedSearch.expand, hnew.fold, hassoc]
          have htail := ih (by rw [List.length_append, List.length_singleton]; omega)
            (h.expand hnew) (hstep done parent rest new h hnew hQ) (fun entry hentry => by
              rw [← hassoc] at hentry
              rcases List.mem_append.mp hentry with hold | hadded
              · exact hmem entry hold
              · obtain ⟨child, hchild, rfl⟩ := List.mem_map.mp hadded
                exact hnodes _ hparent child ((hnew.mem child).mp hchild).1)
          rwa [List.length_append, List.length_singleton] at htail

end Search

/-! ## Fronts -/

/-- The paths of exactly `k` steps that a search may keep, and the nodes
within `k` steps of such paths. -/
def fronts (children : α → List α) (label : α → β) (root : α) :
    ℕ → (List α → α → Prop) × (α → Prop)
  | 0 => (fun p v => p = [root] ∧ v = root, fun v => v = root)
  | k + 1 =>
      let earlier := fronts children label root k
      let new := fun p v => ∃ q u, earlier.1 q u ∧ v ∈ children u ∧ label v ∉ q.map label
        ∧ p = q ++ [v] ∧ ¬earlier.2 v
      (new, fun v => earlier.2 v ∨ ∃ p, new p v)

section Fronts

variable (children : α → List α) (label : α → β) (root : α)

def Front (k : ℕ) (p : List α) (v : α) : Prop := (fronts children label root k).1 p v

def Within (k : ℕ) (v : α) : Prop := (fronts children label root k).2 v

/-- The fronts of `k` steps to one node refuse the same children. -/
def Agrees (k : ℕ) : Prop :=
  ∀ p p' n, Front children label root k p n → Front children label root k p' n →
    ∀ c ∈ children n, label c ∈ p.map label → label c ∈ p'.map label

variable {children label root} {p q : List α} {u v : α} {j k : ℕ}

omit [DecidableEq α] [DecidableEq β]

theorem front_succ : Front children label root (k + 1) p v ↔
    ∃ q u, Front children label root k q u ∧ v ∈ children u ∧ label v ∉ q.map label
      ∧ p = q ++ [v] ∧ ¬Within children label root k v := Iff.rfl

theorem within_iff : Within children label root k v ↔
    ∃ j ≤ k, ∃ p, Front children label root j p v := by
  induction k with
  | zero =>
      constructor
      · rintro rfl
        exact ⟨0, le_rfl, _, rfl, rfl⟩
      · rintro ⟨j, hj, p, hp⟩
        obtain rfl : j = 0 := by omega
        exact hp.2
  | succ k ih =>
      have hsplit : Within children label root (k + 1) v ↔
          Within children label root k v ∨ ∃ p, Front children label root (k + 1) p v := Iff.rfl
      rw [hsplit, ih]
      constructor
      · rintro (⟨j, hj, p, hp⟩ | ⟨p, hp⟩)
        · exact ⟨j, by omega, p, hp⟩
        · exact ⟨k + 1, le_rfl, p, hp⟩
      · rintro ⟨j, hj, p, hp⟩
        rcases Nat.lt_or_ge j (k + 1) with hlt | hge
        · exact .inl ⟨j, by omega, p, hp⟩
        · obtain rfl : j = k + 1 := by omega
          exact .inr ⟨p, hp⟩

theorem Front.length (h : Front children label root k p v) : p.length = k + 1 := by
  induction k generalizing p v with
  | zero => rw [h.1]; rfl
  | succ k ih =>
      obtain ⟨q, u, hq, -, -, rfl, -⟩ := front_succ.mp h
      rw [List.length_append, List.length_singleton, ih hq]

theorem Front.last (h : Front children label root k p v) : p.getLast? = some v := by
  cases k with
  | zero =>
      obtain ⟨rfl, rfl⟩ := h
      rfl
  | succ k =>
      obtain ⟨q, u, -, -, -, rfl, -⟩ := front_succ.mp h
      simp

theorem Front.labels_nodup (h : Front children label root k p v) : (p.map label).Nodup := by
  induction k generalizing p v with
  | zero => rw [h.1]; simp
  | succ k ih =>
      obtain ⟨q, u, hq, -, hlabel, rfl, -⟩ := front_succ.mp h
      rw [List.map_append, List.nodup_append]
      refine ⟨ih hq, by simp, fun a ha b hb heq => hlabel ?_⟩
      have hb : b = label v := by simpa using hb
      exact hb ▸ heq ▸ ha

theorem Front.walk (h : Front children label root k p v) : Walk children root p v := by
  induction k generalizing p v with
  | zero =>
      obtain ⟨rfl, rfl⟩ := h
      exact .start
  | succ k ih =>
      obtain ⟨q, u, hq, hchild, -, rfl, -⟩ := front_succ.mp h
      exact .step (ih hq) hchild

/-- Every initial part of a front is a front, and is followed by its
next step. -/
theorem Front.take (h : Front children label root k p v) (hj : j ≤ k) :
    ∃ u, Front children label root j (p.take (j + 1)) u := by
  induction k generalizing p v with
  | zero =>
      obtain rfl : j = 0 := by omega
      obtain ⟨rfl, rfl⟩ := h
      exact ⟨v, rfl, rfl⟩
  | succ k ih =>
      rcases Nat.lt_or_ge j (k + 1) with hlt | hge
      · obtain ⟨q, u, hq, -, -, rfl, -⟩ := front_succ.mp h
        rw [List.take_append_of_le_length (by rw [hq.length]; omega)]
        exact ih hq (by omega)
      · obtain rfl : j = k + 1 := by omega
        rw [List.take_of_length_le (by rw [h.length])]
        exact ⟨v, h⟩

/-- The step that follows an initial part. -/
theorem Front.next (h : Front children label root k p v) (hj : j < k)
    (hu : Front children label root j (p.take (j + 1)) u) :
    ∃ w, Front children label root (j + 1) (p.take (j + 2)) w ∧ w ∈ children u
      ∧ label w ∉ (p.take (j + 1)).map label ∧ p.take (j + 2) = p.take (j + 1) ++ [w]
      ∧ ¬Within children label root j w := by
  obtain ⟨w, hw⟩ := h.take (j := j + 1) (by omega)
  obtain ⟨q, u', hq, hchild, hlabel, hpath, hfresh⟩ := front_succ.mp hw
  have hlen := hq.length
  have hinit : p.take (j + 1) = q := by
    have htake := congrArg (List.take (j + 1)) hpath
    rwa [List.take_take, Nat.min_eq_left (by omega), List.take_append_of_le_length (by omega),
      List.take_of_length_le (l := q) (by omega)] at htake
  subst hinit
  have hlast := hu.last
  rw [hq.last] at hlast
  cases hlast
  exact ⟨w, hw, hchild, hlabel, hpath, hfresh⟩

/-- The order of the adjacency lists plays no part. -/
theorem fronts_congr {children' : α → List α} (h : ∀ u c, c ∈ children' u ↔ c ∈ children u) :
    fronts children' label root = fronts children label root := by
  funext k
  induction k with
  | zero => rfl
  | succ k ih => simp only [fronts, ih, h]

end Fronts

section Kept

variable {children : α → List α} {label : α → β} {root : α} {done todo : List (α × List α)}

omit [DecidableEq α] [DecidableEq β] in
theorem GuardInv.eq_of_fst (h : GuardInv children label root done todo) {a b : α × List α}
    (ha : a ∈ done ++ todo) (hb : b ∈ done ++ todo) (heq : a.1 = b.1) : a = b :=
  List.inj_on_of_nodup_map h.nodup ha hb heq

omit [DecidableEq α] [DecidableEq β] in
theorem GuardInv.length_pos (h : GuardInv children label root done todo) {entry : α × List α}
    (hentry : entry ∈ done ++ todo) : 0 < entry.2.length := by
  rcases h.parents entry hentry with rfl | ⟨_, -, hpath, -⟩
  · simp
  · rw [hpath]; simp

omit [DecidableEq α] [DecidableEq β] in
/-- As far as the fronts agree, the paths kept are fronts and every
front leads to a node that is met with as many steps. -/
theorem levels (h : GuardInv children label root done todo) {k : ℕ}
    (hdone : ∀ entry ∈ done ++ todo, entry.2.length ≤ k → entry ∈ done)
    (hagree : ∀ j < k, Agrees children label root j) :
    (∀ entry ∈ done ++ todo, entry.2.length = k + 1 → Front children label root k entry.2 entry.1)
      ∧ ∀ p v, Front children label root k p v →
        ∃ entry ∈ done ++ todo, entry.1 = v ∧ entry.2.length = k + 1 := by
  induction k using Nat.strong_induction_on with
  | _ k ih =>
      have hbelow : ∀ j < k,
          (∀ entry ∈ done ++ todo, entry.2.length = j + 1 →
            Front children label root j entry.2 entry.1)
          ∧ ∀ p v, Front children label root j p v →
            ∃ entry ∈ done ++ todo, entry.1 = v ∧ entry.2.length = j + 1 :=
        fun j hj => ih j hj (fun entry hentry hle => hdone entry hentry (by omega))
          fun i hi => hagree i (by omega)
      cases k with
      | zero =>
          refine ⟨fun entry hentry hlen => ?_, fun p v hfront => ?_⟩
          · rcases h.parents entry hentry with rfl | ⟨parent, hparent, hpath, -⟩
            · exact ⟨rfl, rfl⟩
            · have hpos := h.length_pos (List.mem_append_left _ hparent)
              rw [hpath, List.length_append, List.length_singleton] at hlen
              omega
          · obtain ⟨rfl, rfl⟩ := hfront
            exact ⟨_, h.start, rfl, rfl⟩
      | succ k =>
          obtain ⟨hkept, hmet⟩ := hbelow k (by omega)
          refine ⟨fun entry hentry hlen => ?_, fun p v hfront => ?_⟩
          · rcases h.parents entry hentry with rfl | ⟨parent, hparent, hpath, hchild, hlabel⟩
            · simp at hlen
            · have hlen' : parent.2.length = k + 1 := by
                rw [hpath, List.length_append, List.length_singleton] at hlen
                omega
              refine front_succ.mpr ⟨parent.2, parent.1,
                hkept parent (List.mem_append_left _ hparent) hlen', hchild, hlabel, hpath, ?_⟩
              intro hwithin
              obtain ⟨j, hj, p, hp⟩ := within_iff.mp hwithin
              obtain ⟨found, hfound, heq, hlength⟩ := (hbelow j (by omega)).2 p _ hp
              rw [h.eq_of_fst hfound hentry heq] at hlength
              omega
          · obtain ⟨q, u, hq, hchild, hlabel, rfl, hnew⟩ := front_succ.mp hfront
            obtain ⟨parent, hparent, rfl, hlen⟩ := hmet q u hq
            have hfront' := hkept parent hparent hlen
            have hallowed : label v ∉ parent.2.map label := fun hmem =>
              hlabel (hagree k (by omega) _ _ _ hfront' hq v hchild hmem)
            obtain ⟨found, hfound, rfl, hle⟩ := h.closed parent
              (hdone parent hparent (by omega)) v hchild hallowed
            refine ⟨found, hfound, rfl, ?_⟩
            -- a shorter kept path would be a front of an earlier level
            by_contra hne
            have hpos := h.length_pos hfound
            obtain ⟨j, hj⟩ : ∃ j, found.2.length = j + 1 := ⟨found.2.length - 1, by omega⟩
            exact hnew (within_iff.mpr ⟨j, by omega, _, (hbelow j (by omega)).1 found hfound hj⟩)

omit [DecidableEq α] [DecidableEq β] in
/-- Shorter paths have been processed. -/
theorem GuardInv.processed {parent : α × List α} {rest : List (α × List α)}
    (h : GuardInv children label root done (parent :: rest)) {entry : α × List α}
    (hentry : entry ∈ done ++ parent :: rest) (hlt : entry.2.length < parent.2.length) :
    entry ∈ done := by
  rcases List.mem_append.mp hentry with hmem | hmem
  · exact hmem
  · have hsorted := (List.pairwise_append.mp h.sorted).2.1
    rcases List.mem_cons.mp hmem with rfl | hrest
    · omega
    · have hle := (List.pairwise_cons.mp hsorted).1 entry hrest
      omega

omit [DecidableEq α] [DecidableEq β] in
/-- Paths are one step longer than processed ones. -/
theorem GuardInv.length_le (h : GuardInv children label root done todo) {i : ℕ}
    (hdone : ∀ entry ∈ done, entry.2.length ≤ i) :
    ∀ entry ∈ done ++ todo, entry.2.length ≤ i + 1 := by
  intro entry hentry
  rcases h.parents entry hentry with rfl | ⟨parent, hparent, hpath, -⟩
  · simp
  · have hle := hdone parent hparent
    rw [hpath, List.length_append, List.length_singleton]
    omega

omit [DecidableEq α] [DecidableEq β] in
/-- A node beyond level `i` is not met by paths of fewer steps. -/
theorem GuardInv.not_met (h : GuardInv children label root done todo) {i : ℕ} {w : α}
    (hfresh : ¬Within children label root i w)
    (hshort : ∀ entry ∈ done ++ todo, entry.2.length ≤ i + 1)
    (hdone : ∀ entry ∈ done ++ todo, entry.2.length ≤ i → entry ∈ done)
    (hagree : ∀ j < i, Agrees children label root j) : w ∉ (done ++ todo).map (·.1) := by
  intro hmem
  obtain ⟨found, hfound, rfl⟩ := List.mem_map.mp hmem
  have hle := hshort found hfound
  have hpos := h.length_pos hfound
  obtain ⟨j, hj⟩ : ∃ j, found.2.length = j + 1 := ⟨found.2.length - 1, by omega⟩
  have hlevel := (levels h (k := j) (fun entry hentry hle' => hdone entry hentry (by omega))
    fun l hl => hagree l (by omega)).1 found hfound hj
  exact hfresh (within_iff.mpr ⟨j, by omega, found.2, hlevel⟩)

/-- The search is on its way along the front `p`: some initial part is
the first path of its length in the queue, and still waiting unless it
is all of `p`. -/
def OnFront (children : α → List α) (label : α → β) (root : α) (k : ℕ) (p : List α)
    (done todo : List (α × List α)) : Prop :=
  ∃ i ≤ k, ∃ before after u, Front children label root i (p.take (i + 1)) u
    ∧ done ++ todo = before ++ (u, p.take (i + 1)) :: after
    ∧ (∀ entry ∈ before, entry.2.length ≤ i) ∧ (i < k → done.length ≤ before.length)

/-- The steps of the path are listed first. -/
def ListsFirst (children : α → List α) (p : List α) : Prop :=
  ∀ q u w, (q ++ [u]) ++ [w] <+: p → (children u).head? = some w

theorem OnFront.expand {k : ℕ} {p : List α} {v : α} {parent : α × List α}
    {rest : List (α × List α)} {new : List α} (hfront : Front children label root k p v)
    (hfirst : ListsFirst children p) (hagree : ∀ j < k, Agrees children label root j)
    (h : GuardInv children label root done (parent :: rest))
    (hnew : Discovered label parent (done ++ parent :: rest) (children parent.1) new)
    (hon : OnFront children label root k p done (parent :: rest)) :
    OnFront children label root k p (done ++ [parent]) (rest ++ entries parent new) := by
  have hassoc : (done ++ [parent]) ++ (rest ++ entries parent new)
      = (done ++ parent :: rest) ++ entries parent new := by simp
  obtain ⟨i, hi, before, after, u, hu, hqueue, hbefore, hwaiting⟩ := hon
  by_cases hnext : i < k ∧ done.length = before.length
  · -- the path so far is processed now, and its next step listed first
    obtain ⟨hlt, hlen⟩ := hnext
    obtain ⟨rfl, htodo⟩ := List.append_inj hqueue hlen
    obtain ⟨rfl, rfl⟩ := List.cons.inj htodo
    obtain ⟨w, hw, hchild, hlabel, hpath, hfresh⟩ := hfront.next hlt hu
    have hshort := h.length_le hbefore
    have hunknown : w ∉ (done ++ (u, p.take (i + 1)) :: rest).map (·.1) := by
      refine h.not_met hfresh hshort (fun entry hentry hle => h.processed hentry ?_)
        fun j hj => hagree j (by omega)
      rw [hu.length]
      omega
    have hmem : w ∈ new := (hnew.mem w).mpr ⟨hchild, hlabel, hunknown⟩
    have hhead : (children u).head? = some w := by
      obtain ⟨q, hq⟩ := List.getLast?_eq_some_iff.mp hu.last
      exact hfirst q u w (by rw [← hq, ← hpath]; exact List.take_prefix _ _)
    obtain ⟨more, rfl⟩ := List.head?_eq_some_iff.mp (hnew.first w hhead hmem)
    refine ⟨i + 1, by omega, done ++ (u, p.take (i + 1)) :: rest,
      entries (u, p.take (i + 1)) more, w, hw, ?_, hshort, fun _ => ?_⟩
    · rw [hassoc, hpath]
      simp [entries]
    · simp
  · refine ⟨i, hi, before, after ++ entries parent new, u, hu, ?_, hbefore, fun hlt => ?_⟩
    · rw [hassoc, hqueue]
      simp
    · have hle := hwaiting hlt
      have hne : done.length ≠ before.length := fun heq => hnext ⟨hlt, heq⟩
      rw [List.length_append, List.length_singleton]
      omega

end Kept

section Finished

variable {children : α → List α} {label : α → β} {root : α} (nodes : List α) {fuel : ℕ}

/-- The queue of a finished search. -/
theorem search_guarded (hnodes : ∀ node ∈ nodes, ∀ child ∈ children node, child ∈ nodes)
    (hroot : root ∈ nodes) (hfuel : nodes.length ≤ fuel) :
    GuardInv children label root (search children label fuel 0 [(root, [root])]) [] := by
  have h := GuardInv.search (Q := fun _ _ => True) hnodes (fun _ _ _ _ _ _ _ => trivial) fuel
    (by simpa using hfuel) (guardInv_init children label root) trivial
    (fun entry hentry => by rw [List.mem_singleton.mp hentry]; exact hroot)
  exact h.1

/-- A front whose steps are listed first is kept. -/
theorem kept_of_first (hnodes : ∀ node ∈ nodes, ∀ child ∈ children node, child ∈ nodes)
    (hroot : root ∈ nodes) (hfuel : nodes.length ≤ fuel) {k : ℕ} {p : List α} {v : α}
    (hfront : Front children label root k p v) (hfirst : ListsFirst children p)
    (hagree : ∀ j < k, Agrees children label root j) :
    (v, p) ∈ search children label fuel 0 [(root, [root])] := by
  have hstart : OnFront children label root k p [] [(root, [root])] := by
    obtain ⟨u, hu⟩ := hfront.take (Nat.zero_le k)
    have hpath : p.take 1 = [root] ∧ u = root := hu
    refine ⟨0, Nat.zero_le k, [], [], u, hu, ?_, by simp, fun _ => le_rfl⟩
    rw [hpath.1, hpath.2]
  obtain ⟨-, i, hi, before, after, u, hu, hqueue, -, hwaiting⟩ :=
    GuardInv.search (Q := OnFront children label root k p) hnodes
      (fun _ _ _ _ h hnew hon => hon.expand hfront hfirst hagree h hnew) fuel
      (by simpa using hfuel) (guardInv_init children label root) hstart
      (fun entry hentry => by rw [List.mem_singleton.mp hentry]; exact hroot)
  -- nothing waits any more, so the whole front has been followed
  have hlen := congrArg List.length hqueue
  simp only [List.length_append, List.length_cons, List.length_nil] at hlen hwaiting
  obtain rfl : i = k := by
    by_contra hne
    have hle := hwaiting (by omega)
    omega
  rw [List.take_of_length_le (by rw [hfront.length])] at hu hqueue
  have hlast := hu.last
  rw [hfront.last] at hlast
  cases hlast
  rw [List.append_nil] at hqueue
  have hmem : (v, p) ∈ before ++ (v, p) :: after := by simp
  rwa [← hqueue] at hmem

end Finished

end GuardedSearch
