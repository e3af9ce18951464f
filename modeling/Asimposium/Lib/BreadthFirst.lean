import Mathlib.Data.List.Perm.Subperm
import Asimposium.Lib.Shortlex

/-!
# Breadth-first search finds least walks

A queue-based breadth-first search over adjacency lists that are sorted
and without duplicates. The queue is the list of discovered nodes in the
order of discovery, each with the walk by which it was first reached;
an index separates the processed part from the waiting part.

The search meets nodes in the shortlex order of their least walks. That
is the invariant (`SearchInv`): every recorded walk is least, the walks
increase along the queue, and the processed part has no undiscovered
child. A child discovered next extends the least waiting walk, and
`SearchInv.frontier` says that any walk to anything not processed is at
least that long. The outcome is `search_spec`.
-/

namespace BreadthFirst

open Shortlex

variable {α : Type*}

/-! ## Walks -/

/-- A walk of the graph from the root, listed root first. -/
inductive Walk (edges : α → List α) (root : α) : List α → α → Prop
  | start : Walk edges root [root] root
  | step {p : List α} {u c : α} : Walk edges root p u → c ∈ edges u → Walk edges root (p ++ [c]) c

/-- Some walk leads there. -/
def Reach (edges : α → List α) (root t : α) : Prop := ∃ p, Walk edges root p t

namespace Walk

variable {edges : α → List α} {root t u : α} {p q : List α}

theorem head (h : Walk edges root p t) : ∃ q, p = root :: q := by
  induction h with
  | start => exact ⟨[], rfl⟩
  | step _ _ ih =>
      obtain ⟨q, rfl⟩ := ih
      exact ⟨_, rfl⟩

theorem last (h : Walk edges root p t) : p.getLast? = some t := by
  cases h <;> simp

theorem ne_nil (h : Walk edges root p t) : p ≠ [] := by
  obtain ⟨q, rfl⟩ := h.head
  exact List.cons_ne_nil _ _

theorem append (h : Walk edges root p t) (h' : Walk edges t (t :: q) u) :
    Walk edges root (p ++ q) u := by
  generalize hl : t :: q = l at h'
  induction h' generalizing q with
  | start =>
      obtain rfl : q = [] := by simpa using hl
      rwa [List.append_nil]
  | step hwalk hedge ih =>
      obtain ⟨rest, rfl⟩ := hwalk.head
      obtain rfl : q = rest ++ [_] := by simpa using hl
      rw [← List.append_assoc]
      exact .step (ih rfl) hedge

theorem mono {edges' : α → List α} (hsub : ∀ x, edges x ⊆ edges' x) (h : Walk edges root p t) :
    Walk edges' root p t := by
  induction h with
  | start => exact .start
  | step _ hedge ih => exact .step ih (hsub _ hedge)

end Walk

/-- A walk back to its start along at least one edge. -/
def ClosedWalk (edges : α → List α) (t : α) (q : List α) : Prop :=
  Walk edges t q t ∧ 1 < q.length

theorem closedWalk_iff {edges : α → List α} {t : α} {q : List α} :
    ClosedWalk edges t q ↔ ∃ p u, Walk edges t p u ∧ t ∈ edges u ∧ q = p ++ [t] := by
  constructor
  · rintro ⟨hwalk, hlen⟩
    cases hwalk with
    | start => simp at hlen
    | step hwalk hedge => exact ⟨_, _, hwalk, hedge, rfl⟩
  · rintro ⟨p, u, hwalk, hedge, rfl⟩
    refine ⟨hwalk.step hedge, ?_⟩
    have hpos := List.length_pos_iff.mpr hwalk.ne_nil
    rw [List.length_append, List.length_singleton]
    omega

theorem Reach.refl (edges : α → List α) (root : α) : Reach edges root root := ⟨_, .start⟩

theorem Reach.trans {edges : α → List α} {root t u : α} (h : Reach edges root t)
    (h' : Reach edges t u) : Reach edges root u := by
  obtain ⟨p, hp⟩ := h
  obtain ⟨q, hq⟩ := h'
  obtain ⟨rest, rfl⟩ := hq.head
  exact ⟨_, hp.append hq⟩

/-- What holds of the root and is passed on by every edge holds of
everything reached. -/
theorem Reach.induct {edges : α → List α} {root t : α} {P : α → Prop} (h : Reach edges root t)
    (hroot : P root) (hstep : ∀ u c, P u → c ∈ edges u → P c) : P t := by
  obtain ⟨p, hp⟩ := h
  induction hp with
  | start => exact hroot
  | step _ hedge ih => exact hstep _ _ ih hedge

/-! ## The search -/

variable [LinearOrder α]

/-- Discover one child of the parent. -/
def discover (parent : α × List α) (paths : List (α × List α)) (child : α) :
    List (α × List α) :=
  if child ∈ paths.map (·.1) then paths else paths ++ [(child, parent.2 ++ [child])]

/-- Discover the children of the parent, in order. -/
def expand (edges : α → List α) (paths : List (α × List α)) (parent : α × List α) :
    List (α × List α) :=
  (edges parent.1).foldl (discover parent) paths

/-- Process the queue from the index on. -/
def search (edges : α → List α) : Nat → Nat → List (α × List α) → List (α × List α)
  | 0, _, paths => paths
  | fuel + 1, index, paths =>
      match paths[index]? with
      | none => paths
      | some parent => search edges fuel (index + 1) (expand edges paths parent)

/-- A walk that is least among the walks to its end. -/
structure LeastWalk (edges : α → List α) (root : α) (p : List α) (t : α) : Prop where
  walk : Walk edges root p t
  least : ∀ q, Walk edges root q t → shortlex p ≤ shortlex q

/-- No walk comes before the one that stays at the root. -/
theorem Walk.start_le {edges : α → List α} {root t : α} {p : List α} (h : Walk edges root p t) :
    shortlex [root] ≤ shortlex p := by
  obtain ⟨rest, rfl⟩ := h.head
  rw [shortlex_le]
  cases rest with
  | nil => exact .inr ⟨rfl, le_rfl⟩
  | cons c rest => left; simp

theorem leastWalk_start (edges : α → List α) (root : α) : LeastWalk edges root [root] root :=
  ⟨.start, fun _ hq => hq.start_le⟩

/-- The invariant of the search, with the queue cut into what has been
processed and what is waiting. `seen` are the children of the first
waiting node that have been looked at. -/
structure SearchInv (edges : α → List α) (root : α) (done todo : List (α × List α))
    (seen : List α) : Prop where
  start : (root, [root]) ∈ done ++ todo
  walks : ∀ entry ∈ done ++ todo, LeastWalk edges root entry.2 entry.1
  sorted : (done ++ todo).Pairwise fun left right => shortlex left.2 < shortlex right.2
  closed : ∀ entry ∈ done, ∀ child ∈ edges entry.1, child ∈ (done ++ todo).map (·.1)
  looked : ∀ child ∈ seen, child ∈ (done ++ todo).map (·.1)
  parents : ∀ entry ∈ done ++ todo, entry = (root, [root])
    ∨ (∃ parent ∈ done, entry.2 = parent.2 ++ [entry.1])
    ∨ ∃ parent rest, todo = parent :: rest ∧ entry.2 = parent.2 ++ [entry.1] ∧ entry.1 ∈ seen

section Search

variable {edges : α → List α} {root : α} {done todo : List (α × List α)} {seen : List α}

theorem searchInv_init (edges : α → List α) (root : α) :
    SearchInv edges root [] [(root, [root])] [] where
  start := List.mem_singleton.mpr rfl
  walks _ hentry := List.mem_singleton.mp hentry ▸ leastWalk_start edges root
  sorted := List.pairwise_singleton _ _
  closed _ hentry := (List.not_mem_nil hentry).elim
  looked _ hchild := (List.not_mem_nil hchild).elim
  parents _ hentry := .inl (List.mem_singleton.mp hentry)

/-- A walk that leaves the processed part is no shorter than something
waiting. -/
theorem SearchInv.frontier (h : SearchInv edges root done todo seen) {q : List α} {w : α}
    (hq : Walk edges root q w) :
    w ∈ done.map (·.1) ∨ (∃ entry ∈ todo, entry.1 = w ∧ shortlex entry.2 ≤ shortlex q)
      ∨ ∃ entry ∈ todo, entry.2.length < q.length := by
  have hwaiting : ∀ {q w}, Walk edges root q w → w ∈ (done ++ todo).map (·.1) →
      w ∈ done.map (·.1) ∨ ∃ entry ∈ todo, entry.1 = w ∧ shortlex entry.2 ≤ shortlex q := by
    intro q w hq hw
    obtain ⟨entry, hentry, rfl⟩ := List.mem_map.mp hw
    rcases List.mem_append.mp hentry with hdone | htodo
    · exact .inl (List.mem_map_of_mem hdone)
    · exact .inr ⟨entry, htodo, rfl, (h.walks entry hentry).least q hq⟩
  induction hq with
  | start =>
      rcases hwaiting .start (List.mem_map_of_mem h.start) with hdone | htodo
      · exact .inl hdone
      · exact .inr (.inl htodo)
  | @step q u c hwalk hedge ih =>
      rcases ih with hdone | ⟨entry, hentry, -, hle⟩ | ⟨entry, hentry, hlt⟩
      · obtain ⟨parent, hparent, rfl⟩ := List.mem_map.mp hdone
        rcases hwaiting (hwalk.step hedge) (h.closed parent hparent c hedge) with hdone | htodo
        · exact .inl hdone
        · exact .inr (.inl htodo)
      · refine .inr (.inr ⟨entry, hentry, ?_⟩)
        have hlen := length_le_of_shortlex hle
        rw [List.length_append, List.length_singleton]
        omega
      · refine .inr (.inr ⟨entry, hentry, ?_⟩)
        rw [List.length_append, List.length_singleton]
        omega

variable {parent : α × List α} {rest : List (α × List α)}

/-- A child not met before is reached by a least walk through the first
waiting node. -/
theorem SearchInv.least_child {child : α} (h : SearchInv edges root done (parent :: rest) seen)
    (hedge : child ∈ edges parent.1) (hnew : child ∉ (done ++ parent :: rest).map (·.1)) :
    LeastWalk edges root (parent.2 ++ [child]) child := by
  have hparent : parent ∈ done ++ parent :: rest := by simp
  refine ⟨(h.walks parent hparent).walk.step hedge, fun q hq => ?_⟩
  have hfirst : ∀ entry ∈ parent :: rest, shortlex parent.2 ≤ shortlex entry.2 := by
    intro entry hentry
    rcases List.mem_cons.mp hentry with rfl | hrest
    · exact le_rfl
    · exact le_of_lt ((List.pairwise_cons.mp (List.pairwise_append.mp h.sorted).2.1).1 entry hrest)
  cases hq with
  | start => exact absurd (List.mem_map_of_mem h.start) hnew
  | @step q u _ hwalk hlast =>
      rcases h.frontier hwalk with hdone | ⟨entry, hentry, rfl, hle⟩ | ⟨entry, hentry, hlt⟩
      · obtain ⟨processed, hprocessed, rfl⟩ := List.mem_map.mp hdone
        exact absurd (h.closed processed hprocessed child hlast) hnew
      · exact shortlex_snoc_le child ((hfirst entry hentry).trans hle)
      · refine (shortlex_lt_of_length ?_).le
        have hlen := length_le_of_shortlex (hfirst entry hentry)
        simp only [List.length_append, List.length_singleton]
        omega

theorem SearchInv.discover {child : α} (h : SearchInv edges root done (parent :: rest) seen)
    (hedge : child ∈ edges parent.1) (hseen : ∀ earlier ∈ seen, earlier < child) :
    ∃ rest', BreadthFirst.discover parent (done ++ parent :: rest) child = done ++ parent :: rest'
      ∧ SearchInv edges root done (parent :: rest') (seen ++ [child]) := by
  unfold BreadthFirst.discover
  by_cases hmet : child ∈ (done ++ parent :: rest).map (·.1)
  · rw [if_pos hmet]
    refine ⟨rest, rfl, h.start, h.walks, h.sorted, h.closed, fun other hother => ?_, ?_⟩
    · rcases List.mem_append.mp hother with hother | hother
      · exact h.looked other hother
      · rw [List.mem_singleton.mp hother]; exact hmet
    · intro entry hentry
      rcases h.parents entry hentry with hroot | hdone | ⟨first, tail, heq, hpath, hlooked⟩
      · exact .inl hroot
      · exact .inr (.inl hdone)
      · exact .inr (.inr ⟨first, tail, heq, hpath, List.mem_append_left _ hlooked⟩)
  · rw [if_neg hmet]
    have hleast := h.least_child hedge hmet
    have hmem : ∀ {entry}, entry ∈ done ++ parent :: (rest ++ [(child, parent.2 ++ [child])]) →
        entry ∈ done ++ parent :: rest ∨ entry = (child, parent.2 ++ [child]) := by
      intro entry hentry
      rw [show done ++ parent :: (rest ++ [(child, parent.2 ++ [child])])
        = (done ++ parent :: rest) ++ [(child, parent.2 ++ [child])] by simp] at hentry
      rcases List.mem_append.mp hentry with hold | hnew
      · exact .inl hold
      · exact .inr (List.mem_singleton.mp hnew)
    have hold : ∀ {entry}, entry ∈ done ++ parent :: rest →
        entry ∈ done ++ parent :: (rest ++ [(child, parent.2 ++ [child])]) := by
      intro entry hentry
      rw [show done ++ parent :: (rest ++ [(child, parent.2 ++ [child])])
        = (done ++ parent :: rest) ++ [(child, parent.2 ++ [child])] by simp]
      exact List.mem_append_left _ hentry
    have hkeys : ∀ {node}, node ∈ (done ++ parent :: rest).map (·.1) →
        node ∈ (done ++ parent :: (rest ++ [(child, parent.2 ++ [child])])).map (·.1) := by
      intro node hnode
      obtain ⟨entry, hentry, rfl⟩ := List.mem_map.mp hnode
      exact List.mem_map_of_mem (hold hentry)
    refine ⟨rest ++ [(child, parent.2 ++ [child])], by simp, hold h.start, ?_, ?_, ?_, ?_, ?_⟩
    · intro entry hentry
      rcases hmem hentry with hentry | rfl
      · exact h.walks entry hentry
      · exact hleast
    · rw [show done ++ parent :: (rest ++ [(child, parent.2 ++ [child])])
        = (done ++ parent :: rest) ++ [(child, parent.2 ++ [child])] by simp, List.pairwise_append]
      refine ⟨h.sorted, List.pairwise_singleton _ _, fun entry hentry last hlast => ?_⟩
      rw [List.mem_singleton.mp hlast]
      -- the parent of an older entry comes no later than this one
      rcases h.parents entry hentry with rfl | ⟨processed, hprocessed, hpath⟩
        | ⟨first, tail, heq, hpath, hlooked⟩
      · refine shortlex_lt_of_length ?_
        have hne := (h.walks parent (by simp)).walk.ne_nil
        have hpos := List.length_pos_iff.mpr hne
        simp only [List.length_append, List.length_singleton]
        omega
      · rw [hpath]
        exact shortlex_snoc_lt _ _
          ((List.pairwise_append.mp h.sorted).2.2 processed hprocessed parent (by simp))
      · obtain ⟨rfl, rfl⟩ := List.cons.inj heq
        rw [hpath]
        exact shortlex_snoc_lt_of_eq _ (hseen entry.1 hlooked)
    · intro entry hentry other hother
      exact hkeys (h.closed entry hentry other hother)
    · intro other hother
      rcases List.mem_append.mp hother with hother | hother
      · exact hkeys (h.looked other hother)
      · rw [List.mem_singleton.mp hother]
        simp
    · intro entry hentry
      rcases hmem hentry with hentry | rfl
      · rcases h.parents entry hentry with hroot | hdone | ⟨first, tail, heq, hpath, hlooked⟩
        · exact .inl hroot
        · exact .inr (.inl hdone)
        · obtain ⟨rfl, rfl⟩ := List.cons.inj heq
          exact .inr (.inr ⟨parent, _, rfl, hpath, List.mem_append_left _ hlooked⟩)
      · exact .inr (.inr ⟨parent, _, rfl, rfl,
          List.mem_append_right _ (List.mem_singleton.mpr rfl)⟩)

/-- Looking at the remaining children of the first waiting node. -/
theorem SearchInv.foldl_discover {children : List α}
    (h : SearchInv edges root done (parent :: rest) seen)
    (hedges : ∀ child ∈ children, child ∈ edges parent.1)
    (hsorted : (seen ++ children).Pairwise (· < ·)) :
    ∃ rest', children.foldl (BreadthFirst.discover parent) (done ++ parent :: rest)
        = done ++ parent :: rest'
      ∧ SearchInv edges root done (parent :: rest') (seen ++ children) := by
  induction children generalizing rest seen with
  | nil => exact ⟨rest, rfl, by rwa [List.append_nil]⟩
  | cons child children ih =>
      obtain ⟨rest₁, heq, h₁⟩ := h.discover (hedges child (List.mem_cons_self ..))
        (fun earlier hearlier =>
          (List.pairwise_append.mp hsorted).2.2 earlier hearlier child (List.mem_cons_self ..))
      obtain ⟨rest₂, heq₂, h₂⟩ := ih h₁
        (fun other hother => hedges other (List.mem_cons_of_mem _ hother)) (by simpa using hsorted)
      exact ⟨rest₂, by rw [List.foldl_cons, heq, heq₂], by simpa using h₂⟩

/-- Processing the first waiting node. -/
theorem SearchInv.expand (hsorted : (edges parent.1).Pairwise (· < ·))
    (h : SearchInv edges root done (parent :: rest) []) :
    ∃ rest', BreadthFirst.expand edges (done ++ parent :: rest) parent
        = (done ++ [parent]) ++ rest'
      ∧ SearchInv edges root (done ++ [parent]) rest' [] := by
  obtain ⟨rest', heq, h'⟩ := h.foldl_discover (fun child hchild => hchild) hsorted
  have hassoc : done ++ parent :: rest' = (done ++ [parent]) ++ rest' := by simp
  refine ⟨rest', heq.trans hassoc, ?_⟩
  refine ⟨hassoc ▸ h'.start, hassoc ▸ h'.walks, hassoc ▸ h'.sorted, ?_, ?_, ?_⟩
  · intro entry hentry child hchild
    rw [← hassoc]
    rcases List.mem_append.mp hentry with hdone | hlast
    · exact h'.closed entry hdone child hchild
    · rw [List.mem_singleton.mp hlast] at hchild
      exact h'.looked child hchild
  · intro child hchild
    cases hchild
  · intro entry hentry
    rw [← hassoc] at hentry
    rcases h'.parents entry hentry with hroot | ⟨processed, hprocessed, hpath⟩
      | ⟨first, tail, hfirst, hpath, -⟩
    · exact .inl hroot
    · exact .inr (.inl ⟨processed, List.mem_append_left _ hprocessed, hpath⟩)
    · obtain ⟨rfl, rfl⟩ := List.cons.inj hfirst
      exact .inr (.inl ⟨parent, by simp, hpath⟩)

/-- Recorded nodes are distinct: their walks are. -/
theorem SearchInv.nodup (h : SearchInv edges root done todo seen) :
    ((done ++ todo).map (·.1)).Nodup := by
  rw [List.Nodup, List.pairwise_map]
  refine h.sorted.imp_of_mem fun {left right} hleft hright hlt heq => ?_
  have hwalk := (h.walks left hleft).walk
  rw [heq] at hwalk
  exact absurd ((h.walks right hright).least _ hwalk) (not_le.mpr hlt)

/-- With enough fuel for the nodes still unknown the search processes
the whole queue. -/
theorem SearchInv.search {nodes : List α} (hsorted : ∀ node, (edges node).Pairwise (· < ·))
    (hnodes : ∀ node, Reach edges root node → node ∈ nodes) {fuel : Nat}
    (hfuel : nodes.length ≤ fuel + done.length) (h : SearchInv edges root done todo []) :
    SearchInv edges root (BreadthFirst.search edges fuel done.length (done ++ todo)) [] [] := by
  induction fuel generalizing done todo with
  | zero =>
      have hsub : (done ++ todo).map (·.1) ⊆ nodes := by
        intro node hnode
        obtain ⟨entry, hentry, rfl⟩ := List.mem_map.mp hnode
        exact hnodes _ ⟨_, (h.walks entry hentry).walk⟩
      have hlen := (List.subperm_of_subset h.nodup hsub).length_le
      simp only [List.length_map, List.length_append] at hlen
      obtain rfl : todo = [] := List.eq_nil_of_length_eq_zero (by omega)
      simpa [BreadthFirst.search] using h
  | succ fuel ih =>
      cases todo with
      | nil => simpa [BreadthFirst.search] using h
      | cons parent rest =>
          obtain ⟨rest', heq, h'⟩ := h.expand (hsorted parent.1)
          have hhead : (done ++ parent :: rest)[done.length]? = some parent := by simp
          simp only [BreadthFirst.search, hhead, heq]
          have hfuel' : nodes.length ≤ fuel + (done ++ [parent]).length := by
            rw [List.length_append, List.length_singleton]
            omega
          have htail := ih hfuel' h'
          rwa [List.length_append, List.length_singleton] at htail

end Search

/-- Enough fuel: the outcome lists every node in reach, once, with its
least walk, and nothing else. -/
theorem search_spec {edges : α → List α} {root : α} {nodes : List α} {fuel : Nat}
    (hsorted : ∀ node, (edges node).Pairwise (· < ·))
    (hnodes : ∀ node, Reach edges root node → node ∈ nodes)
    (hfuel : nodes.length ≤ fuel) :
    (∀ entry ∈ search edges fuel 0 [(root, [root])], LeastWalk edges root entry.2 entry.1)
      ∧ ∀ node, Reach edges root node →
        ∃ p, (node, p) ∈ search edges fuel 0 [(root, [root])] := by
  have h := (searchInv_init edges root).search hsorted hnodes (by simpa using hfuel)
  rw [List.length_nil, List.nil_append] at h
  refine ⟨fun entry hentry => h.walks entry (List.mem_append_left _ hentry), fun node hnode => ?_⟩
  have hmem : node ∈ (search edges fuel 0 [(root, [root])]).map (·.1) := by
    refine hnode.induct ?_ fun u c hu hedge => ?_
    · have hstart := h.start
      rw [List.append_nil] at hstart
      exact List.mem_map_of_mem hstart
    · obtain ⟨entry, hentry, rfl⟩ := List.mem_map.mp hu
      have hclosed := h.closed entry hentry c hedge
      rwa [List.append_nil] at hclosed
  obtain ⟨entry, hentry, rfl⟩ := List.mem_map.mp hmem
  exact ⟨entry.2, hentry⟩

end BreadthFirst
