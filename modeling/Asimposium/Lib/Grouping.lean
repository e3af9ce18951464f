import Mathlib

/-!
# Groups by a key

A list cut into groups, one for each key, by going through it once: the
first element of a key opens its group, and each later one is added to it.
The groups are the elements of their key in the order of the list, and what
is counted in them adds up to what is counted in the list.
-/

namespace Grouping

variable {α κ : Type*} [DecidableEq κ]

/-- One element is added to its group. -/
def add (key : κ) (a : α) : List (κ × List α) → List (κ × List α)
  | [] => [(key, [a])]
  | (k, group) :: groups =>
      if k = key then (k, group ++ [a]) :: groups else (k, group) :: add key a groups

def groups (key : α → κ) (l : List α) : List (κ × List α) :=
  l.foldl (fun groups a => add (key a) a groups) []

theorem groups_append (key : α → κ) (l : List α) (a : α) :
    groups key (l ++ [a]) = add (key a) a (groups key l) := by
  rw [groups, List.foldl_append]
  rfl

theorem sum_add (p : α → Bool) (key : κ) (a : α) (groups : List (κ × List α)) :
    ((add key a groups).map fun g => g.2.countP p).sum
      = (groups.map fun g => g.2.countP p).sum + [a].countP p := by
  induction groups with
  | nil => exact Nat.add_comm _ _
  | cons g groups ih =>
      obtain ⟨k, group⟩ := g
      rw [add]
      split
      · simp only [List.map_cons, List.sum_cons, List.countP_append]
        omega
      · simp only [List.map_cons, List.sum_cons, ih]
        omega

/-- The counts of the groups add up. -/
theorem sum_countP (key : α → κ) (p : α → Bool) (l : List α) :
    ((groups key l).map fun g => g.2.countP p).sum = l.countP p := by
  induction l using List.reverseRecOn with
  | nil => rfl
  | append_singleton l a ih => rw [groups_append, sum_add, ih, List.countP_append]

theorem keys_add (key : κ) (a : α) (groups : List (κ × List α)) :
    (add key a groups).map Prod.fst
      = if key ∈ groups.map Prod.fst then groups.map Prod.fst else groups.map Prod.fst ++ [key] := by
  induction groups with
  | nil => rfl
  | cons g groups ih =>
      obtain ⟨k, group⟩ := g
      rw [add, List.map_cons]
      by_cases hk : k = key
      · rw [if_pos hk, if_pos (hk ▸ List.mem_cons_self), List.map_cons]
      · rw [if_neg hk, List.map_cons, ih]
        by_cases hmem : key ∈ groups.map Prod.fst
        · rw [if_pos hmem, if_pos (List.mem_cons_of_mem _ hmem)]
        · rw [if_neg hmem, if_neg fun h => (List.mem_cons.mp h).elim (fun h => hk h.symm) hmem]
          rfl

/-- Each key has one group. -/
theorem nodup_keys (key : α → κ) (l : List α) : ((groups key l).map Prod.fst).Nodup := by
  induction l using List.reverseRecOn with
  | nil => exact List.nodup_nil
  | append_singleton l a ih =>
      rw [groups_append, keys_add]
      split
      · exact ih
      · rename_i hnot
        exact List.nodup_append.mpr ⟨ih, List.nodup_singleton _, fun b hb c hc heq =>
          hnot (List.mem_singleton.mp hc ▸ heq ▸ hb)⟩

theorem mem_add {key k : κ} {a : α} {group : List α} {groups : List (κ × List α)}
    (hnodup : (groups.map Prod.fst).Nodup) (h : (k, group) ∈ add key a groups) :
    (k = key ∧ (∃ before, (k, before) ∈ groups ∧ group = before ++ [a]))
      ∨ (k = key ∧ key ∉ groups.map Prod.fst ∧ group = [a])
      ∨ (k ≠ key ∧ (k, group) ∈ groups) := by
  induction groups with
  | nil =>
      rw [add, List.mem_singleton] at h
      cases h
      exact .inr (.inl ⟨rfl, List.not_mem_nil, rfl⟩)
  | cons g groups ih =>
      obtain ⟨k', group'⟩ := g
      rw [List.map_cons, List.nodup_cons] at hnodup
      rw [add] at h
      split at h
      · rename_i hk
        rcases List.mem_cons.mp h with h | h
        · cases h
          exact .inl ⟨hk, group', List.mem_cons_self, rfl⟩
        · refine .inr (.inr ⟨fun hkey => hnodup.1 ?_, List.mem_cons_of_mem _ h⟩)
          exact List.mem_map.mpr ⟨(k, group), h, hkey.trans hk.symm⟩
      · rename_i hk
        rcases List.mem_cons.mp h with h | h
        · cases h
          exact .inr (.inr ⟨hk, List.mem_cons_self⟩)
        · rcases ih hnodup.2 h with ⟨rfl, before, hbefore, hgroup⟩ | ⟨rfl, hnot, hgroup⟩ | ⟨hne, hmem⟩
          · exact .inl ⟨rfl, before, List.mem_cons_of_mem _ hbefore, hgroup⟩
          · refine .inr (.inl ⟨rfl, fun hmem => ?_, hgroup⟩)
            rcases List.mem_cons.mp hmem with heq | hmem
            · exact hk heq.symm
            · exact hnot hmem
          · exact .inr (.inr ⟨hne, List.mem_cons_of_mem _ hmem⟩)

/-- The keys are those of the elements. -/
theorem mem_keys {key : α → κ} {l : List α} {k : κ} :
    k ∈ (groups key l).map Prod.fst ↔ k ∈ l.map key := by
  induction l using List.reverseRecOn with
  | nil => exact Iff.rfl
  | append_singleton l a ih =>
      rw [groups_append, keys_add, List.map_append, List.mem_append, ← ih]
      split
      · rename_i hmem
        exact ⟨.inl, fun h => h.elim id fun h => List.mem_singleton.mp h ▸ hmem⟩
      · exact List.mem_append

/-- A group holds the elements of its key, in their order. -/
theorem group_eq {key : α → κ} {l : List α} {k : κ} {group : List α}
    (h : (k, group) ∈ groups key l) : group = l.filter fun a => key a = k := by
  induction l using List.reverseRecOn generalizing k group with
  | nil => cases h
  | append_singleton l a ih =>
      have hself : [a].filter (fun b => decide (key b = key a)) = [a] := by simp
      rw [groups_append] at h
      rw [List.filter_append]
      rcases mem_add (nodup_keys key l) h with
        ⟨rfl, before, hbefore, rfl⟩ | ⟨rfl, hnot, rfl⟩ | ⟨hne, hmem⟩
      · rw [ih hbefore, hself]
      · have hnone : l.filter (fun b => key b = key a) = [] := by
          refine List.filter_eq_nil_iff.mpr fun b hb heq => hnot ?_
          rw [mem_keys]
          exact List.mem_map.mpr ⟨b, hb, of_decide_eq_true heq⟩
        rw [hnone, hself, List.nil_append]
      · rw [ih hmem, List.filter_cons_of_neg (by simpa using hne.symm), List.filter_nil,
          List.append_nil]

end Grouping

/-!
## Sorting by a key

`List.insertionSort` under a Boolean comparison that compares keys in a
linear order. Sorting then is a matter of the keys alone: what is sorted is
in the order of its keys, and lists with the same elements of some kind,
told apart by their keys, keep these elements in one order.
-/

namespace KeyedSort

variable {α β : Type*} [LinearOrder β] {key : α → β} {le : α → α → Bool}

/-- A comparison of keys. -/
def Compares (le : α → α → Bool) (key : α → β) : Prop := ∀ a b, le a b = true ↔ key a ≤ key b

/-- A sorted list is in the order of its keys. -/
theorem pairwise_insertionSort (h : Compares le key) (l : List α) :
    (l.insertionSort fun a b => le a b = true).Pairwise fun a b => key a ≤ key b := by
  have : Std.Total fun a b => le a b = true := ⟨fun a b => by
    rw [h a b, h b a]
    exact le_total (key a) (key b)⟩
  have : IsTrans α fun a b => le a b = true := ⟨fun a b c hab hbc =>
    (h a c).mpr (((h a b).mp hab).trans ((h b c).mp hbc))⟩
  exact (List.pairwise_insertionSort (fun a b => le a b = true) l).imp fun hab => (h _ _).mp hab

/-- Lists in the order of their keys, with the same elements, are equal
when their keys tell the elements apart. -/
theorem eq_of_perm {l l' : List α} (hperm : l.Perm l')
    (hinjective : ∀ a ∈ l, ∀ b ∈ l, key a = key b → a = b)
    (hl : l.Pairwise fun a b => key a ≤ key b) (hl' : l'.Pairwise fun a b => key a ≤ key b) :
    l = l' := by
  refine List.Perm.eq_of_pairwise (fun a b ha hb hab hba => ?_) hl hl' hperm
  exact hinjective a ha b (hperm.mem_iff.mpr hb) (le_antisymm hab hba)

/-- The elements of one kind come out of the sort in one order. -/
theorem filter_insertionSort (h : Compares le key) {p : α → Bool}
    (hinjective : ∀ a b, p a = true → p b = true → key a = key b → a = b) {l l' : List α}
    (hfilter : l.filter p = l'.filter p) :
    (l.insertionSort fun a b => le a b = true).filter p
      = (l'.insertionSort fun a b => le a b = true).filter p := by
  have hperm : ((l.insertionSort fun a b => le a b = true).filter p).Perm
      ((l'.insertionSort fun a b => le a b = true).filter p) := by
    have hl := (List.perm_insertionSort (fun a b => le a b = true) l).filter p
    have hl' := (List.perm_insertionSort (fun a b => le a b = true) l').filter p
    rw [hfilter] at hl
    exact hl.trans hl'.symm
  refine eq_of_perm hperm (fun a ha b hb => ?_) ((pairwise_insertionSort h l).filter p)
    ((pairwise_insertionSort h l').filter p)
  exact hinjective a b (List.of_mem_filter ha) (List.of_mem_filter hb)

end KeyedSort
