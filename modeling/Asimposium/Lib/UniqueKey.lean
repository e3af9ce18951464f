import Asimposium.Lib.ExceptRun
import Mathlib.Data.List.Nodup

/-!
# Lists with a unique key

Elements that are told apart by a key `f`: looking one up finds the one element
of that key, in whatever order the list is, and a loop that adds one element
after another and refuses a key it has is a check of each element and of the
keys.
-/

namespace UniqueKey

variable {α κ ε : Type} [BEq κ] [LawfulBEq κ] {f : α → κ}

variable {l : List α}

theorem find?_eq_some (h : (l.map f).Nodup) {k : κ} {a : α} :
    l.find? (fun b => f b == k) = some a ↔ a ∈ l ∧ f a = k := by
  constructor
  · intro hfound
    exact ⟨List.mem_of_find?_eq_some hfound,
      beq_iff_eq.mp (List.find?_some (p := fun b => f b == k) hfound)⟩
  · rintro ⟨hmem, rfl⟩
    cases hfound : l.find? (fun b => f b == f a) with
    | none =>
        have hnone := List.find?_eq_none.mp hfound a hmem
        rw [beq_self_eq_true] at hnone
        exact absurd rfl hnone
    | some b =>
        have hkey : f b = f a :=
          beq_iff_eq.mp (List.find?_some (p := fun b => f b == f a) hfound)
        exact congrArg some
          (List.inj_on_of_nodup_map h (List.mem_of_find?_eq_some hfound) hmem hkey)

/-- The order of the list does not matter. -/
theorem find?_perm {l' : List α} (hperm : l.Perm l') (h : (l.map f).Nodup) (k : κ) :
    l.find? (fun b => f b == k) = l'.find? (fun b => f b == k) := by
  have h' : (l'.map f).Nodup := (hperm.map f).nodup_iff.mp h
  refine Option.ext fun a => ?_
  rw [find?_eq_some h, find?_eq_some h', hperm.mem_iff]

/-- A loop that refuses a second element of a key. -/
theorem run_add {add : List α → α → Except ε (List α)} {good : α → Prop}
    (hadd : ∀ seen a next, add seen a = .ok next
      ↔ next = seen ++ [a] ∧ good a ∧ seen.any (fun b => f b == f a) = false)
    {seen all : List α} :
    List.foldlM add seen l = .ok all
      ↔ all = seen ++ l ∧ (∀ a ∈ l, good a) ∧ (l.map f).Nodup
        ∧ ∀ a ∈ l, ∀ b ∈ seen, f b ≠ f a := by
  induction l generalizing seen with
  | nil =>
      rw [ExceptRun.run_nil_ok, List.append_nil]
      exact ⟨fun h => ⟨h.symm, List.forall_mem_nil _, List.nodup_nil, List.forall_mem_nil _⟩,
        fun h => h.1.symm⟩
  | cons a l ih =>
      rw [ExceptRun.run_cons_ok]
      constructor
      · rintro ⟨next, hnext, hrest⟩
        obtain ⟨rfl, hgood, hfresh⟩ := (hadd seen a next).mp hnext
        obtain ⟨rfl, hgoods, hnodup, hdisjoint⟩ := ih.mp hrest
        have hnew : ∀ b ∈ seen, f b ≠ f a := fun b hb heq =>
          Bool.false_ne_true (hfresh.symm.trans (List.any_eq_true.mpr ⟨b, hb, beq_iff_eq.mpr heq⟩))
        refine ⟨by rw [List.append_assoc]; rfl, List.forall_mem_cons.mpr ⟨hgood, hgoods⟩, ?_,
          List.forall_mem_cons.mpr ⟨hnew, fun c hc b hb =>
            hdisjoint c hc b (List.mem_append_left _ hb)⟩⟩
        rw [List.map_cons, List.nodup_cons]
        refine ⟨fun hmem => ?_, hnodup⟩
        obtain ⟨c, hc, heq⟩ := List.mem_map.mp hmem
        exact hdisjoint c hc a (List.mem_append_right _ List.mem_cons_self) heq.symm
      · rintro ⟨rfl, hgoods, hnodup, hdisjoint⟩
        rw [List.map_cons, List.nodup_cons] at hnodup
        rw [List.forall_mem_cons] at hgoods hdisjoint
        refine ⟨seen ++ [a], (hadd seen a _).mpr ⟨rfl, hgoods.1, ?_⟩,
          ih.mpr ⟨by rw [List.append_assoc]; rfl, hgoods.2, hnodup.2, fun c hc b hb heq => ?_⟩⟩
        · rw [List.any_eq_false]
          intro b hb heq
          exact hdisjoint.1 b hb (beq_iff_eq.mp heq)
        · rcases List.mem_append.mp hb with hb | hb
          · exact hdisjoint.2 c hc b hb heq
          · rw [List.mem_singleton.mp hb] at heq
            exact hnodup.1 (heq ▸ List.mem_map_of_mem hc)

/-- The loop from its start. -/
theorem run_add_nil {add : List α → α → Except ε (List α)} {good : α → Prop}
    (hadd : ∀ seen a next, add seen a = .ok next
      ↔ next = seen ++ [a] ∧ good a ∧ seen.any (fun b => f b == f a) = false)
    {all : List α} :
    List.foldlM add [] l = .ok all ↔ all = l ∧ (∀ a ∈ l, good a) ∧ (l.map f).Nodup := by
  rw [run_add hadd]
  exact ⟨fun h => ⟨h.1, h.2.1, h.2.2.1⟩,
    fun h => ⟨h.1, h.2.1, h.2.2, fun _ _ b hb => by cases hb⟩⟩

end UniqueKey
