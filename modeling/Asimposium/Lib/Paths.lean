import Mathlib.Data.List.Infix
import Mathlib.Data.List.Nodup

/-!
# Trees of separated names

A name is a list with separators between its pieces, and its ancestors are
what stands before each separator. A list of names, each that of a file or
of a directory, is a tree when no name is used twice and no file is an
ancestor of a name.
-/

namespace Asimposium.Paths

section Paths

variable {α : Type} (sep : α)

def IsAncestor (a b : List α) : Prop := a ++ [sep] <+: b

variable {sep}

theorem not_isAncestor_self (a : List α) : ¬IsAncestor sep a a := by
  intro h
  have hlength := h.length_le
  rw [List.length_append, List.length_singleton] at hlength
  omega

/-! ## Trees -/

variable (sep) in
/-- Names, each with whether it is a directory's. -/
structure Tree (nodes : List (List α × Bool)) : Prop where
  distinct : (nodes.map (·.1)).Nodup
  leaves : ∀ a ∈ nodes, ∀ b ∈ nodes, a.2 = false → ¬IsAncestor sep a.1 b.1

theorem Tree.nil : Tree sep ([] : List (List α × Bool)) where
  distinct := List.nodup_nil
  leaves := fun a ha => by cases ha

/-- A new name that no name needs as a directory if it is a file's, and that
stands under no file. -/
theorem Tree.snoc {nodes : List (List α × Bool)} (h : Tree sep nodes) {node : List α × Bool}
    (hfresh : node.1 ∉ nodes.map (·.1))
    (hleaf : node.2 = false → ∀ b ∈ nodes, ¬IsAncestor sep node.1 b.1)
    (hplace : ∀ a ∈ nodes, a.2 = false → ¬IsAncestor sep a.1 node.1) :
    Tree sep (nodes ++ [node]) where
  distinct := by
    rw [List.map_append, List.map_singleton]
    exact List.nodup_append.mpr ⟨h.distinct, List.nodup_singleton _, fun a ha b hb heq => by
      rw [List.mem_singleton.mp hb] at heq
      exact hfresh (heq ▸ ha)⟩
  leaves := by
    intro a ha b hb hfile
    rcases List.mem_append.mp ha with ha | ha <;> rcases List.mem_append.mp hb with hb | hb
    · exact h.leaves a ha b hb hfile
    · rw [List.mem_singleton.mp hb]
      exact hplace a ha hfile
    · rw [List.mem_singleton.mp ha] at hfile ⊢
      exact hleaf hfile b hb
    · rw [List.mem_singleton.mp ha, List.mem_singleton.mp hb]
      exact not_isAncestor_self _

end Paths

end Asimposium.Paths
