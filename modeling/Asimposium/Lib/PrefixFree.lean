import Mathlib.Data.List.Basic
import Mathlib.Logic.Function.Basic

/-!
# Prefix-free codes

A code is prefix-free when the code of a value can be split off the front of
any longer list. Pairs, lists of a known length and blocks after their length
keep it.
-/

/-- The code of a value and what follows it are read off a list. -/
def PrefixFree {α β : Type*} (code : α → List β) : Prop :=
  ∀ ⦃a a' : α⦄ ⦃s s' : List β⦄, code a ++ s = code a' ++ s' → a = a' ∧ s = s'

namespace PrefixFree

variable {α α' β : Type*}

/-- Lists that are cut at the first place of an element. -/
theorem append_cons_cancel {x : β} {front front' back back' : List β}
    (hfront : x ∉ front) (hfront' : x ∉ front') (h : front ++ x :: back = front' ++ x :: back') :
    front = front' ∧ back = back' := by
  induction front generalizing front' with
  | nil =>
      cases front' with
      | nil => exact ⟨rfl, (List.cons.inj h).2⟩
      | cons a rest => exact absurd ((List.cons.inj h).1 ▸ List.mem_cons_self ..) hfront'
  | cons a rest ih =>
      cases front' with
      | nil => exact absurd ((List.cons.inj h).1 ▸ List.mem_cons_self ..) hfront
      | cons a' rest' =>
          obtain ⟨rfl, htail⟩ := List.cons.inj h
          obtain ⟨rfl, hback⟩ := ih (fun hx => hfront (List.mem_cons_of_mem _ hx))
            (fun hx => hfront' (List.mem_cons_of_mem _ hx)) htail
          exact ⟨rfl, hback⟩

variable {code : α → List β}

/-- A code followed by an element that it never holds. -/
theorem terminated {x : β} (hinjective : Function.Injective code) (hnot : ∀ a, x ∉ code a) :
    PrefixFree fun a => code a ++ [x] := by
  intro a a' s s' h
  rw [List.append_assoc, List.append_assoc] at h
  obtain ⟨hcode, hrest⟩ := append_cons_cancel (hnot a) (hnot a') h
  exact ⟨hinjective hcode, hrest⟩

/-- A constant before the code. -/
theorem preceded (h : PrefixFree code) (front : List β) : PrefixFree fun a => front ++ code a := by
  intro a a' s s' heq
  rw [List.append_assoc, List.append_assoc] at heq
  exact h (List.append_cancel_left heq)

/-- A constant after the code. -/
theorem followed (h : PrefixFree code) (back : List β) : PrefixFree fun a => code a ++ back := by
  intro a a' s s' heq
  rw [List.append_assoc, List.append_assoc] at heq
  obtain ⟨hcode, hrest⟩ := h heq
  exact ⟨hcode, List.append_cancel_left hrest⟩

theorem prod {code' : α' → List β} (h : PrefixFree code) (h' : PrefixFree code') :
    PrefixFree fun p : α × α' => code p.1 ++ code' p.2 := by
  rintro ⟨a, b⟩ ⟨a', b'⟩ s s' heq
  rw [List.append_assoc, List.append_assoc] at heq
  obtain ⟨rfl, heq⟩ := h heq
  obtain ⟨rfl, hrest⟩ := h' heq
  exact ⟨rfl, hrest⟩

/-- A block after the code of its length. -/
theorem measured {size : ℕ → List β} (h : PrefixFree size) :
    PrefixFree fun block : List β => size block.length ++ block := by
  intro block block' s s' heq
  rw [List.append_assoc, List.append_assoc] at heq
  obtain ⟨hlength, heq⟩ := h heq
  exact List.append_inj heq hlength

/-- Lists of one length are read off code by code. -/
theorem flatMap (h : PrefixFree code) {l l' : List α} (hlength : l.length = l'.length)
    {s s' : List β} (heq : l.flatMap code ++ s = l'.flatMap code ++ s') : l = l' ∧ s = s' := by
  induction l generalizing l' with
  | nil =>
      cases l' with
      | nil => exact ⟨rfl, heq⟩
      | cons a' l' => cases hlength
  | cons a l ih =>
      cases l' with
      | nil => cases hlength
      | cons a' l' =>
          rw [List.flatMap_cons, List.flatMap_cons, List.append_assoc, List.append_assoc] at heq
          obtain ⟨rfl, htail⟩ := h heq
          obtain ⟨rfl, hrest⟩ := ih (Nat.succ.inj hlength) htail
          exact ⟨rfl, hrest⟩

theorem eq_of_flatMap (h : PrefixFree code) {l l' : List α} (hlength : l.length = l'.length)
    (heq : l.flatMap code = l'.flatMap code) : l = l' := by
  have hnil : l.flatMap code ++ [] = l'.flatMap code ++ [] := by rw [heq]
  exact (h.flatMap hlength hnil).1

/-- No code is empty, and a list of any length is read off. -/
theorem flatMap_injective (h : PrefixFree code) (hne : ∀ a, code a ≠ []) :
    Function.Injective fun l : List α => l.flatMap code := by
  intro l l' heq
  induction l generalizing l' with
  | nil =>
      cases l' with
      | nil => rfl
      | cons a' l' => exact absurd (List.append_eq_nil_iff.mp heq.symm).1 (hne a')
  | cons a l ih =>
      cases l' with
      | nil => exact absurd (List.append_eq_nil_iff.mp heq).1 (hne a)
      | cons a' l' =>
          obtain ⟨rfl, htail⟩ := h heq
          rw [ih htail]

end PrefixFree
