import Mathlib.Data.List.Range

/-!
# Hash chains

A log whose entries carry a digest that is computed from the digest of
the entry before. `tip` is the digest the next entry has to extend.
-/

namespace HashChain

variable {α δ : Type*} {link : δ → α → δ} {digest : α → δ}

/-- The digest of the last entry, or the one the chain starts from. -/
def tip (digest : α → δ) (genesis : δ) (log : List α) : δ :=
  (log.getLast?.map digest).getD genesis

/-- Every entry extends the one before. -/
def Linked (link : δ → α → δ) (digest : α → δ) : δ → List α → Prop
  | _, [] => True
  | prior, a :: rest => digest a = link prior a ∧ Linked link digest (digest a) rest

variable {genesis : δ}

@[simp] theorem tip_nil : tip digest genesis [] = genesis := rfl

variable {log : List α}

@[simp] theorem tip_snoc {a : α} : tip digest genesis (log ++ [a]) = digest a := by
  simp [tip]

theorem tip_cons {a : α} : tip digest genesis (a :: log) = tip digest (digest a) log := by
  cases log with
  | nil => rfl
  | cons b rest =>
      rw [tip, tip, List.getLast?_cons_cons, List.getLast?_eq_getLast_of_ne_nil (by simp)]
      rfl

theorem tip_append {later : List α} :
    tip digest genesis (log ++ later) = tip digest (tip digest genesis log) later := by
  induction log generalizing genesis with
  | nil => rfl
  | cons a rest ih => rw [List.cons_append, tip_cons, tip_cons, ih]

/-- An entry may be appended when it extends the tip. -/
theorem linked_snoc {a : α} :
    Linked link digest genesis (log ++ [a]) ↔
      Linked link digest genesis log ∧ digest a = link (tip digest genesis log) a := by
  induction log generalizing genesis with
  | nil => simp [Linked]
  | cons b rest ih =>
      rw [List.cons_append, Linked, Linked, ih, tip_cons, and_assoc]

theorem linked_append {later : List α} :
    Linked link digest genesis (log ++ later) ↔
      Linked link digest genesis log ∧ Linked link digest (tip digest genesis log) later := by
  induction log generalizing genesis with
  | nil => simp [Linked]
  | cons a rest ih => rw [List.cons_append, Linked, Linked, ih, tip_cons, and_assoc]

/-- The links of a chain, by position. -/
theorem Linked.getElem (h : Linked link digest genesis log) {i : Nat} (hi : i < log.length) :
    digest log[i] = link (tip digest genesis (log.take i)) log[i] := by
  induction log generalizing genesis i with
  | nil => cases hi
  | cons a rest ih =>
      cases i with
      | zero => exact h.1
      | succ i =>
          rw [List.getElem_cons_succ, List.take_succ_cons, tip_cons]
          exact ih h.2 (by simpa using hi)

end HashChain
