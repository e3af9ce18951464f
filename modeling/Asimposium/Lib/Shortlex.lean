import Mathlib.Data.List.Lex
import Mathlib.Data.Prod.Lex
import Mathlib.Data.String.Basic

/-!
# Shortlex order and least elements

Lists ordered by length first and lexicographically second. The order is
carried by a key into the lexicographic product `ℕ ×ₗ List α`, so that
its order theory is that of a linear order and nothing is proved twice.

Two facts connect it to programs: joining strings with a separator that
is below all their characters preserves the lexicographic order of lists
of one length (`join_lt_iff`), and a fold that keeps the smaller of two
candidates ends in a least one (`foldl_least`).
-/

namespace Shortlex

variable {α : Type*} [LinearOrder α]

/-- The key of a list: its length, then the list itself. -/
def shortlex (p : List α) : ℕ ×ₗ List α := toLex (p.length, p)

omit [LinearOrder α] in
theorem shortlex_injective : Function.Injective (shortlex (α := α)) := fun _ _ h =>
  congrArg (fun key => (ofLex key).2) h

variable {p q : List α}

theorem shortlex_lt : shortlex p < shortlex q ↔ p.length < q.length ∨ p.length = q.length ∧ p < q :=
  Prod.Lex.toLex_lt_toLex

theorem shortlex_le : shortlex p ≤ shortlex q ↔ p.length < q.length ∨ p.length = q.length ∧ p ≤ q :=
  Prod.Lex.toLex_le_toLex

theorem length_le_of_shortlex (h : shortlex p ≤ shortlex q) : p.length ≤ q.length := by
  rcases shortlex_le.mp h with hlt | ⟨heq, -⟩
  · exact hlt.le
  · exact heq.le

theorem shortlex_lt_of_length (h : p.length < q.length) :
    shortlex p < shortlex q := shortlex_lt.mpr (.inl h)

/-! ## Appending -/

theorem append_lt_append (r s : List α) (hlen : p.length = q.length) (h : p < q) :
    p ++ r < q ++ s := by
  induction p generalizing q with
  | nil =>
      cases q with
      | nil => exact absurd h (lt_irrefl _)
      | cons b q => cases hlen
  | cons a p ih =>
      cases q with
      | nil => cases hlen
      | cons b q =>
          rw [List.cons_append, List.cons_append, List.cons_lt_cons_iff]
          rcases List.cons_lt_cons_iff.mp h with hab | ⟨rfl, htail⟩
          · exact .inl hab
          · exact .inr ⟨rfl, ih (Nat.succ.inj hlen) htail⟩

theorem append_lt_append_left (p : List α) {r s : List α} (h : r < s) : p ++ r < p ++ s := by
  induction p with
  | nil => exact h
  | cons a p ih => exact List.cons_lt_cons_iff.mpr (.inr ⟨rfl, ih⟩)

/-- A smaller prefix decides, whatever follows on one step. -/
theorem shortlex_snoc_lt (a b : α) (h : shortlex p < shortlex q) :
    shortlex (p ++ [a]) < shortlex (q ++ [b]) := by
  rw [shortlex_lt] at h ⊢
  rcases h with hlen | ⟨hlen, hlt⟩
  · left; simpa using hlen
  · right
    exact ⟨by simpa using hlen, append_lt_append _ _ hlen hlt⟩

theorem shortlex_snoc_lt_of_eq (p : List α) {a b : α} (h : a < b) :
    shortlex (p ++ [a]) < shortlex (p ++ [b]) := by
  rw [shortlex_lt]
  right
  exact ⟨by simp, append_lt_append_left p (List.cons_lt_cons_iff.mpr (.inl h))⟩

theorem shortlex_snoc_le (a : α) (h : shortlex p ≤ shortlex q) :
    shortlex (p ++ [a]) ≤ shortlex (q ++ [a]) := by
  rcases h.lt_or_eq with hlt | heq
  · exact (shortlex_snoc_lt a a hlt).le
  · rw [shortlex_injective heq]

/-- Least prefixes and least continuations make least wholes. -/
theorem shortlex_append_le {r s : List α} (h : shortlex p ≤ shortlex q)
    (h' : shortlex r ≤ shortlex s) : shortlex (p ++ r) ≤ shortlex (q ++ s) := by
  rcases shortlex_le.mp h with hlen | ⟨hlen, hle⟩
  · have hlen' := length_le_of_shortlex h'
    refine (shortlex_lt_of_length ?_).le
    rw [List.length_append, List.length_append]
    omega
  · rcases hle.lt_or_eq with hlt | rfl
    · rcases (length_le_of_shortlex h').lt_or_eq with hlen' | hlen'
      · refine (shortlex_lt_of_length ?_).le
        rw [List.length_append, List.length_append]
        omega
      · refine (shortlex_lt.mpr (.inr ⟨?_, append_lt_append r s hlen hlt⟩)).le
        rw [List.length_append, List.length_append]
        omega
    · rcases shortlex_le.mp h' with hlen' | ⟨hlen', hle'⟩
      · refine (shortlex_lt_of_length ?_).le
        rw [List.length_append, List.length_append]
        omega
      · rcases hle'.lt_or_eq with hlt' | rfl
        · refine (shortlex_lt.mpr (.inr ⟨?_, append_lt_append_left p hlt'⟩)).le
          rw [List.length_append, List.length_append]
          omega
        · exact le_rfl

/-- A common first element does not matter. -/
theorem shortlex_drop_le {a : α} (hp : ∃ r, p = a :: r) (hq : ∃ r, q = a :: r)
    (h : shortlex p ≤ shortlex q) : shortlex (p.drop 1) ≤ shortlex (q.drop 1) := by
  obtain ⟨r, rfl⟩ := hp
  obtain ⟨s, rfl⟩ := hq
  rw [shortlex_le] at h ⊢
  rcases h with hlen | ⟨hlen, hle⟩
  · left; simpa using hlen
  · right
    refine ⟨by simpa using hlen, ?_⟩
    rcases hle.lt_or_eq with hlt | heq
    · rcases List.cons_lt_cons_iff.mp hlt with hab | ⟨-, htail⟩
      · exact absurd hab (lt_irrefl a)
      · exact htail.le
    · exact (List.cons.inj heq).2.le

/-! ## Joined strings -/

theorem append_sep_lt_iff {sep : α} {a b r s : List α} (ha : ∀ c ∈ a, sep < c)
    (hb : ∀ c ∈ b, sep < c) :
    a ++ sep :: r < b ++ sep :: s ↔ a < b ∨ a = b ∧ r < s := by
  induction a generalizing b with
  | nil =>
      cases b with
      | nil => simp
      | cons y b =>
          have hy := hb y (List.mem_cons_self ..)
          simp [List.cons_lt_cons_iff, hy]
  | cons x a ih =>
      have hx := ha x (List.mem_cons_self ..)
      cases b with
      | nil => simp [List.cons_lt_cons_iff, hx.not_gt, hx.ne']
      | cons y b =>
          have htail := ih (fun c hc => ha c (List.mem_cons_of_mem _ hc))
            (fun c hc => hb c (List.mem_cons_of_mem _ hc))
          rw [List.cons_append, List.cons_append, List.cons_lt_cons_iff, htail,
            List.cons_lt_cons_iff, List.cons.injEq]
          tauto

omit [LinearOrder α] in
theorem intercalate_cons_cons (sep : α) (a b : List α) (p : List (List α)) :
    List.intercalate [sep] (a :: b :: p) = a ++ sep :: List.intercalate [sep] (b :: p) := by
  simp [List.intercalate, List.intersperse]

/-- Joining with a separator below every character of the words keeps
the lexicographic order of lists of one length. -/
theorem intercalate_lt_iff {sep : α} {p q : List (List α)} (hlen : p.length = q.length)
    (hp : ∀ word ∈ p, ∀ c ∈ word, sep < c) (hq : ∀ word ∈ q, ∀ c ∈ word, sep < c) :
    List.intercalate [sep] p < List.intercalate [sep] q ↔ p < q := by
  induction p generalizing q with
  | nil =>
      cases q with
      | nil => simp
      | cons b q => cases hlen
  | cons a p ih =>
      cases q with
      | nil => cases hlen
      | cons b q =>
          have htail := ih (Nat.succ.inj hlen)
            (fun word hword => hp word (List.mem_cons_of_mem _ hword))
            (fun word hword => hq word (List.mem_cons_of_mem _ hword))
          rw [List.cons_lt_cons_iff]
          cases p with
          | nil =>
              cases q with
              | nil => simp [List.intercalate]
              | cons b' q => cases hlen
          | cons a' p =>
              cases q with
              | nil => cases hlen
              | cons b' q =>
                  rw [intercalate_cons_cons, intercalate_cons_cons,
                    append_sep_lt_iff (hp a (List.mem_cons_self ..))
                      (hq b (List.mem_cons_self ..)), htail]

theorem map_toList_lt_iff {p q : List String} :
    p.map String.toList < q.map String.toList ↔ p < q := by
  induction p generalizing q with
  | nil => cases q <;> simp
  | cons a p ih =>
      cases q with
      | nil => simp
      | cons b q =>
          rw [List.map_cons, List.map_cons, List.cons_lt_cons_iff, List.cons_lt_cons_iff, ih,
            String.lt_iff_toList_lt, String.toList_inj]

theorem join_lt_iff {sep : Char} {p q : List String} (hlen : p.length = q.length)
    (hp : ∀ word ∈ p, ∀ c ∈ word.toList, sep < c)
    (hq : ∀ word ∈ q, ∀ c ∈ word.toList, sep < c) :
    String.intercalate (String.singleton sep) p < String.intercalate (String.singleton sep) q
      ↔ p < q := by
  have hwords : ∀ {l : List String}, (∀ word ∈ l, ∀ c ∈ word.toList, sep < c) →
      ∀ word ∈ l.map String.toList, ∀ c ∈ word, sep < c := by
    intro l hl word hword
    obtain ⟨source, hsource, rfl⟩ := List.mem_map.mp hword
    exact hl source hsource
  rw [String.lt_iff_toList_lt, String.toList_intercalate, String.toList_intercalate,
    String.toList_singleton, intercalate_lt_iff (by simpa using hlen) (hwords hp) (hwords hq),
    map_toList_lt_iff]

/-! ## Least elements of a fold -/

section Least

variable {β κ : Type*} [LinearOrder κ] (key : β → κ)

/-- A fold that keeps the candidate with the smaller key ends in a least
element. The step only has to behave so on the elements at hand. -/
theorem foldl_least (step : β → β → β) (candidates : List β) (first : β)
    (hstep : ∀ a ∈ first :: candidates, ∀ b ∈ first :: candidates,
      step a b = if key b < key a then b else a) :
    candidates.foldl step first ∈ first :: candidates
      ∧ ∀ candidate ∈ first :: candidates, key (candidates.foldl step first) ≤ key candidate := by
  induction candidates generalizing first with
  | nil => simp
  | cons candidate rest ih =>
      have hkept := hstep first (by simp) candidate (by simp)
      have hmember : step first candidate ∈ first :: candidate :: rest := by
        rw [hkept]
        split <;> simp
      have hsub : ∀ a ∈ step first candidate :: rest, a ∈ first :: candidate :: rest := by
        intro a ha
        rcases List.mem_cons.mp ha with rfl | hrest
        · exact hmember
        · simp [hrest]
      obtain ⟨hmem, hle⟩ := ih (step first candidate)
        fun a ha b hb => hstep a (hsub a ha) b (hsub b hb)
      have hbest := hle _ (List.mem_cons_self ..)
      refine ⟨hsub _ hmem, fun other hother => ?_⟩
      rw [List.foldl_cons]
      have hboth : key (step first candidate) ≤ key first
          ∧ key (step first candidate) ≤ key candidate := by
        rw [hkept]
        split
        · exact ⟨le_of_lt ‹_›, le_rfl⟩
        · exact ⟨le_rfl, not_lt.mp ‹_›⟩
      rcases List.mem_cons.mp hother with rfl | hother
      · exact hbest.trans hboth.1
      · rcases List.mem_cons.mp hother with rfl | hother
        · exact hbest.trans hboth.2
        · exact hle other (List.mem_cons_of_mem _ hother)

/-- The same for a fold that starts without a candidate. -/
theorem foldl_least? (step : Option β → β → Option β) (candidates : List β)
    (hnone : ∀ b, step none b = some b)
    (hsome : ∀ a ∈ candidates, ∀ b ∈ candidates,
      step (some a) b = if key b < key a then some b else some a) :
    match candidates.foldl step none with
    | none => candidates = []
    | some best => best ∈ candidates ∧ ∀ candidate ∈ candidates, key best ≤ key candidate := by
  cases candidates with
  | nil => rfl
  | cons first rest =>
      have hfold : ∀ (l : List β) (a : β), (∀ b ∈ a :: l, b ∈ first :: rest) →
          l.foldl step (some a)
            = some (l.foldl (fun a b => if key b < key a then b else a) a) := by
        intro l
        induction l with
        | nil => intro a _; rfl
        | cons b l ih =>
            intro a hl
            rw [List.foldl_cons, List.foldl_cons, hsome a (hl a (by simp)) b (hl b (by simp))]
            split
            · exact ih b fun c hc => hl c (List.mem_cons_of_mem _ hc)
            · refine ih a fun c hc => hl c ?_
              rcases List.mem_cons.mp hc with rfl | hc
              · simp
              · simp [hc]
      rw [List.foldl_cons, hnone, hfold rest first fun b hb => hb]
      exact foldl_least key _ rest first fun a _ b _ => rfl

end Least

end Shortlex
