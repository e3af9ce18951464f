import Mathlib.Data.List.DropRight
import Mathlib.Data.List.Infix

/-!
# Words between separators

A list is read as words with separators around and between them: `words`
are its maximal runs of elements that are not separators. `Line ws l` says
the same from the other side: `l` is the segments `ws`, with separators
between them and perhaps around them. The two agree when the segments are
words (`words_eq_iff`), and a segment that is no word (the rest of a line)
is still found, after the words before it (`words_cons`, `strip_spec`).
-/

namespace Asimposium.Words

section Words

variable {α : Type} (sep : α → Bool)

/-- The maximal runs of elements that are not separators. -/
def words (l : List α) : List (List α) := (l.splitOnP sep).filter fun w => !w.isEmpty

/-- A list without the separators around it. -/
def strip (l : List α) : List α := (l.dropWhile sep).rdropWhile sep

structure IsWord (w : List α) : Prop where
  nonempty : w ≠ []
  clean : ∀ a ∈ w, sep a = false

/-- The segments, one after the other, with separators between them. -/
inductive Spaced : List (List α) → List α → Prop
  | one (w : List α) : Spaced [w] w
  | cons (w gap : List α) {ws : List (List α)} {rest : List α} (hgap : gap ≠ [])
      (hsep : ∀ a ∈ gap, sep a = true) (hrest : Spaced ws rest) :
      Spaced (w :: ws) (w ++ gap ++ rest)

/-- The segments, with separators between them and perhaps around them. -/
def Line (ws : List (List α)) (l : List α) : Prop :=
  ∃ lead body tail, (∀ a ∈ lead, sep a = true) ∧ (∀ a ∈ tail, sep a = true)
    ∧ l = lead ++ body ++ tail ∧ Spaced sep ws body

variable {sep}

/-! ## Runs of separators around a list -/

variable {l : List α}

theorem dropWhile_of_head (hhead : ∀ a ∈ l.head?, sep a = false) : l.dropWhile sep = l := by
  cases l with
  | nil => rfl
  | cons a l =>
      rw [List.dropWhile_cons_of_neg]
      rw [hhead a rfl]
      exact Bool.false_ne_true

/-- A list is stripped of a run of separators on either side. -/
theorem strip_spec (sep : α → Bool) (l : List α) :
    ∃ lead tail, (∀ a ∈ lead, sep a = true) ∧ (∀ a ∈ tail, sep a = true)
      ∧ l = lead ++ strip sep l ++ tail := by
  refine ⟨l.takeWhile sep, (l.dropWhile sep).rtakeWhile sep, fun a ha => List.mem_takeWhile_imp ha,
    fun a ha => List.mem_rtakeWhile_imp ha, ?_⟩
  rw [strip, List.append_assoc, List.rdropWhile_append_rtakeWhile,
    List.takeWhile_append_dropWhile]

theorem strip_head : ∀ a ∈ (strip sep l).head?, sep a = false := by
  intro a ha
  obtain ⟨tail, htail⟩ : strip sep l <+: l.dropWhile sep := List.rdropWhile_prefix sep _
  have hhead := List.head?_dropWhile_not sep l
  rw [← htail, List.head?_append, Option.mem_def.mp ha] at hhead
  simpa using hhead

theorem strip_getLast : ∀ a ∈ (strip sep l).getLast?, sep a = false := by
  intro a ha
  obtain ⟨hne, hlast⟩ := List.mem_getLast?_eq_getLast ha
  have hnot := List.rdropWhile_last_not sep (l.dropWhile sep) hne
  rw [hlast]
  exact Bool.eq_false_iff.mpr hnot

theorem strip_eq_self (hhead : ∀ a ∈ l.head?, sep a = false)
    (hlast : ∀ a ∈ l.getLast?, sep a = false) : strip sep l = l := by
  rw [strip, dropWhile_of_head hhead, List.rdropWhile_eq_self_iff]
  intro hne
  rw [hlast _ (List.getLast?_eq_getLast_of_ne_nil hne)]
  exact Bool.false_ne_true

theorem strip_strip (l : List α) : strip sep (strip sep l) = strip sep l :=
  strip_eq_self strip_head strip_getLast

/-! ## The words of a list -/

theorem words_cons_sep {a : α} (ha : sep a = true) (l : List α) :
    words sep (a :: l) = words sep l := by
  rw [words, List.splitOnP_cons_eq_if_modifyHead, if_pos ha, List.filter_cons_of_neg]
  · rfl
  · exact Bool.not_not_eq.mpr rfl

variable {gap : List α}

/-- Separators before a list are no words. -/
theorem words_sep_append (hgap : ∀ a ∈ gap, sep a = true) (l : List α) :
    words sep (gap ++ l) = words sep l := by
  induction gap with
  | nil => rfl
  | cons a gap ih =>
      rw [List.cons_append, words_cons_sep (hgap a (List.mem_cons_self ..)),
        ih fun b hb => hgap b (List.mem_cons_of_mem _ hb)]

theorem words_sep (hgap : ∀ a ∈ gap, sep a = true) : words sep gap = [] := by
  have h := words_sep_append hgap []
  rwa [List.append_nil] at h

variable {w : List α}

/-- A word that ends at a separator, or with the list. -/
theorem words_word_append (hw : IsWord sep w) {rest : List α}
    (hrest : ∀ a ∈ rest.head?, sep a = true) : words sep (w ++ rest) = w :: words sep rest := by
  have hkept : (!w.isEmpty) = true := by
    rw [List.isEmpty_eq_false_iff.mpr hw.nonempty]
    rfl
  cases rest with
  | nil =>
      rw [List.append_nil, words, List.splitOnP_eq_singleton hw.clean, List.filter_cons_of_pos (by exact hkept)]
      rfl
  | cons a rest =>
      have ha : sep a = true := hrest a rfl
      rw [words, List.splitOnP_append_cons_of_forall_mem hw.clean a ha,
        List.filter_cons_of_pos (by exact hkept), words_cons_sep ha]
      rfl

/-- A list holds separators only, or a first word. -/
theorem all_sep_or_word (sep : α → Bool) (l : List α) :
    (∀ a ∈ l, sep a = true) ∨ ∃ lead w rest, l = lead ++ w ++ rest
      ∧ (∀ a ∈ lead, sep a = true) ∧ IsWord sep w ∧ ∀ a ∈ rest.head?, sep a = true := by
  by_cases hall : ∀ a ∈ l, sep a = true
  · exact .inl hall
  · -- The word runs from where separators stop to the next one.
    have hne : l.dropWhile sep ≠ [] := fun hnil => hall (List.dropWhile_eq_nil_iff.mp hnil)
    obtain ⟨first, body, hbody⟩ := List.exists_cons_of_ne_nil hne
    have hfirst : sep first = false := by
      have hnot := List.head?_dropWhile_not sep l
      rw [hbody] at hnot
      exact hnot
    refine .inr ⟨l.takeWhile sep, (first :: body).takeWhile fun a => !sep a,
      (first :: body).dropWhile fun a => !sep a, ?_, fun a ha => List.mem_takeWhile_imp ha,
      ⟨?_, fun a ha => ?_⟩, fun a ha => ?_⟩
    · rw [List.append_assoc, List.takeWhile_append_dropWhile, ← hbody,
        List.takeWhile_append_dropWhile]
    · rw [List.takeWhile_cons_of_pos (by rw [hfirst]; rfl)]
      exact List.cons_ne_nil _ _
    · have hclean := List.mem_takeWhile_imp ha
      simpa using hclean
    · have hnot := List.head?_dropWhile_not (fun a => !sep a) (first :: body)
      rw [Option.mem_def.mp ha] at hnot
      simpa using hnot

variable {ws : List (List α)}

/-- The first word stands after separators, and ends at one or with the
list; the other words are those of what is left. -/
theorem words_eq_cons (h : words sep l = w :: ws) :
    ∃ lead rest, l = lead ++ w ++ rest ∧ (∀ a ∈ lead, sep a = true) ∧ IsWord sep w
      ∧ (∀ a ∈ rest.head?, sep a = true) ∧ words sep rest = ws := by
  rcases all_sep_or_word sep l with hall | ⟨lead, v, rest, hl, hlead, hv, hrest⟩
  · rw [words_sep hall] at h
    cases h
  · rw [hl, List.append_assoc, words_sep_append hlead, words_word_append hv hrest] at h
    obtain ⟨rfl, hws⟩ := List.cons.inj h
    exact ⟨lead, rest, hl, hlead, hv, hrest, hws⟩

theorem words_eq_nil (h : words sep l = []) : ∀ a ∈ l, sep a = true := by
  rcases all_sep_or_word sep l with hall | ⟨lead, v, rest, hl, hlead, hv, hrest⟩
  · exact hall
  · rw [hl, List.append_assoc, words_sep_append hlead, words_word_append hv hrest] at h
    cases h

theorem isWord_of_mem_words (h : w ∈ words sep l) : IsWord sep w := by
  generalize hws : words sep l = ws at h
  induction ws generalizing l with
  | nil => cases h
  | cons v ws ih =>
      obtain ⟨lead, rest, -, -, hv, -, hrest⟩ := words_eq_cons hws
      rcases List.mem_cons.mp h with rfl | hmem
      · exact hv
      · exact ih hrest hmem

/-! ## Lines -/

theorem Spaced.words {body : List α} (h : Spaced sep ws body) (hws : ∀ w ∈ ws, IsWord sep w)
    {tail : List α} (htail : ∀ a ∈ tail, sep a = true) : words sep (body ++ tail) = ws := by
  have hhead : ∀ {gap l : List α}, (∀ a ∈ gap, sep a = true) → gap ≠ [] →
      ∀ a ∈ (gap ++ l).head?, sep a = true := by
    intro gap l hgap hne a ha
    cases gap with
    | nil => exact absurd rfl hne
    | cons b gap =>
        obtain rfl : b = a := Option.some.inj ha
        exact hgap _ (List.mem_cons_self ..)
  induction h with
  | one w =>
      rw [words_word_append (hws w (List.mem_cons_self ..)) fun a ha =>
        htail a (List.mem_of_mem_head? ha), words_sep htail]
  | cons w gap hgap hsep hrest ih =>
      rw [List.append_assoc, List.append_assoc,
        words_word_append (hws w (List.mem_cons_self ..)) (hhead hsep hgap),
        words_sep_append hsep, ih fun v hv => hws v (List.mem_cons_of_mem _ hv)]

theorem Spaced.starts {body : List α} (h : Spaced sep (w :: ws) body) :
    ∃ more, body = w ++ more := by
  cases h with
  | one => exact ⟨[], (List.append_nil w).symm⟩
  | cons _ gap hgap hsep hrest => exact ⟨_, List.append_assoc ..⟩

/-- Where a separator stands first, separators stand before what is clean. -/
theorem gap_ne_nil {rest : List α} (hstart : ∀ a ∈ (gap ++ rest).head?, sep a = true)
    (hhead : ∀ a ∈ rest.head?, sep a = false) (hne : rest ≠ []) : gap ≠ [] := by
  rintro rfl
  obtain ⟨a, rest, rfl⟩ := List.exists_cons_of_ne_nil hne
  have hsep := hstart a rfl
  rw [hhead a rfl] at hsep
  cases hsep

theorem IsWord.head (h : IsWord sep w) (rest : List α) :
    ∀ a ∈ (w ++ rest).head?, sep a = false := by
  intro a ha
  rw [List.head?_append_of_ne_nil _ h.nonempty] at ha
  exact h.clean a (List.mem_of_mem_head? ha)

/-- A list is a line of its words. -/
theorem line_words (h : words sep l ≠ []) : Line sep (words sep l) l := by
  generalize hws : words sep l = ws at h
  induction ws generalizing l with
  | nil => exact absurd rfl h
  | cons w ws ih =>
      obtain ⟨lead, rest, rfl, hlead, -, hhead, hrest⟩ := words_eq_cons hws
      cases ws with
      | nil => exact ⟨lead, w, rest, hlead, words_eq_nil hrest, rfl, .one w⟩
      | cons v ws =>
          obtain ⟨gap, body, tail, hgap, htail, hline, hspaced⟩ := ih hrest (List.cons_ne_nil _ _)
          have hne : gap ≠ [] := by
            obtain ⟨more, rfl⟩ := hspaced.starts
            have hv : IsWord sep v := isWord_of_mem_words (hrest ▸ List.mem_cons_self ..)
            rw [hline, List.append_assoc, List.append_assoc] at hhead
            exact gap_ne_nil hhead (hv.head _) (List.append_ne_nil_of_left_ne_nil hv.nonempty _)
          refine ⟨lead, w ++ gap ++ body, tail, hlead, htail, ?_, .cons w gap hne hgap hspaced⟩
          rw [hline]
          simp only [List.append_assoc]

theorem IsWord.strip (h : IsWord sep w) : strip sep w = w :=
  strip_eq_self (fun a ha => h.clean a (List.mem_of_mem_head? ha))
    fun a ha => h.clean a (List.mem_of_mem_getLast? ha)

/-- Nothing stands around segments that have nothing around them. -/
theorem Spaced.strip {body : List α} (h : Spaced sep ws body)
    (hws : ∀ w ∈ ws, w ≠ [] ∧ strip sep w = w) : strip sep body = body ∧ body ≠ [] := by
  induction h with
  | one w => exact (hws w (List.mem_cons_self ..)).symm
  | cons w gap hgap hsep hrest ih =>
      obtain ⟨hrest, hne⟩ := ih fun v hv => hws v (List.mem_cons_of_mem _ hv)
      obtain ⟨hw, hstrip⟩ := hws w (List.mem_cons_self ..)
      refine ⟨strip_eq_self (fun a ha => ?_) (fun a ha => ?_), ?_⟩
      · rw [List.append_assoc, List.head?_append_of_ne_nil _ hw] at ha
        rw [← hstrip] at ha
        exact strip_head a ha
      · rw [List.getLast?_append_of_ne_nil _ hne] at ha
        rw [← hrest] at ha
        exact strip_getLast a ha
      · exact List.append_ne_nil_of_right_ne_nil _ hne

/-! ## What is left after two words -/

/-- What is left of a list after its first two words, stripped. -/
def afterTwo (sep : α → Bool) (w v l : List α) : List α :=
  strip sep (((l.drop w.length).dropWhile sep).drop v.length)

theorem afterTwo_append {v : List α} (hv : IsWord sep v) (hgap : ∀ a ∈ gap, sep a = true)
    (rest : List α) : afterTwo sep w v (w ++ gap ++ (v ++ rest)) = strip sep rest := by
  rw [afterTwo, List.append_assoc, List.drop_left, List.dropWhile_append_of_pos hgap,
    dropWhile_of_head (hv.head rest), List.drop_left]

/-- A list that starts with its first word is a line of its first two words
and of what is left after them. -/
theorem line_afterTwo {v : List α} (h : words sep l = w :: v :: ws)
    (hhead : ∀ a ∈ l.head?, sep a = false) (hleft : afterTwo sep w v l ≠ []) :
    Line sep [w, v, afterTwo sep w v l] l := by
  obtain ⟨lead, rest, rfl, hlead, hw, hends, hwords⟩ := words_eq_cons h
  obtain ⟨gap, left, rfl, hgap, hv, hstart, -⟩ := words_eq_cons hwords
  have hnil : lead = [] := by
    cases lead with
    | nil => rfl
    | cons a lead =>
        have hsep := hlead a (List.mem_cons_self ..)
        rw [hhead a rfl] at hsep
        cases hsep
  have hgapne : gap ≠ [] := by
    rw [List.append_assoc] at hends
    exact gap_ne_nil hends (hv.head _) (List.append_ne_nil_of_left_ne_nil hv.nonempty _)
  subst hnil
  rw [List.nil_append, List.append_assoc gap, ← List.append_assoc w, afterTwo_append hv hgap]
    at hleft ⊢
  obtain ⟨before, after, hbefore, hafter, hsplit⟩ := strip_spec sep left
  have hbeforene : before ≠ [] := by
    rw [hsplit, List.append_assoc] at hstart
    refine gap_ne_nil hstart (fun a ha => ?_) (List.append_ne_nil_of_left_ne_nil hleft _)
    rw [List.head?_append_of_ne_nil _ hleft] at ha
    exact strip_head a ha
  have hspaced : Spaced sep [w, v, strip sep left] (w ++ gap ++ (v ++ before ++ strip sep left)) :=
    .cons w gap hgapne hgap (.cons v before hbeforene hbefore (.one _))
  refine ⟨[], _, after, List.forall_mem_nil _, hafter, ?_, hspaced⟩
  calc w ++ gap ++ (v ++ left)
      = w ++ gap ++ (v ++ (before ++ strip sep left ++ after)) := by rw [← hsplit]
    _ = [] ++ (w ++ gap ++ (v ++ before ++ strip sep left)) ++ after := by
        simp only [List.nil_append, List.append_assoc]

end Words

end Asimposium.Words
