import Mathlib
import Asimposium.Director.Lines

/-!
# Commands and their lines

A command that the schema accepts comes back from its formatting exactly
when it is tidy: its Fellow's name is one word, and nothing stands around
its text. A line that is accepted is the formatting of its command, up to
white space and the letter case of keywords, unless it assigns and goes on
after the role: the branch of `assign` looks at five words and no further,
where the others count what follows.
-/

namespace Asimposium.Director

open Words

variable {zod : Zod} {input : Text} {s : DirectorParseSuccess}

/-! ## Accepted lines -/

variable {first : Text} {rest : List Text}

theorem line_tokens {l : Text} (h : splitSpaces l = first :: rest) :
    Line Text.isSpace (first :: rest) l := by
  have hne : Words.words Text.isSpace l ≠ [] :=
    fun hnil => List.cons_ne_nil _ _ (h.symm.trans hnil)
  have hline := line_words hne
  rwa [show Words.words Text.isSpace l = first :: rest from h] at hline

variable {command : DirectorCommand}

theorem DirectorCommand.Reads.tidy {trimmed : Text} (h : command.Reads trimmed first rest)
    (hrest : ∀ t ∈ rest, IsWord Text.isSpace t) : command.Tidy := by
  have hleft : Text.trim (afterTwo trimmed (first :: rest)) = afterTwo trimmed (first :: rest) :=
    strip_strip _
  cases command with
  | assign fellowId problemId role =>
      cases role with
      | none =>
          obtain rfl : rest = [fellowId, problemId] := h
          exact (hrest _ (List.mem_cons_self ..)).clean
      | some role =>
          obtain ⟨conjunction, roleToken, more, rfl, -, -⟩ := h
          exact (hrest _ (List.mem_cons_self ..)).clean
  | focus fellowId directive =>
      obtain ⟨hfellow, rfl⟩ := h
      exact ⟨(hrest _ (List.mem_of_mem_head? hfellow)).clean, hleft⟩
  | forbid fellowId directive =>
      obtain ⟨hfellow, rfl⟩ := h
      exact ⟨(hrest _ (List.mem_of_mem_head? hfellow)).clean, hleft⟩
  | unfocus fellowId | pause fellowId | resume fellowId | revoke fellowId =>
      obtain rfl : rest = [fellowId] := h
      exact (hrest _ (List.mem_cons_self ..)).clean
  | transfer fellowId sponsorId =>
      obtain rfl : rest = [fellowId, sponsorId] := h
      exact (hrest _ (List.mem_cons_self ..)).clean
  | publish problemId => trivial
  | hide problemId reason =>
      obtain ⟨-, rfl⟩ := h
      exact hleft
  | cap problemId limit => trivial

/-! ## Exactness -/

theorem spelled_argument (t : Text) : Piece.SpelledBy ⟨false, t⟩ t := rfl

variable {t : Text}

theorem spelled_keyword {k : Text} (h : toLowerCase t = k) : Piece.SpelledBy ⟨true, k⟩ t := h

/-- The words of a line, or its first two and what is left of it, spell the
pieces of the command that is read from it. -/
theorem DirectorCommand.Reads.spelled (h : command.Reads (Text.trim input) first rest)
    (htokens : splitSpaces (Text.trim input) = first :: rest)
    (hverb : toLowerCase first = command.verb.spelling) (hvalid : command.Valid)
    (hshort : command.verb = .assign → rest.length ≤ 4) :
    ∃ spelled, List.Forall₂ Piece.SpelledBy command.pieces spelled
      ∧ Line Text.isSpace spelled (Text.trim input) := by
  have hwords := line_tokens htokens
  have hleft : ∀ {second directive : Text}, rest.head? = some second →
      afterTwo (Text.trim input) (first :: rest) = directive → directive ≠ [] →
      Line Text.isSpace [first, second, directive] (Text.trim input) := by
    intro second directive hsecond hdirective hne
    obtain ⟨more, rfl⟩ : ∃ more, rest = second :: more := List.head?_eq_some_iff.mp hsecond
    subst hdirective
    exact line_afterTwo htokens strip_head hne
  have hsome : ∀ {maximum : Nat} {directive : Text}, trimmedIssues maximum directive = [] →
      directive ≠ [] := by
    rintro maximum directive hnone rfl
    exact absurd (trimmedIssues_nil.mp hnone).1 (by decide)
  cases command with
  | assign fellowId problemId role =>
      cases role with
      | none =>
          obtain rfl : rest = [fellowId, problemId] := h
          exact ⟨_, .cons (spelled_keyword hverb) (.cons (spelled_argument _)
            (.cons (spelled_argument _) .nil)), hwords⟩
      | some role =>
          obtain ⟨conjunction, roleToken, more, rfl, has, hkind⟩ := h
          have hlength := hshort rfl
          simp only [List.length_cons] at hlength
          obtain rfl : more = [] := List.length_eq_zero_iff.mp (by omega)
          exact ⟨_, .cons (spelled_keyword hverb) (.cons (spelled_argument _)
            (.cons (spelled_argument _) (.cons (spelled_keyword has)
              (.cons (spelled_keyword hkind) .nil)))), hwords⟩
  | focus fellowId directive | forbid fellowId directive =>
      obtain ⟨hfellow, hdirective⟩ := h
      exact ⟨_, .cons (spelled_keyword hverb) (.cons (spelled_argument _)
        (.cons (spelled_argument _) .nil)),
        hleft hfellow hdirective (hsome (List.append_eq_nil_iff.mp hvalid).2)⟩
  | hide problemId reason =>
      obtain ⟨hproblem, hreason⟩ := h
      exact ⟨_, .cons (spelled_keyword hverb) (.cons (spelled_argument _)
        (.cons (spelled_argument _) .nil)),
        hleft hproblem hreason (hsome (List.append_eq_nil_iff.mp hvalid).2)⟩
  | unfocus fellowId | pause fellowId | resume fellowId | revoke fellowId =>
      obtain rfl : rest = [fellowId] := h
      exact ⟨_, .cons (spelled_keyword hverb) (.cons (spelled_argument _) .nil), hwords⟩
  | publish problemId =>
      obtain rfl : rest = [problemId] := h
      exact ⟨_, .cons (spelled_keyword hverb) (.cons (spelled_argument _) .nil), hwords⟩
  | transfer fellowId sponsorId =>
      obtain rfl : rest = [fellowId, sponsorId] := h
      exact ⟨_, .cons (spelled_keyword hverb) (.cons (spelled_argument _)
        (.cons (spelled_argument _) .nil)), hwords⟩
  | cap problemId limit =>
      obtain rfl : rest = [problemId, Text.ofInt limit] := h
      exact ⟨_, .cons (spelled_keyword hverb) (.cons (spelled_argument _)
        (.cons (spelled_argument _) .nil)), hwords⟩

theorem isWord_of_all (h : (!t.isEmpty && t.all fun u => !Text.isSpace u) = true) :
    IsWord Text.isSpace t := by
  obtain ⟨hne, hall⟩ := Bool.and_eq_true_iff.mp h
  constructor
  · rintro rfl
    cases hne
  · intro u hu
    have hclean := List.all_eq_true.mp hall u hu
    simpa using hclean

theorem DirectorGrammarVerb.isWord (verb : DirectorGrammarVerb) :
    IsWord Text.isSpace verb.spelling := isWord_of_all (by cases verb <;> rfl)

theorem DirectorRoleKind.isWord (role : DirectorRoleKind) :
    IsWord Text.isSpace role.spelling := isWord_of_all (by cases role <;> rfl)

end Asimposium.Director
