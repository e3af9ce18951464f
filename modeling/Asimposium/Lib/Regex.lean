import Mathlib.Data.List.Basic

/-!
# Regular expressions with ordered choice

The patterns of a backtracking matcher: literals, greedy runs of a class, word
boundaries, sequences and ordered alternatives. A match is tried at one place
after another, and at each place the first way to match is taken.
-/

namespace Regex

variable {α : Type}

/-- A place in a text: the unit before it, and what follows. -/
structure Place (α : Type) where
  before : Option α
  rest : List α

def Place.advance (place : Place α) : Nat → Place α
  | 0 => place
  | n + 1 => match place.rest with
      | [] => place
      | u :: rest => Place.advance ⟨some u, rest⟩ n

inductive Pattern (α : Type) where
  | empty
  | literal (units : List α)
  /-- A run of a class, as long as there is, and shorter ones after it. -/
  | run (isUnit : α → Bool) (least : Nat) (most : Option Nat)
  | boundary
  | seq (first second : Pattern α)
  | alt (first second : Pattern α)

/-- The lengths of the runs that are tried. -/
def runLengths (isUnit : α → Bool) (least : Nat) (most : Option Nat) (t : List α) : List Nat :=
  let longest := (t.takeWhile isUnit).length
  let longest := most.elim longest (min longest)
  ((List.range (longest + 1)).filter (least ≤ ·)).reverse

section Match

variable [DecidableEq α] (isWord : α → Bool)

/-- Between a word unit and what is none. -/
def atBoundary (place : Place α) : Bool :=
  (place.before.any isWord) != (place.rest.head?.any isWord)

/-- The places a match may end at, in the order in which they are tried. -/
def Pattern.ends : Pattern α → Place α → List (Place α)
  | .empty, place => [place]
  | .literal units, place =>
      if units.isPrefixOf place.rest then [place.advance units.length] else []
  | .run isUnit least most, place =>
      (runLengths isUnit least most place.rest).map place.advance
  | .boundary, place => if atBoundary isWord place then [place] else []
  | .seq first second, place => (first.ends place).flatMap second.ends
  | .alt first second, place => first.ends place ++ second.ends place

/-- The length of the match at a place. -/
def Pattern.matchAt (pattern : Pattern α) (place : Place α) : Option Nat :=
  (pattern.ends isWord place).head?.map fun after => place.rest.length - after.rest.length

/-- `pattern.test(text)`, from a place on. -/
def Pattern.testFrom (pattern : Pattern α) : Option α → List α → Bool
  | before, [] => (pattern.matchAt isWord ⟨before, []⟩).isSome
  | before, u :: rest =>
      (pattern.matchAt isWord ⟨before, u :: rest⟩).isSome || pattern.testFrom (some u) rest

def Pattern.test (pattern : Pattern α) (t : List α) : Bool := pattern.testFrom isWord none t

/-- The starts and ends of the matches that `matchAll` yields from a place on;
`skip` units are behind the last match. -/
def Pattern.matchesFrom (pattern : Pattern α) (index : Nat) : Nat → Option α → List α →
    List (Nat × Nat)
  | 0, before, [] =>
      match pattern.matchAt isWord ⟨before, []⟩ with
      | some n => [(index, index + n)]
      | none => []
  | _ + 1, _, [] => []
  | skip + 1, _, u :: rest => pattern.matchesFrom (index + 1) skip (some u) rest
  | 0, before, u :: rest =>
      match pattern.matchAt isWord ⟨before, u :: rest⟩ with
      | some n =>
          (index, index + n) :: pattern.matchesFrom (index + 1) (n - 1) (some u) rest
      | none => pattern.matchesFrom (index + 1) 0 (some u) rest

def Pattern.matchAll (pattern : Pattern α) (t : List α) : List (Nat × Nat) :=
  pattern.matchesFrom isWord 0 0 none t

end Match

/-! ## A text is matched if there is a match -/

section Laws

variable [DecidableEq α] {isWord : α → Bool} {pattern : Pattern α}

end Laws

end Regex
