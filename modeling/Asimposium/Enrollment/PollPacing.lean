import Mathlib.Order.Lattice
import Mathlib.Data.List.Nodup

/-!
# The pacing of polls

`nextEnrollmentPollPacing` answers a poll of a pending proposal with the
seconds to wait before the next one. A Fellow that waits as it is told is
never slowed down (`polite_never_slowed`). The store writes the answer
only where the instant of the last poll is still the one it has read:
polls at distinct instants leave what they would have left one after the
other (`raced_polls_sequential`).

Instants are milliseconds, intervals seconds.
-/

namespace Asimposium.Enrollment

def initialPollIntervalSeconds : Int := 5
def maxPollIntervalSeconds : Int := 30
def pollSlowDownIncrementSeconds : Int := 5

inductive PacingKind where
  | pending
  | slowDown
  deriving DecidableEq, Repr

structure PollPacing where
  kind : PacingKind
  retryAfterSeconds : Int
  deriving DecidableEq, Repr

/-- What a proposal keeps of its polls. -/
structure PollRow where
  lastPollAt : Option Int
  pollIntervalSeconds : Int
  deriving DecidableEq, Repr

/-- The stored interval, between its bounds. -/
def PollRow.interval (row : PollRow) : Int :=
  min maxPollIntervalSeconds (max initialPollIntervalSeconds row.pollIntervalSeconds)

/-- The interval after a quiet period. -/
def PollRow.decayed (row : PollRow) (elapsed : Int) : Int :=
  if row.interval * 2000 ≤ elapsed then
    max initialPollIntervalSeconds (row.interval - pollSlowDownIncrementSeconds)
  else row.interval

def nextEnrollmentPollPacing (row : PollRow) (now : Int) : PollPacing :=
  match row.lastPollAt with
  | none => ⟨.pending, row.interval⟩
  | some lastPollAt =>
      let elapsed := max 0 (now - lastPollAt)
      if elapsed < row.decayed elapsed * 1000 then
        ⟨.slowDown,
          min maxPollIntervalSeconds (row.decayed elapsed + pollSlowDownIncrementSeconds)⟩
      else ⟨.pending, row.decayed elapsed⟩

/-- The row a poll writes. -/
def PollRow.poll (row : PollRow) (now : Int) : PollRow :=
  { lastPollAt := some now
    pollIntervalSeconds := (nextEnrollmentPollPacing row now).retryAfterSeconds }

/-! ## One poll after the other -/

/-- The answers of polls at these instants. -/
def pollAnswers : PollRow → List Int → List PollPacing
  | _, [] => []
  | row, now :: rest => nextEnrollmentPollPacing row now :: pollAnswers (row.poll now) rest

/-- Each poll comes no sooner than the answer to the one before allowed. -/
def Polite : PollRow → List Int → Prop
  | _, [] => True
  | row, now :: rest =>
      (∀ last ∈ row.lastPollAt, row.pollIntervalSeconds * 1000 ≤ now - last)
        ∧ Polite (row.poll now) rest

structure PollRow.Bounded (row : PollRow) : Prop where
  initial : initialPollIntervalSeconds ≤ row.pollIntervalSeconds
  max : row.pollIntervalSeconds ≤ maxPollIntervalSeconds

theorem PollRow.Bounded.interval {row : PollRow} (h : row.Bounded) :
    row.interval = row.pollIntervalSeconds := by
  rw [PollRow.interval, max_eq_right h.initial, min_eq_right h.max]

/-- Whatever is stored, what a poll answers is within the bounds. -/
theorem poll_bounded (row : PollRow) (now : Int) : (row.poll now).Bounded := by
  have hinterval : 5 ≤ row.interval ∧ row.interval ≤ 30 := by
    simp only [PollRow.interval, initialPollIntervalSeconds, maxPollIntervalSeconds]
    omega
  have hdecayed : ∀ elapsed, 5 ≤ row.decayed elapsed ∧ row.decayed elapsed ≤ 30 := by
    intro elapsed
    unfold PollRow.decayed initialPollIntervalSeconds pollSlowDownIncrementSeconds
    split <;> omega
  have hbounded : 5 ≤ (nextEnrollmentPollPacing row now).retryAfterSeconds
      ∧ (nextEnrollmentPollPacing row now).retryAfterSeconds ≤ 30 := by
    unfold nextEnrollmentPollPacing
    split
    · exact hinterval
    · rename_i last _
      have hlast := hdecayed (max 0 (now - last))
      dsimp only
      split
      · simp only [maxPollIntervalSeconds, pollSlowDownIncrementSeconds]
        omega
      · exact hlast
  exact ⟨hbounded.1, hbounded.2⟩

/-- A polite poll is not slowed down, and its interval does not rise. -/
theorem polite_poll {row : PollRow} {now : Int} (hrow : row.Bounded)
    (hpolite : ∀ last ∈ row.lastPollAt, row.pollIntervalSeconds * 1000 ≤ now - last) :
    (nextEnrollmentPollPacing row now).kind = .pending
      ∧ (nextEnrollmentPollPacing row now).retryAfterSeconds ≤ row.pollIntervalSeconds := by
  unfold nextEnrollmentPollPacing
  cases hlast : row.lastPollAt with
  | none => exact ⟨rfl, hrow.interval.le⟩
  | some last =>
      have hwait := hpolite last hlast
      have hmin := hrow.initial
      have hdecayed : row.decayed (max 0 (now - last)) ≤ row.pollIntervalSeconds := by
        unfold PollRow.decayed
        rw [hrow.interval]
        simp only [initialPollIntervalSeconds, pollSlowDownIncrementSeconds] at hmin ⊢
        split <;> omega
      dsimp only
      rw [if_neg (by omega)]
      exact ⟨rfl, hdecayed⟩

theorem polite_run {row : PollRow} (hrow : row.Bounded) {nows : List Int}
    (hpolite : Polite row nows) :
    (∀ answer ∈ pollAnswers row nows, answer.kind = .pending)
      ∧ (row.pollIntervalSeconds :: (pollAnswers row nows).map (·.retryAfterSeconds)).Pairwise
          (· ≥ ·) := by
  induction nows generalizing row with
  | nil => exact ⟨fun _ h => absurd h List.not_mem_nil, List.pairwise_singleton ..⟩
  | cons now rest ih =>
      obtain ⟨hkind, hwait⟩ := polite_poll hrow hpolite.1
      obtain ⟨hkinds, hwaits⟩ := ih (poll_bounded row now) hpolite.2
      refine ⟨List.forall_mem_cons.mpr ⟨hkind, hkinds⟩, ?_⟩
      rw [pollAnswers, List.map_cons]
      refine List.pairwise_cons.mpr ⟨fun wait hmem => ?_, hwaits⟩
      rcases List.mem_cons.mp hmem with rfl | hmem
      · exact hwait
      · exact ((List.pairwise_cons.mp hwaits).1 wait hmem).trans hwait

/-- After any poll, polls that wait as they are told are answered with
`pending` every time, and the waits do not get longer. -/
theorem polite_never_slowed (row : PollRow) (first : Int) (nows : List Int)
    (hpolite : Polite (row.poll first) nows) :
    (∀ answer ∈ pollAnswers (row.poll first) nows, answer.kind = .pending)
      ∧ ((pollAnswers row (first :: nows)).map (·.retryAfterSeconds)).Pairwise (· ≥ ·) :=
  polite_run (poll_bounded row first) hpolite

theorem polite_never_slowed_twice :
    (pollAnswers ⟨some 0, 5⟩ [1000, 11000, 31000]).map (·.retryAfterSeconds) = [10, 10, 5]
      ∧ ∀ answer ∈ pollAnswers (PollRow.poll ⟨some 0, 5⟩ 1000) [11000, 31000],
        answer.kind = .pending := by
  refine ⟨by decide, (polite_never_slowed ⟨some 0, 5⟩ 1000 [11000, 31000] ⟨?_, ?_, trivial⟩).1⟩
  · rintro _ ⟨⟩
    decide
  · rintro _ ⟨⟩
    decide

/-! ## Races -/

/-- The rows a proposal has had, the last one first, when its polls race: a
poll writes over the row that is there what it has made of one it has read
before, if the instant of the last poll is the same in both. -/
inductive Raced : List PollRow → Prop where
  | start (row : PollRow) : Raced [row]
  | writes {row seen : PollRow} {rows : List PollRow} (now : Int) (h : Raced (row :: rows))
      (hseen : seen ∈ row :: rows) (hsame : row.lastPollAt = seen.lastPollAt) :
      Raced (seen.poll now :: row :: rows)

/-- When no two polls that write do so with the same instant, each has
answered for the row it has written over. -/
theorem raced_polls_sequential {rows : List PollRow} (h : Raced rows)
    (hdistinct : (rows.map (·.lastPollAt)).Nodup) :
    rows.IsChain fun next row => ∃ now, next = row.poll now := by
  induction h with
  | start row => exact .singleton row
  | writes now h hseen hsame ih =>
      have hrest := (List.nodup_cons.mp hdistinct).2
      have hrow := List.inj_on_of_nodup_map hrest (List.mem_cons_self ..) hseen hsame
      exact .cons_cons ⟨now, hrow ▸ rfl⟩ (ih hrest)

theorem raced_polls_sequential_twice :
    List.IsChain (fun next row => ∃ now, next = PollRow.poll row now)
      [⟨some 4000, 10⟩, ⟨some 1000, 5⟩, ⟨none, 5⟩] :=
  raced_polls_sequential
    (.writes 4000 (.writes 1000 (.start ⟨none, 5⟩) (List.mem_cons_self ..) rfl)
      (List.mem_cons_self ..) rfl)
    (by decide)

end Asimposium.Enrollment
