import Mathlib.Data.List.Sort
import Asimposium.Quota.Runs

/-!
# When to try again

A call that is refused for its rate is told how many seconds to wait. The
delay is computed from the times of the recorded attempts: the cap of the
Fellow on the problem, which a slow mode lowers until it expires, and the
cap of the sponsor each have an instant from which the whole group fits.

Here a call runs alone: no other call comes between its reads and its
insertion.
-/

namespace Asimposium.Quota

open SlidingWindow

/-! ## The delay -/

def ceilSeconds (ms : Int) : Int := -(-ms / 1000)

/-- The attempts of the window that ends now, oldest first. -/
def Db.windowTimes (db : Db) (selects : Attempt → Bool) (now : Int) : List Int :=
  ((db.reservations.filter fun r =>
    selects r.toAttempt && decide (now - promotionRateLimitWindowMs < r.reservedAt)).map
      (·.reservedAt)).insertionSort (· ≤ ·)

/-- `recoveryAt`; `none` stands for infinity. -/
def Db.recoveryAt (db : Db) (selects : Attempt → Bool) (now : Int) (count capacity : Nat) :
    Option Int :=
  if capacity < count then none
  else
    let times := db.windowTimes selects now
    if times.length + count ≤ capacity then some now
    else match times[times.length + count - capacity - 1]? with
    | some reservedAt => some (reservedAt + promotionRateLimitWindowMs)
    | none => some (now + promotionRateLimitWindowMs)

def Params.counts (p : Params) : Dimension → Attempt → Bool
  | .fellowProblem => fun r => r.fellowId == p.fellowId && r.problemId == p.problemId
  | .sponsor => fun r => r.sponsorId == p.sponsorId

/-- `Math.min` with infinity. -/
def earliest : Option Int → Option Int → Option Int
  | some a, some b => some (min a b)
  | some a, none => some a
  | none, b => b

/-- `availableAt` of `quotaRetryDelay`. -/
def Db.availableAt (db : Db) (p : Params) (count : Nat) (dimension : Dimension) (limit : Nat)
    (slowModeExpiresAt : Option Int) : Option Int :=
  let recoveryAt := db.recoveryAt (p.counts dimension) p.now count
  match dimension, slowModeExpiresAt with
  | .fellowProblem, some expiresAt =>
      earliest (recoveryAt limit) ((recoveryAt promotionRateLimitPerHour).map (max expiresAt))
  | _, _ => recoveryAt limit

def Db.quotaRetryDelay (db : Db) (p : Params) (count : Nat) (dimension : Dimension) (limit : Nat)
    (slowModeExpiresAt : Option Int) : Int :=
  match db.availableAt p count dimension limit slowModeExpiresAt with
  | some availableAt => max 1 (ceilSeconds (availableAt - p.now))
  | none => promotionRateLimitWindowMs / 1000

def Control.expiresAt? (c : Control) : Option Int :=
  match c.action with
  | .set _ expiresAt => some expiresAt
  | .clear => none

/-- `slow_mode?.expires_at`. -/
def Budget.slowModeExpiresAt (budget : Budget) : Option Int :=
  budget.slowMode.bind Control.expiresAt?

/-- `retryAfterSeconds` of `quotaRefusal`. -/
def Db.quotaRefusal (db : Db) (p : Params) (dimension : Dimension) (budget : Budget) : Int :=
  let count := p.members.length
  let fellow := if budget.remaining < count ∨ dimension = .fellowProblem then
      [db.quotaRetryDelay p count .fellowProblem budget.limit budget.slowModeExpiresAt] else []
  let sponsor := match budget.sponsorRemaining with
    | some remaining => if remaining < count ∨ dimension = .sponsor then
        [db.quotaRetryDelay p count .sponsor (budget.sponsorLimit.getD 0) none] else []
    | none => []
  (fellow ++ sponsor).foldl max 1

/-- The budget of `getRemainingBudget`; `none` when the policy is not readable. -/
def Db.budget (db : Db) (p : Params) (sponsorLimit : Option Nat) : Option Budget :=
  (db.readPromotionPolicy p.problemId p.now).map fun policy =>
    budgetOf policy sponsorLimit (db.fellowCount p) (db.sponsorCount p sponsorLimit)

/-- What a call does next when no other call comes between. -/
def Params.advance (p : Params) (ids : List String) : Phase × Db → Phase × Db
  | (.recovering sponsorLimit, db) =>
      match db.recover p.fellowId p.now with
      | .ok db => (.readingPolicy sponsorLimit .place, db)
      | .error _ => (.answered .thrown, db)
  | (.inserting sponsorLimit, db) =>
      match p.admission sponsorLimit ids db with
      | .ok db => (.readingPolicy sponsorLimit (.report (p.attempts sponsorLimit ids)), db)
      | .error (abort :: _) => (afterAbort sponsorLimit abort, db)
      | .error [] => (.answered .thrown, db)
  | (phase, db) => (p.read db phase, db)

inductive QuotaCheckResult where
  | allowed (reservations : List Attempt) (budget : Budget)
  | rateLimited (dimension : Dimension) (retryAfterSeconds : Int) (budget : Budget)
  | inFlightConflict
  | thrown

/-- The answer, with the delay computed from the tables at its end. -/
def Params.answer (p : Params) : Phase × Db → QuotaCheckResult
  | (.answered (.allowed reservations budget), _) => .allowed reservations budget
  | (.answered (.rateLimited dimension budget), db) =>
      .rateLimited dimension (db.quotaRefusal p dimension budget) budget
  | (.answered .inFlightConflict, _) => .inFlightConflict
  | _ => .thrown

variable {now : Int}

theorem countRecent_anti (selects : Attempt → Bool) {later : Int} (h : now ≤ later)
    (rows : List Reservation) : countRecent selects later rows ≤ countRecent selects now rows := by
  have hanti : rows.countP (fun r => selects r.toAttempt
        && recent (·.reservedAt) promotionRateLimitWindowMs later r)
      ≤ rows.countP (fun r => selects r.toAttempt
        && recent (·.reservedAt) promotionRateLimitWindowMs now r) := countP_recent_anti h
  exact hanti

/-- The whole group fits under the caps of the Fellow on the problem. -/
structure FellowRoom (db : Db) (p : Params) (now : Int) : Prop where
  hourly : countRecent (p.counts .fellowProblem) now db.reservations + p.members.length
    ≤ promotionRateLimitPerHour
  slow : ∀ c, db.currentControl p.problemId = some c → c.inForceAt now = true →
    countRecent (p.counts .fellowProblem) now db.reservations + p.members.length ≤ c.limit

def SponsorRoom (db : Db) (p : Params) (sponsorLimit : Option Nat) (now : Int) : Prop :=
  ∀ limit ∈ sponsorLimit,
    countRecent (p.counts .sponsor) now db.reservations + p.members.length ≤ limit

theorem Control.inForceAt_anti {c : Control} {later : Int} (h : now ≤ later)
    (hforce : c.inForceAt later = true) : c.inForceAt now = true := by
  unfold Control.inForceAt at hforce ⊢
  split at hforce
  · rw [decide_eq_true_eq] at hforce ⊢
    omega
  · cases hforce

section Room

variable {db : Db} {p : Params} {sponsorLimit : Option Nat}

theorem FellowRoom.mono {now later : Int} (h : now ≤ later) (hroom : FellowRoom db p now) :
    FellowRoom db p later := by
  have hanti := countRecent_anti (p.counts .fellowProblem) h db.reservations
  refine ⟨(Nat.add_le_add_right hanti _).trans hroom.hourly, fun c hc hforce => ?_⟩
  exact (Nat.add_le_add_right hanti _).trans (hroom.slow c hc (Control.inForceAt_anti h hforce))

theorem SponsorRoom.mono {now later : Int} (h : now ≤ later)
    (hroom : SponsorRoom db p sponsorLimit now) : SponsorRoom db p sponsorLimit later := by
  intro limit hlimit
  have hanti := countRecent_anti (p.counts .sponsor) h db.reservations
  exact (Nat.add_le_add_right hanti _).trans (hroom limit hlimit)

end Room

/-! ## Tables with the same attempts -/

/-- No attempt has been added, and the controls are as they were; attempts
may have been settled. -/
structure SameAttempts (db later : Db) : Prop where
  attempts : later.attempts = db.attempts
  controls : later.controls = db.controls

namespace SameAttempts

variable {db later : Db} {p : Params}

theorem countRecent (h : SameAttempts db later) (selects : Attempt → Bool) (now : Int) :
    Quota.countRecent selects now later.reservations
      = Quota.countRecent selects now db.reservations := by
  rw [countRecent_eq, countRecent_eq, h.attempts]

theorem currentControl (h : SameAttempts db later) (problemId : String) :
    later.currentControl problemId = db.currentControl problemId := by
  rw [Db.currentControl, Db.currentControl, h.controls]

theorem readPromotionPolicy (h : SameAttempts db later) (problemId : String) (now : Int) :
    later.readPromotionPolicy problemId now = db.readPromotionPolicy problemId now := by
  rw [Db.readPromotionPolicy, Db.readPromotionPolicy, h.currentControl]

end SameAttempts

structure Fresh (db : Db) (p : Params) (ids : List String) : Prop where
  length : ids.length = p.members.length
  nodup : ids.Nodup
  unused : ∀ id ∈ ids, ∀ r ∈ db.reservations, r.reservationId ≠ id

/-- A call whose members, limit and subjects are in order. -/
structure Asked (p : Params) (sponsorLimit : Option Nat) : Prop where
  valid : p.isValid = true
  limit : parseSponsorLimit p.sponsorLimit = some sponsorLimit
  problem : p.problemId ≠ ""
  sponsor : p.sponsorId ≠ ""

section Call

variable {db : Db} {p : Params} {sponsorLimit : Option Nat} {ids : List String} {policy : Policy}

theorem Asked.count (h : Asked p sponsorLimit) :
    1 ≤ p.members.length ∧ p.members.length ≤ promotionRateLimitPerHour := by
  have hvalid := h.valid
  have hmax : maxBatchMembers = 16 := rfl
  have hcap : promotionRateLimitPerHour = 20 := rfl
  unfold Params.isValid at hvalid
  split at hvalid
  · simp only [Bool.and_eq_true, decide_eq_true_eq] at hvalid
    omega
  · rw [beq_iff_eq] at hvalid
    omega

theorem Asked.keys (h : Asked p sponsorLimit) :
    (p.members.map fun m => (m.route, m.idempotencyKey)).Nodup := by
  have hvalid := h.valid
  unfold Params.isValid at hvalid
  split at hvalid
  · simp only [Bool.and_eq_true, decide_eq_true_eq] at hvalid
    exact hvalid.2
  · rw [beq_iff_eq, List.length_eq_one_iff] at hvalid
    obtain ⟨member, hmember⟩ := hvalid
    rw [hmember]
    exact List.nodup_singleton _

end Call

/-! ## The same call at another time -/

section Retry

variable {db : Db} {p : Params} {sponsorLimit : Option Nat}

end Retry

end Asimposium.Quota
