import Asimposium.Lib.SlidingWindow
import Mathlib.Algebra.Order.Floor.Defs
import Mathlib.Data.Rat.Floor

/-!
# The attempt reservations

The table of public write attempts with its triggers, and the slow-mode
controls one of them reads. Every statement below either changes the
tables or aborts; a batch runs its statements in order and changes
nothing when one of them aborts.
-/

namespace Asimposium.Quota

/-- `PROMOTION_RATE_LIMIT_PER_HOUR`. -/
def promotionRateLimitPerHour : Nat := 20

/-- `PROMOTION_RATE_LIMIT_WINDOW_MS`. -/
def promotionRateLimitWindowMs : Int := 3600000

/-- `RESERVATION_EXPIRY_MS`. -/
def reservationExpiryMs : Int := 60000

inductive ReservationStatus where
  | reserved
  | settledPublished
  | settledHeld
  | settledRejected
  | settledFailed
  | recovered
deriving DecidableEq

structure Attempt where
  reservationId : String
  fellowId : String
  problemId : String
  sponsorId : String
  sessionId : String
  route : String
  idempotencyKey : String
  requestDigest : String
  reservedAt : Int
  expiresAt : Int
  sponsorLimit : Option Nat
deriving DecidableEq

structure Reservation extends Attempt where
  settledAt : Option Int
  status : ReservationStatus
deriving DecidableEq

/-- What a slow-mode control does; the table checks that exactly a `set`
has a limit and an expiry. -/
inductive ControlAction where
  | set (limitPerHour : Nat) (expiresAt : Int)
  | clear
deriving DecidableEq

structure Control where
  eventId : String
  problemId : String
  revision : Int
  action : ControlAction
  createdAt : Int
deriving DecidableEq

structure Db where
  reservations : List Reservation
  controls : List Control
  /-- The ids of the events of the ledger. -/
  events : List String

inductive Abort where
  | promotionRateLimit
  | sponsorRateLimit
  | unique
  | settledImmutable
  | controlNotCurrent
deriving DecidableEq

/-! ## Triggers on insertion -/

/-- `fellow_id = ? AND problem_id = ?`. -/
def Attempt.sameFellowProblem (q r : Attempt) : Bool :=
  r.fellowId == q.fellowId && r.problemId == q.problemId

/-- The attempts a trigger counts: those selected, of the window that ends
with the new one, and all later ones. -/
def countRecent (selects : Attempt → Bool) (reservedAt : Int) (rows : List Reservation) : Nat :=
  rows.countP fun r =>
    selects r.toAttempt && decide (reservedAt - promotionRateLimitWindowMs < r.reservedAt)

/-- `problem_slow_mode_current`: the control of the highest revision. -/
def Db.currentControl (db : Db) (problemId : String) : Option Control :=
  let controls := db.controls.filter (·.problemId == problemId)
  controls.find? fun c => controls.all (·.revision ≤ c.revision)

/-- The control is set, and has not expired at this reading of a clock. -/
def Control.inForceAt (c : Control) (now : Int) : Bool :=
  match c.action with
  | .set _ expiresAt => now < expiresAt
  | .clear => false

def Db.slowMode (db : Db) (q : Attempt) : Option Control :=
  (db.currentControl q.problemId).filter (·.inForceAt q.reservedAt)

def Control.limit (c : Control) : Nat :=
  match c.action with
  | .set limitPerHour _ => limitPerHour
  | .clear => promotionRateLimitPerHour

/-- `public_write_attempt_cap_insert`. -/
def Db.attemptCap (db : Db) (q : Attempt) : Bool :=
  promotionRateLimitPerHour ≤ countRecent q.sameFellowProblem q.reservedAt db.reservations

/-- `public_write_sponsor_cap_insert`. -/
def Db.sponsorCap (db : Db) (q : Attempt) : Bool :=
  q.sponsorLimit.any fun limit =>
    limit ≤ countRecent (·.sponsorId == q.sponsorId) q.reservedAt db.reservations

/-- `public_write_slow_mode_cap_insert`. -/
def Db.slowModeCap (db : Db) (q : Attempt) : Bool :=
  (db.slowMode q).any fun c =>
    c.limit ≤ countRecent q.sameFellowProblem q.reservedAt db.reservations

/-- The primary key, and the key of an attempt in flight. -/
def Db.notUnique (db : Db) (q : Attempt) : Bool :=
  db.reservations.any fun r => r.reservationId == q.reservationId
    || (r.status == .reserved && r.fellowId == q.fellowId && r.route == q.route
      && r.idempotencyKey == q.idempotencyKey)

/-- The reasons there are to refuse the row; which of them an abort names is
not determined. -/
def Db.refusals (db : Db) (q : Attempt) : List Abort :=
  (if db.attemptCap q || db.slowModeCap q then [.promotionRateLimit] else [])
    ++ (if db.sponsorCap q then [.sponsorRateLimit] else [])
    ++ (if db.notUnique q then [.unique] else [])

/-- `INSERT INTO public_write_attempt_reservations`. -/
def Db.insertReservation (db : Db) (q : Attempt) : Except (List Abort) Db :=
  if db.refusals q = [] then
    .ok { db with reservations := db.reservations ++ [⟨q, none, .reserved⟩] }
  else .error (db.refusals q)

/-! ## Updates -/

/-- A status other than `reserved`. -/
abbrev SettledStatus := { status : ReservationStatus // status ≠ .reserved }

/-- An update of the rows selected; `public_write_reservations_update_guard`
aborts it when one of them is not in flight. -/
def Db.updateReservations (db : Db) (selects : Reservation → Bool)
    (change : Reservation → Reservation) : Except (List Abort) Db :=
  if db.reservations.any fun r => selects r && r.status != .reserved then
    .error [.settledImmutable]
  else .ok { db with reservations := db.reservations.map fun r => if selects r then change r else r }

def expired (fellowId : String) (now : Int) (r : Reservation) : Bool :=
  r.fellowId == fellowId && r.status == .reserved && decide (r.expiresAt ≤ now)

def Db.recover (db : Db) (fellowId : String) (now : Int) : Except (List Abort) Db :=
  db.updateReservations (expired fellowId now) fun r => { r with status := .recovered }

/-- A settlement: `SET status = ?, settled_at = ?`. -/
def Db.settleWhere (db : Db) (selects : Reservation → Bool) (status : SettledStatus)
    (settledAt : Int) : Except (List Abort) Db :=
  db.updateReservations selects fun r =>
    { r with status := status, settledAt := some settledAt }

/-- `settleQuotaReservation`. -/
def Db.settleQuotaReservation (db : Db) (reservationId : String) (status : SettledStatus)
    (now : Int) : Except (List Abort) Db :=
  db.settleWhere (fun r => r.reservationId == reservationId && r.status == .reserved) status now

/-- `settleQuotaReservationStatement`, which runs in the ledger's batch. -/
def Db.settleQuotaReservationStatement (db : Db) (reservationId eventId : String) (now : Int) :
    Except (List Abort) Db :=
  db.settleWhere (fun r => r.reservationId == reservationId && r.status == .reserved
    && db.events.contains eventId) ⟨.settledPublished, by decide⟩ now

/-- `PROBLEM_SLOW_MODE_MAX_DURATION_MS`. -/
def slowModeMaxDurationMs : Int := 86400000

def Control.wellFormed (c : Control) : Bool :=
  decide (1 ≤ c.revision) && decide (1 ≤ c.createdAt)
    && match c.action with
      | .set limitPerHour expiresAt => decide (1 ≤ limitPerHour ∧ limitPerHour ≤ 19)
          && decide (c.createdAt < expiresAt ∧ expiresAt ≤ c.createdAt + slowModeMaxDurationMs)
      | .clear => true

/-- `INSERT INTO problem_slow_mode_events`, under its guard; what else the
guard asks of the problem and of the actor is left to the caller. -/
def Db.insertControl (db : Db) (c : Control) : Except (List Abort) Db :=
  let controls := db.controls.filter (·.problemId == c.problemId)
  if c.wellFormed ∧ controls.foldl (fun revision old => max revision old.revision) 0 + 1 = c.revision
      ∧ ∀ old ∈ controls, old.createdAt ≤ c.createdAt then
    .ok { db with controls := db.controls ++ [c] }
  else .error [.controlNotCurrent]

end Asimposium.Quota

/-!
## Reserving the quota

`checkAndReserveQuota` and `checkAndReserveQuotaBatch`, cut at their
awaits: each phase is what the call holds before it next turns to the
database, and the reads of the budget, of the key in flight and of the
insertion all see the tables as they are by then. The reason of a refusal
is computed from the earlier reads, or from the abort; the admission
itself is decided by the insertion alone.
-/

namespace Asimposium.Quota

inductive RawLimit where
  | absent
  | number (value : ℚ)
  /-- No finite number. -/
  | invalid

/-- `parseSponsorLimit`; `none` when it throws. -/
def parseSponsorLimit : RawLimit → Option (Option Nat)
  | .absent => some none
  | .number value => if value < 0 then none else some (some ⌊value⌋.toNat)
  | .invalid => none

/-! ## The budget -/

structure Policy where
  limit : Nat
  slowMode : Option Control

/-- `readPromotionPolicy`; `none` when the stored control is not readable. -/
def Db.readPromotionPolicy (db : Db) (problemId : String) (now : Int) : Option Policy :=
  if problemId = "" then some ⟨promotionRateLimitPerHour, none⟩
  else match db.currentControl problemId with
    | none => some ⟨promotionRateLimitPerHour, none⟩
    | some c =>
        if !c.wellFormed then none
        else if c.inForceAt now then some ⟨c.limit, some c⟩
        else some ⟨promotionRateLimitPerHour, none⟩

structure Budget where
  limit : Nat
  remaining : Nat
  sponsorLimit : Option Nat
  sponsorRemaining : Option Nat
  slowMode : Option Control

def budgetOf (policy : Policy) (sponsorLimit : Option Nat) (fellowCount sponsorCount : Nat) :
    Budget where
  limit := policy.limit
  remaining := policy.limit - fellowCount
  sponsorLimit := sponsorLimit
  sponsorRemaining := sponsorLimit.map (· - sponsorCount)
  slowMode := policy.slowMode

/-! ## Calls -/

structure Member where
  route : String
  idempotencyKey : String
  requestDigest : String
deriving DecidableEq

/-- The parameters of a call; a single call has one member. -/
structure Params where
  batch : Bool
  fellowId : String
  problemId : String
  sponsorId : String
  sessionId : String
  members : List Member
  now : Int
  sponsorLimit : RawLimit

/-- `MAX_BATCH_MEMBERS`. -/
def maxBatchMembers : Nat := 16

/-- The attempts the members of a batch ask for are counted and keyed. -/
def Params.isValid (p : Params) : Bool :=
  if p.batch then 1 ≤ p.members.length && p.members.length ≤ maxBatchMembers
    && decide (p.members.map fun m => (m.route, m.idempotencyKey)).Nodup
  else p.members.length == 1

def Params.attempt (p : Params) (sponsorLimit : Option Nat) (reservationId : String)
    (member : Member) : Attempt where
  reservationId := reservationId
  fellowId := p.fellowId
  problemId := p.problemId
  sponsorId := p.sponsorId
  sessionId := p.sessionId
  route := member.route
  idempotencyKey := member.idempotencyKey
  requestDigest := member.requestDigest
  reservedAt := p.now
  expiresAt := p.now + reservationExpiryMs
  sponsorLimit := sponsorLimit

inductive Dimension where
  | fellowProblem
  | sponsor
deriving DecidableEq

inductive CheckResult where
  | allowed (reservations : List Attempt) (budget : Budget)
  | rateLimited (dimension : Dimension) (budget : Budget)
  | inFlightConflict
  /-- The call throws. -/
  | thrown

inductive Goal where
  | place
  | refuse (dimension : Dimension)
  | report (reservations : List Attempt)

inductive Phase where
  | waiting
  /-- Before expired reservations are marked; a batch marks them with its
  insertions. -/
  | recovering (sponsorLimit : Option Nat)
  | readingPolicy (sponsorLimit : Option Nat) (goal : Goal)
  | countingFellow (sponsorLimit : Option Nat) (policy : Policy) (goal : Goal)
  | countingSponsor (sponsorLimit : Option Nat) (policy : Policy) (fellowCount : Nat) (goal : Goal)
  | checkingKey (sponsorLimit : Option Nat) (budget : Budget)
  | inserting (sponsorLimit : Option Nat)
  | answered (result : CheckResult)

def Params.begin (p : Params) : Phase :=
  if !p.isValid then .answered .thrown
  else match parseSponsorLimit p.sponsorLimit with
    | none => .answered .thrown
    | some sponsorLimit =>
        if p.batch then .readingPolicy sponsorLimit .place else .recovering sponsorLimit

def Params.decide (p : Params) (sponsorLimit : Option Nat) (budget : Budget) : Goal → Phase
  | .refuse dimension => .answered (.rateLimited dimension budget)
  | .report reservations => .answered (.allowed reservations budget)
  | .place =>
      if p.batch then
        if budget.sponsorRemaining.any (· < p.members.length) then
          .answered (.rateLimited .sponsor budget)
        else if budget.remaining < p.members.length then
          .answered (.rateLimited .fellowProblem budget)
        else .inserting sponsorLimit
      else if budget.sponsorRemaining = some 0 then .answered (.rateLimited .sponsor budget)
      else .checkingKey sponsorLimit budget

/-- The attempts of this Fellow on this problem that the budget counts. -/
def Db.fellowCount (db : Db) (p : Params) : Nat :=
  if p.problemId = "" then 0
  else countRecent (fun r => r.fellowId == p.fellowId && r.problemId == p.problemId) p.now
    db.reservations

def Db.sponsorCount (db : Db) (p : Params) (sponsorLimit : Option Nat) : Nat :=
  if sponsorLimit.any (0 < ·) ∧ p.sponsorId ≠ "" then
    countRecent (·.sponsorId == p.sponsorId) p.now db.reservations
  else 0

def Db.keyInFlight (db : Db) (p : Params) : Bool :=
  p.members.any fun member => db.reservations.any fun r =>
    r.fellowId == p.fellowId && r.route == member.route
      && r.idempotencyKey == member.idempotencyKey && r.status == .reserved
      && decide (p.now < r.expiresAt)

def afterKey (inFlight : Bool) (sponsorLimit : Option Nat) (budget : Budget) : Phase :=
  if inFlight then .answered .inFlightConflict
  else if budget.remaining = 0 then .answered (.rateLimited .fellowProblem budget)
  else .inserting sponsorLimit

/-- The next phase after a read of the budget or of the key. -/
def Params.read (p : Params) (db : Db) : Phase → Phase
  | .readingPolicy sponsorLimit goal =>
      match db.readPromotionPolicy p.problemId p.now with
      | none => .answered .thrown
      | some policy => .countingFellow sponsorLimit policy goal
  | .countingFellow sponsorLimit policy goal =>
      .countingSponsor sponsorLimit policy (db.fellowCount p) goal
  | .countingSponsor sponsorLimit policy fellowCount goal =>
      p.decide sponsorLimit
        (budgetOf policy sponsorLimit fellowCount (db.sponsorCount p sponsorLimit)) goal
  | .checkingKey sponsorLimit budget => afterKey (db.keyInFlight p) sponsorLimit budget
  | phase => phase

/-- The attempts a call inserts, with the identifiers it drew for them. -/
def Params.attempts (p : Params) (sponsorLimit : Option Nat) (ids : List String) : List Attempt :=
  ids.zipWith (p.attempt sponsorLimit) p.members

def Db.insertAll (db : Db) (attempts : List Attempt) : Except (List Abort) Db :=
  attempts.foldlM Db.insertReservation db

def Params.admission (p : Params) (sponsorLimit : Option Nat) (ids : List String) (db : Db) :
    Except (List Abort) Db :=
  if p.batch then do
    let db ← db.recover p.fellowId p.now
    db.insertAll (p.attempts sponsorLimit ids)
  else db.insertAll (p.attempts sponsorLimit ids)

def afterAbort (sponsorLimit : Option Nat) : Abort → Phase
  | .sponsorRateLimit => .readingPolicy sponsorLimit (.refuse .sponsor)
  | .promotionRateLimit => .readingPolicy sponsorLimit (.refuse .fellowProblem)
  | .unique => .answered .inFlightConflict
  | _ => .answered .thrown

end Asimposium.Quota
