import Asimposium.Lib.Trace
import Mathlib.Data.List.Nodup

/-!
# The idle sweep

A sweep reads the open sessions whose idle deadline has passed, then acts on
them one batch each. Every statement of a batch carries the guard again: the
session is open, and its deadline is the one that was read. Meanwhile sessions
are opened, kept alive and closed, leases change, and other notices are written.

Instants are milliseconds. Sweeps and heartbeats read the clock at a step of
their own; a statement that compares with the clock of the database does so as
it commits.
-/

namespace Asimposium.Sessions

/-! ## Rows -/

structure SessionRow where
  sessionId : String
  fellowId : String
  problemId : String
  openedAt : Int
  lastHeartbeatAt : Int
  idleCloseAt : Int
  closedAt : Option Int
  deriving DecidableEq

inductive LeaseStatus where
  | active
  | released
  | expired
  | challenged
  | abandoned
  deriving DecidableEq, Repr

structure LeaseRow where
  leaseId : String
  sessionId : String
  status : LeaseStatus
  updatedAt : Int
  deriving DecidableEq

structure NoticeRow where
  id : String
  fellowId : String
  problemId : Option String
  noticeType : String
  seq : Nat
  title : String
  detail : Option String
  targetId : Option String
  acknowledgedAt : Option Int
  createdAt : Int
  deriving DecidableEq

structure Store where
  sessions : List SessionRow
  leases : List LeaseRow
  notices : List NoticeRow

/-! ## The batch -/

/-- `STILL_IDLE`. -/
def stillIdle (sessionId : String) (deadline now : Int) (s : SessionRow) : Bool :=
  s.sessionId == sessionId && s.closedAt.isNone && s.idleCloseAt == deadline && s.idleCloseAt ≤ now

def nextNoticeSeq (fellowId : String) (notices : List NoticeRow) : Nat :=
  ((notices.filter (·.fellowId == fellowId)).map (·.seq)).foldl max 0 + 1

def idleNotice (id : String) (now : Int) (s : SessionRow) (notices : List NoticeRow) :
    NoticeRow where
  id := id
  fellowId := s.fellowId
  problemId := some s.problemId
  noticeType := "protocol_notice"
  seq := nextNoticeSeq s.fellowId notices
  title := "Idle session closed"
  detail := some ("The session closed after its idle deadline. Workshop drafts are preserved; "
    ++ "nothing was promoted. Open a new session to continue.")
  targetId := some s.sessionId
  acknowledgedAt := none
  createdAt := now

/-- `IDLE_SESSION_NOTICE_SQL`; the guard names one row, as `session_id` is the
primary key. -/
def noticeStatement (id : String) (now : Int) (guard : SessionRow → Bool) (store : Store) : Store :=
  match store.sessions.find? guard with
  | none => store
  | some s =>
      if store.notices.any (·.id == id) then store
      else { store with notices := store.notices ++ [idleNotice id now s store.notices] }

def LeaseRow.held (l : LeaseRow) : Bool := l.status == .active || l.status == .challenged

/-- `IDLE_SESSION_LEASES_SQL`. -/
def leasesStatement (now : Int) (guard : SessionRow → Bool) (store : Store) : Store :=
  { store with
    leases := store.leases.map fun l =>
      if ((store.sessions.filter guard).map (·.sessionId)).contains l.sessionId && l.held then
        { l with status := .expired, updatedAt := now }
      else l }

/-- `IDLE_SESSION_CLOSE_SQL`. -/
def closeStatement (now : Int) (guard : SessionRow → Bool) (store : Store) : Store :=
  { store with
    sessions := store.sessions.map fun s => if guard s then { s with closedAt := some now } else s }

/-- One batch of the sweep; `none` when the check of `closed_at` fails and the
batch is rolled back. -/
def sweepBatch (noticeId : String → String) (sessionId : String) (deadline now : Int)
    (store : Store) : Option Store :=
  let guard := stillIdle sessionId deadline now
  if store.sessions.any fun s => guard s && now < s.openedAt then none
  else some (closeStatement now guard (leasesStatement now guard
    (noticeStatement (noticeId sessionId) now guard store)))

/-- The sessions a sweep reads: the deadline longest past first, and one more
than it acts on. -/
def selectIdle (now : Int) (fellowId : Option String) (limit : Nat) (sessions : List SessionRow) :
    List SessionRow :=
  ((sessions.filter fun s =>
      s.closedAt.isNone && s.idleCloseAt ≤ now && fellowId.all (· == s.fellowId)).mergeSort
    fun a b => a.idleCloseAt < b.idleCloseAt
      || (a.idleCloseAt == b.idleCloseAt && a.sessionId ≤ b.sessionId)).take (limit + 1)

/-! ## The parties -/

inductive Sweep where
  | waiting
  /-- The clock is read. -/
  | selecting (now : Int) (fellowId : Option String) (limit : Nat)
  /-- The sessions that are left, by id and the deadline that was read. -/
  | closing (now : Int) (todo : List (String × Int))
  | done

structure World where
  now : Int
  store : Store
  sweeps : Nat → Sweep

inductive Commit where
  | selected (sweep : Nat) (observed : List (String × Int))
  | swept (sweep : Nat) (sessionId : String) (deadline : Int) (closed : Bool)
  | heartbeat (sessionId : String)
  | other

def World.setSweep (w : World) (k : Nat) (sweep : Sweep) : World :=
  { w with sweeps := fun i => if i = k then sweep else w.sweeps i }

def World.setSessions (w : World) (sessions : List SessionRow) (leases : List LeaseRow) : World :=
  { w with store := { w.store with sessions := sessions, leases := leases } }

def updateSession (sessionId : String) (change : SessionRow → SessionRow)
    (sessions : List SessionRow) : List SessionRow :=
  sessions.map fun s => if s.sessionId = sessionId then change s else s

def sessionIdleMs : Int := 30 * 60 * 1000

def SessionRow.beat (s : SessionRow) (reading : Int) : SessionRow :=
  { s with lastHeartbeatAt := reading, idleCloseAt := reading + sessionIdleMs }

/-- A direct append moves both instants forward, never back. -/
def SessionRow.join (s : SessionRow) (joinedAt idleAfterJoin : Int) : SessionRow :=
  { s with
    lastHeartbeatAt := max s.lastHeartbeatAt joinedAt
    idleCloseAt := max s.idleCloseAt idleAfterJoin }

/-- One step of the deployment. Beside the sweeps, leases may become anything,
and so may notices, except that nothing else writes the notice of an idle
session. -/
inductive Step (noticeId : String → String) : World → Commit → World → Prop
  | tick (w : World) (later : Int) (hlater : w.now ≤ later) :
      Step noticeId w .other { w with now := later }
  | start (w : World) (k : Nat) (fellowId : Option String) (limit : Nat)
      (hphase : w.sweeps k = .waiting) :
      Step noticeId w .other (w.setSweep k (.selecting w.now fellowId limit))
  | select (w : World) (k : Nat) (now : Int) (fellowId : Option String) (limit : Nat)
      (observed : List (String × Int)) (hphase : w.sweeps k = .selecting now fellowId limit)
      (hobserved : observed = ((selectIdle now fellowId limit w.store.sessions).take limit).map
        fun s => (s.sessionId, s.idleCloseAt)) :
      Step noticeId w (.selected k observed) (w.setSweep k (.closing now observed))
  /-- A batch commits; its answer may be lost. -/
  | sweep (w : World) (k : Nat) (now : Int) (sessionId : String) (deadline : Int)
      (todo : List (String × Int)) (store : Store) (next : Sweep)
      (hphase : w.sweeps k = .closing now ((sessionId, deadline) :: todo))
      (hbatch : sweepBatch noticeId sessionId deadline now w.store = some store)
      (hnext : next = .closing now todo ∨ next = .done) :
      Step noticeId w
        (.swept k sessionId deadline (w.store.sessions.any (stillIdle sessionId deadline now)))
        ({ w with store := store }.setSweep k next)
  /-- A batch is rolled back, or the sweep stops. -/
  | stop (w : World) (k : Nat) (now : Int) (todo : List (String × Int))
      (hphase : w.sweeps k = .closing now todo) : Step noticeId w .other (w.setSweep k .done)
  | heartbeat (w : World) (s : SessionRow) (reading : Int) (leases : List LeaseRow)
      (hrow : s ∈ w.store.sessions) (hopen : s.closedAt = none) (hread : reading ≤ w.now)
      (hlast : s.lastHeartbeatAt ≤ reading) (hidle : w.now < s.idleCloseAt) :
      Step noticeId w (.heartbeat s.sessionId)
        (w.setSessions (updateSession s.sessionId (·.beat reading) w.store.sessions) leases)
  | join (w : World) (s : SessionRow) (joinedAt idleAfterJoin : Int)
      (hrow : s ∈ w.store.sessions) (hopen : s.closedAt = none) (hidle : w.now < s.idleCloseAt) :
      Step noticeId w (.heartbeat s.sessionId)
        (w.setSessions (updateSession s.sessionId (·.join joinedAt idleAfterJoin) w.store.sessions)
          w.store.leases)
  /-- An explicit close, or the last append of an implicit session. -/
  | close (w : World) (s : SessionRow) (closedAt : Int) (leases : List LeaseRow)
      (hrow : s ∈ w.store.sessions) (hopen : s.closedAt = none) :
      Step noticeId w .other
        (w.setSessions (updateSession s.sessionId ({ · with closedAt := some closedAt })
          w.store.sessions) leases)
  | opened (w : World) (s : SessionRow) (hopen : s.closedAt = none)
      (hfresh : s.sessionId ∉ w.store.sessions.map (·.sessionId)) :
      Step noticeId w .other (w.setSessions (w.store.sessions ++ [s]) w.store.leases)
  | leases (w : World) (leases : List LeaseRow) :
      Step noticeId w .other (w.setSessions w.store.sessions leases)
  | notices (w : World) (notices : List NoticeRow)
      (hforeign : ∀ n ∈ notices, ∀ sessionId, n.id = noticeId sessionId →
        n.id ∈ w.store.notices.map (·.id)) :
      Step noticeId w .other { w with store := { w.store with notices := notices } }

end Asimposium.Sessions
