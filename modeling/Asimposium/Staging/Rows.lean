import Mathlib.Data.Option.Basic
import Mathlib.Logic.Relation

/-!
# The rows of staging retention

What the cleanup of staged uploads reads and writes of one upload: its
manifest row, its parts and renewals, and its row of the retention queue.
A statement addresses one upload. It aborts where a trigger or a CHECK of
the tables refuses the new row, and then changes nothing.

Instants are milliseconds. Tokens and upload ids are opaque.
-/

namespace Asimposium.Staging

def artifactReplayMs : Int := 24 * 60 * 60 * 1000
def artifactVerifyLeaseMs : Int := 60000
def artifactStagingRetryMs : Int := 5 * 60 * 1000

/-! ## Rows -/

/-- The columns `lease_token` and `lease_until`, null together. -/
structure Lease where
  token : String
  until_ : Int
  deriving DecidableEq, Repr

/-- `lease_until IS NULL OR lease_until <= now`. -/
def leaseFree (now : Int) : Option Lease → Bool
  | none => true
  | some lease => lease.until_ ≤ now

/-- `lease_token = token`. -/
def leasedTo (token : String) : Option Lease → Bool
  | none => false
  | some lease => lease.token == token

/-- `lease_token = token AND lease_until > now`. -/
def leasedBeyond (token : String) (now : Int) : Option Lease → Bool
  | none => false
  | some lease => lease.token == token && now < lease.until_

inductive UploadState where
  | presigned
  | verified
  | quarantined
  | expired
  deriving DecidableEq, Repr

structure UploadRow where
  state : UploadState
  updatedAt : Int
  expiresAt : Int
  putExpiresAt : Int
  lease : Option Lease
  deriving DecidableEq, Repr

structure Part where
  partNumber : Nat
  sha256 : String
  deriving DecidableEq, Repr

structure RetentionRow where
  nextAttemptAt : Option Int
  held : Bool
  deletionPending : Bool
  attempts : Nat
  lastClearedAt : Option Int
  lease : Option Lease
  deriving DecidableEq, Repr

/-- The rows of one upload, with its parts and the `put_expires_at` of its
renewals. -/
structure Site where
  upload : UploadRow
  renewals : List Int
  parts : List Part
  retention : RetentionRow
  deriving DecidableEq, Repr

/-- The condition both the selection and the lease of the sweep make. -/
def Site.eligibleUpload (site : Site) (now : Int) : Bool :=
  [.presigned, .verified, .expired].contains site.upload.state
    && site.upload.expiresAt ≤ now - artifactVerifyLeaseMs
    && site.upload.putExpiresAt ≤ now - artifactVerifyLeaseMs
    && !site.renewals.any (now - artifactVerifyLeaseMs < ·)
    && leaseFree now site.upload.lease

def Site.due (site : Site) (now : Int) : Bool :=
  !site.retention.held && !site.retention.deletionPending
    && site.retention.nextAttemptAt.any (· ≤ now)
    && leaseFree now site.retention.lease && site.eligibleUpload now

def isLeaseToken (token : String) : Bool :=
  token.toList.length == 32 && token.toList.all fun c => c.isDigit || ('a' ≤ c && c ≤ 'f')

def RetentionRow.checks (row : RetentionRow) : Bool :=
  row.nextAttemptAt.all (0 < ·) && row.lastClearedAt.all (0 < ·)
    && (!row.deletionPending || (!row.held && row.lease.isSome))
    && row.lease.all fun lease => !row.held && isLeaseToken lease.token && 0 < lease.until_

/-- The trigger `artifact_staging_retention_hold`. -/
def RetentionRow.holdRefused (old new : RetentionRow) : Bool :=
  new.held != old.held && (old.lease.isSome || old.deletionPending)

/-! ## Statements -/

/-- What becomes of an update: `none` where it aborts, else the rows after
it and whether it matched. -/
abbrev Outcome := Option (Site × Bool)

/-- An update of the retention row that matches if `selected`. -/
def Site.updateRetention (site : Site) (selected : Bool) (new : RetentionRow) : Outcome :=
  if !selected then some (site, false)
  else if site.retention.holdRefused new || !new.checks then none
  else some ({ site with retention := new }, true)

/-- An update of the manifest row that matches if `selected`, under the
trigger `artifact_upload_immutable`; the trigger
`artifact_staging_retention_quarantined` unschedules a quarantined upload. -/
def Site.updateUpload (site : Site) (selected : Bool) (new : UploadRow) : Outcome :=
  if !selected then some (site, false)
  else if site.upload.state != .presigned || new.expiresAt != site.upload.expiresAt
      || new.putExpiresAt != site.upload.putExpiresAt || new.updatedAt < site.upload.updatedAt
      || (new.state == .expired && new.updatedAt < site.upload.expiresAt) then none
  else
    let retention :=
      if new.state == .quarantined then { site.retention with nextAttemptAt := none }
      else site.retention
    some ({ site with upload := new, retention := retention }, true)

inductive Statement where
  /-- The lease of `reconcileArtifactStaging`. -/
  | leaseScheduled (token : String) (now : Int)
  /-- The lease of `discardStaging`. -/
  | leaseRequest (token : String) (now : Int)
  /-- The sweep expires an upload whose window is over. -/
  | expireUpload (token : String) (now : Int)
  /-- The sweep lets go of an upload that no longer qualifies. -/
  | releaseUnneeded (token : String) (checkedAt : Int)
  /-- `clearArtifactStaging` marks the row before it deletes anything. -/
  | beginDeletion (token : String) (now : Int) (scheduled : Bool)
  /-- The deletes have settled. -/
  | acknowledge (token : String) (finished : Int) (scheduled : Bool)
  /-- A delete has been refused. -/
  | acknowledgeFailure (token : String) (now : Int) (scheduled : Bool)
  /-- The sweep lets go after a failure. -/
  | releaseFailed (token : String) (now : Int)
  /-- `discardStaging` lets go, however it went. -/
  | releaseRequest (token : String)
  /-- The operator sets or lifts a hold. -/
  | hold (held : Bool)
  /-- Any other statement on the manifest row: the leases of a completion and
  of its parts, its verdict, the expiry of `expireManifest`. -/
  | manifest (selected : Bool) (row : UploadRow)
  deriving DecidableEq, Repr

def Statement.exec (site : Site) : Statement → Outcome
  | .leaseScheduled token now =>
      site.updateRetention (site.due now)
        { site.retention with
          lease := some ⟨token, now + artifactVerifyLeaseMs⟩
          attempts := site.retention.attempts + 1 }
  | .leaseRequest token now =>
      site.updateRetention
        (!site.retention.held && !site.retention.deletionPending
          && leaseFree now site.retention.lease)
        { site.retention with lease := some ⟨token, now + artifactVerifyLeaseMs⟩ }
  | .expireUpload token now =>
      site.updateUpload
        (site.upload.state == .presigned && site.upload.expiresAt ≤ now
          && leaseFree now site.upload.lease && !site.retention.held
          && leasedBeyond token now site.retention.lease)
        { site.upload with state := .expired, updatedAt := now, lease := none }
  | .releaseUnneeded token checkedAt =>
      site.updateRetention (leasedTo token site.retention.lease)
        { site.retention with
          lease := none, nextAttemptAt := some (checkedAt + artifactStagingRetryMs) }
  | .beginDeletion token now scheduled =>
      site.updateRetention
        (!site.retention.held && !site.retention.deletionPending
          && leasedBeyond token now site.retention.lease
          && ([.verified, .expired].contains site.upload.state
            || (!scheduled && site.upload.state == .quarantined)))
        { site.retention with deletionPending := true }
  | .acknowledge token finished scheduled =>
      site.updateRetention
        (!site.retention.held && site.retention.deletionPending
          && leasedTo token site.retention.lease)
        { site.retention with
          deletionPending := false
          lastClearedAt := some finished
          nextAttemptAt :=
            if scheduled then some (finished + artifactReplayMs) else site.retention.nextAttemptAt
          lease := none }
  | .acknowledgeFailure token now scheduled =>
      site.updateRetention
        (site.retention.deletionPending && leasedTo token site.retention.lease)
        { site.retention with
          deletionPending := false
          nextAttemptAt :=
            if scheduled then some (now + artifactStagingRetryMs) else site.retention.nextAttemptAt
          lease := none }
  | .releaseFailed token now =>
      site.updateRetention
        (leasedTo token site.retention.lease && !site.retention.deletionPending)
        { site.retention with
          nextAttemptAt := some (now + artifactStagingRetryMs), lease := none }
  | .releaseRequest token =>
      site.updateRetention
        (leasedTo token site.retention.lease && !site.retention.deletionPending)
        { site.retention with lease := none }
  | .hold held => site.updateRetention true { site.retention with held := held }
  | .manifest selected row => site.updateUpload selected row

def Statement.run (statement : Statement) : Option Site → Option (Option Site × Bool)
  | none => some (none, false)
  | some site => (statement.exec site).map fun (site', matched) => (some site', matched)

/-- The check the sweep makes before it clears an upload. -/
def Site.current (site : Site) (token : String) (checkedAt : Int) : Bool :=
  !site.retention.held && leasedBeyond token checkedAt site.retention.lease
    && [.verified, .expired].contains site.upload.state && site.eligibleUpload checkedAt

end Asimposium.Staging

/-!
## Staging cleanup

`reconcileArtifactStaging` and `discardStaging` as processes over the rows
of `Asimposium.Staging.Rows` and over the bucket. Both call
`clearArtifactStaging`, whose deletes and acknowledgement form an operation
of their own: it outlives the deadline the caller waits for.

Every statement may fail without effect, or have its effect and lose its
answer. Every reading of a clock may be any instant, so a lease may expire
at any time. A worker may stop at any point, and the bucket works on a
delete that was sent to it until the delete settles, whether or not its
sender still lives.
-/

namespace Asimposium.Staging

/-! ## Objects -/

/-- A key of the staging namespace: the upload itself, or one of its parts. -/
structure Key where
  uploadId : String
  part : Option Part
  deriving DecidableEq, Repr

def artifactStagingKey (uploadId : String) : Key := ⟨uploadId, none⟩

def partKey (uploadId : String) (part : Part) : Key := ⟨uploadId, some part⟩

/-- The keys `clearArtifactStaging` deletes. -/
def stagingKeys (uploadId : String) (parts : List Part) : List Key :=
  artifactStagingKey uploadId :: parts.map (partKey uploadId)

/-! ## The operation -/

inductive Phase where
  /-- The row is marked, and nothing has been deleted. -/
  | begun
  /-- A delete of these keys has been sent. -/
  | waiting (batch : List Key)
  /-- A delete has been answered. -/
  | between
  /-- All is deleted, or a delete has failed. -/
  | settled (ok : Bool) (finished : Int)
  /-- What the acknowledgement came to; `none` for an error. -/
  | ended (result : Option Bool)
  /-- The worker stopped while a delete was under way. -/
  | orphaned (batch : List Key)
  deriving DecidableEq, Repr

structure Cleanup where
  uploadId : String
  token : String
  scheduled : Bool
  /-- The keys no delete has been sent for. -/
  keys : List Key
  deadlineExpired : Bool
  phase : Phase
  /-- The keys whose delete has settled; read by no step. -/
  answered : List Key
  deriving DecidableEq, Repr

def Cleanup.outstanding (c : Cleanup) : List Key :=
  match c.phase with
  | .waiting batch | .orphaned batch => batch
  | _ => []

def Cleanup.live (c : Cleanup) : Bool :=
  match c.phase with
  | .ended _ => false
  | _ => true

def Cleanup.deleteNext (c : Cleanup) (clock : Int) : Cleanup :=
  match c.keys with
  | [] => { c with phase := .settled true clock }
  | key :: rest =>
      if c.deadlineExpired then { c with phase := .settled false clock }
      else { c with phase := .waiting [key], keys := rest }

/-- The operation sends a delete, or settles. The sweep deletes all keys at
once. -/
def Cleanup.proceed (c : Cleanup) (clock : Int) : Option Cleanup :=
  match c.phase with
  | .begun =>
      if c.scheduled then some { c with phase := .waiting c.keys, keys := [] }
      else some (c.deleteNext clock)
  | .between => some (c.deleteNext clock)
  | _ => none

def Cleanup.settle (c : Cleanup) (batch : List Key) (ok : Bool) (clock : Int) : Cleanup :=
  { c with
    phase := if ok then .between else .settled false clock
    answered := c.answered ++ batch }

def Cleanup.acknowledgement (c : Cleanup) (ok : Bool) (finished : Int) : Statement :=
  if ok then .acknowledge c.token finished c.scheduled
  else .acknowledgeFailure c.token finished c.scheduled

def Cleanup.crash (c : Cleanup) : Cleanup :=
  match c.phase with
  | .waiting batch => { c with phase := .orphaned batch }
  | .orphaned _ => c
  | _ => { c with phase := .ended none }

/-! ## Its callers -/

/-- A claim on one upload: by the sweep, with the candidates left to it, or
by a request. -/
structure Owner where
  uploadId : String
  token : String
  scheduled : Bool
  rest : List String
  deriving DecidableEq, Repr

inductive Main where
  | idle
  /-- The head of the sweep's loop. -/
  | next (rest : List String)
  | lease (o : Owner) (now : Int)
  | expire (o : Owner) (now : Int)
  | check (o : Owner) (checkedAt : Int)
  | release (o : Owner) (checkedAt : Int)
  | parts (o : Owner)
  | marking (o : Owner) (keys : List Key) (now : Int)
  /-- Waiting for the operation of this number, or for the deadline. -/
  | racing (o : Owner) (n : Nat)
  /-- The `catch` of the sweep, the `finally` of a request. -/
  | recover (o : Owner) (now : Int)
  deriving DecidableEq, Repr

def Owner.leave (o : Owner) : Main := if o.scheduled then .next o.rest else .idle

/-- `clearArtifactStaging` has returned, or there was nothing to clear. -/
def Owner.returned (o : Owner) (clock : Int) : Main :=
  if o.scheduled then .next o.rest else .recover o clock

/-- The statement that is under way, and the upload it addresses. -/
def Main.statement : Main → Option (String × Statement)
  | .lease o now =>
      some (o.uploadId, if o.scheduled then .leaseScheduled o.token now else .leaseRequest o.token now)
  | .expire o now => some (o.uploadId, .expireUpload o.token now)
  | .release o checkedAt => some (o.uploadId, .releaseUnneeded o.token checkedAt)
  | .marking o _ now => some (o.uploadId, .beginDeletion o.token now o.scheduled)
  | .recover o now =>
      some (o.uploadId, if o.scheduled then .releaseFailed o.token now else .releaseRequest o.token)
  | _ => none

/-- How it goes on when its statement is answered: whether a row matched,
and the next reading of the clock. -/
def Main.answered (clock : Int) (matched : Bool) : Main → Main
  | .lease o now =>
      if !matched then o.returned clock else if o.scheduled then .expire o now else .parts o
  | .expire o _ => .check o clock
  | .release o _ => o.leave
  | .marking o _ _ => o.returned clock
  | .recover o _ => o.leave
  | main => main

def Main.failed (clock : Int) : Main → Main
  | .lease o _ | .expire o _ | .check o _ | .release o _ | .parts o | .marking o _ _ =>
      .recover o clock
  | .recover o _ => o.leave
  | main => main

/-! ## Steps -/

structure World where
  db : String → Option Site
  mains : Nat → Main
  cleanups : Nat → Option Cleanup
  objects : Key → Bool

namespace World

def setMain (w : World) (i : Nat) (main : Main) : World :=
  { w with mains := Function.update w.mains i main }

def setSite (w : World) (uploadId : String) (site : Option Site) : World :=
  { w with db := Function.update w.db uploadId site }

def setCleanup (w : World) (n : Nat) (c : Cleanup) : World :=
  { w with cleanups := Function.update w.cleanups n (some c) }

def setObject (w : World) (key : Key) (present : Bool) : World :=
  { w with objects := Function.update w.objects key present }

section Updates

variable (w : World)

theorem mains_setMain (i : Nat) (main : Main) (j : Nat) :
    (w.setMain i main).mains j = if j = i then main else w.mains j :=
  Function.update_apply _ _ _ _

theorem db_setSite (uploadId : String) (site : Option Site) (u : String) :
    (w.setSite uploadId site).db u = if u = uploadId then site else w.db u :=
  Function.update_apply _ _ _ _

theorem cleanups_setCleanup (n : Nat) (c : Cleanup) (m : Nat) :
    (w.setCleanup n c).cleanups m = if m = n then some c else w.cleanups m :=
  Function.update_apply _ _ _ _

theorem objects_setObject (key : Key) (present : Bool) (k : Key) :
    (w.setObject key present).objects k = if k = key then present else w.objects k :=
  Function.update_apply _ _ _ _

end Updates

/-- The bucket has a delete of this upload's staging keys to work on. -/
def Outstanding (w : World) (uploadId : String) : Prop :=
  ∃ n c key, w.cleanups n = some c ∧ key ∈ c.outstanding ∧ key.uploadId = uploadId

end World

inductive Step : World → World → Prop
  | beginSweep (w : World) (i : Nat) (selectedAt : Int) (candidates : List String)
      (hidle : w.mains i = .idle) (hlimit : candidates.length ≤ 16)
      (hdue : ∀ uploadId ∈ candidates, ∃ site, w.db uploadId = some site ∧ site.due selectedAt = true) :
      Step w (w.setMain i (.next candidates))
  | beginRequest (w : World) (i : Nat) (uploadId token : String) (now : Int)
      (hidle : w.mains i = .idle) :
      Step w (w.setMain i (.lease ⟨uploadId, token, false, []⟩ now))
  | candidate (w : World) (i : Nat) (uploadId token : String) (rest : List String) (now : Int)
      (hmain : w.mains i = .next (uploadId :: rest)) :
      Step w (w.setMain i (.lease ⟨uploadId, token, true, rest⟩ now))
  /-- The sweep's clock is no instant. -/
  | candidateFailed (w : World) (i : Nat) (uploadId token : String) (rest : List String) (now : Int)
      (hmain : w.mains i = .next (uploadId :: rest)) :
      Step w (w.setMain i (.recover ⟨uploadId, token, true, rest⟩ now))
  | endSweep (w : World) (i : Nat) (hmain : w.mains i = .next []) : Step w (w.setMain i .idle)
  | answered (w : World) (i : Nat) (uploadId : String) (statement : Statement)
      (site : Option Site) (matched : Bool) (clock : Int)
      (hmain : (w.mains i).statement = some (uploadId, statement))
      (hrun : statement.run (w.db uploadId) = some (site, matched))
      (hnot : matched = true → ∀ o keys now, w.mains i ≠ .marking o keys now) :
      Step w ((w.setSite uploadId site).setMain i ((w.mains i).answered clock matched))
  /-- The statement had its effect, and its answer is lost. -/
  | answerLost (w : World) (i : Nat) (uploadId : String) (statement : Statement)
      (site : Option Site) (matched : Bool) (clock : Int)
      (hmain : (w.mains i).statement = some (uploadId, statement))
      (hrun : statement.run (w.db uploadId) = some (site, matched)) :
      Step w ((w.setSite uploadId site).setMain i ((w.mains i).failed clock))
  /-- A statement or a read has failed, or the clock is no instant. -/
  | failed (w : World) (i : Nat) (clock : Int) : Step w (w.setMain i ((w.mains i).failed clock))
  /-- The row is marked, and the operation begins. -/
  | marked (w : World) (i n : Nat) (o : Owner) (keys : List Key) (now : Int) (site : Option Site)
      (hmain : w.mains i = .marking o keys now)
      (hrun : (Statement.beginDeletion o.token now o.scheduled).run (w.db o.uploadId)
        = some (site, true))
      (hfresh : w.cleanups n = none) :
      Step w (((w.setSite o.uploadId site).setMain i (.racing o n)).setCleanup n
        ⟨o.uploadId, o.token, o.scheduled, keys, false, .begun, []⟩)
  | checked (w : World) (i : Nat) (o : Owner) (checkedAt : Int)
      (hmain : w.mains i = .check o checkedAt) :
      Step w (w.setMain i
        (if (w.db o.uploadId).any (·.current o.token checkedAt) then .parts o
          else .release o checkedAt))
  | readParts (w : World) (i : Nat) (o : Owner) (site : Site) (now : Int)
      (hmain : w.mains i = .parts o) (hsite : w.db o.uploadId = some site)
      (hparts : site.parts.length ≤ 4) :
      Step w (w.setMain i (.marking o (stagingKeys o.uploadId site.parts) now))
  | raceWon (w : World) (i n : Nat) (o : Owner) (c : Cleanup) (result : Option Bool) (clock : Int)
      (hmain : w.mains i = .racing o n) (hcleanup : w.cleanups n = some c)
      (hended : c.phase = .ended result) :
      Step w (w.setMain i (if result.isSome then o.returned clock else .recover o clock))
  /-- The timer is set once the first delete has been sent. -/
  | deadline (w : World) (i n : Nat) (o : Owner) (c : Cleanup) (clock : Int)
      (hmain : w.mains i = .racing o n) (hcleanup : w.cleanups n = some c)
      (hbegun : c.phase ≠ .begun) :
      Step w ((w.setMain i (.recover o clock)).setCleanup n { c with deadlineExpired := true })
  | crash (w : World) (i : Nat) : Step w (w.setMain i .idle)
  | crashCleanup (w : World) (n : Nat) (c : Cleanup) (hcleanup : w.cleanups n = some c) :
      Step w (w.setCleanup n c.crash)
  | proceed (w : World) (n : Nat) (c c' : Cleanup) (clock : Int)
      (hcleanup : w.cleanups n = some c) (hproceed : c.proceed clock = some c') :
      Step w (w.setCleanup n c')
  /-- The bucket carries out a part of a delete. -/
  | erase (w : World) (n : Nat) (c : Cleanup) (key : Key) (hcleanup : w.cleanups n = some c)
      (hkey : key ∈ c.outstanding) : Step w (w.setObject key false)
  | settle (w : World) (n : Nat) (c : Cleanup) (batch : List Key) (ok : Bool) (clock : Int)
      (hcleanup : w.cleanups n = some c) (hphase : c.phase = .waiting batch) :
      Step w (w.setCleanup n (c.settle batch ok clock))
  /-- A delete settles late, and nobody hears of it. -/
  | settleOrphaned (w : World) (n : Nat) (c : Cleanup) (batch : List Key)
      (hcleanup : w.cleanups n = some c) (hphase : c.phase = .orphaned batch) :
      Step w (w.setCleanup n { c with phase := .ended none, answered := c.answered ++ batch })
  | acknowledged (w : World) (n : Nat) (c : Cleanup) (ok : Bool) (finished : Int)
      (site : Option Site) (matched : Bool) (hcleanup : w.cleanups n = some c)
      (hphase : c.phase = .settled ok finished)
      (hrun : (c.acknowledgement ok finished).run (w.db c.uploadId) = some (site, matched)) :
      Step w ((w.setSite c.uploadId site).setCleanup n
        { c with phase := .ended (if ok then some matched else none) })
  | acknowledgementLost (w : World) (n : Nat) (c : Cleanup) (ok : Bool) (finished : Int)
      (site : Option Site) (matched : Bool) (hcleanup : w.cleanups n = some c)
      (hphase : c.phase = .settled ok finished)
      (hrun : (c.acknowledgement ok finished).run (w.db c.uploadId) = some (site, matched)) :
      Step w ((w.setSite c.uploadId site).setCleanup n { c with phase := .ended none })
  | acknowledgementFailed (w : World) (n : Nat) (c : Cleanup) (ok : Bool) (finished : Int)
      (hcleanup : w.cleanups n = some c) (hphase : c.phase = .settled ok finished) :
      Step w (w.setCleanup n { c with phase := .ended none })
  /-- The operator sets or lifts a hold, and the change is acknowledged. -/
  | hold (w : World) (uploadId : String) (held : Bool) (site : Option Site)
      (hrun : (Statement.hold held).run (w.db uploadId) = some (site, true)) :
      Step w (w.setSite uploadId site)
  | manifest (w : World) (uploadId : String) (selected : Bool) (row : UploadRow)
      (site : Option Site) (matched : Bool)
      (hrun : (Statement.manifest selected row).run (w.db uploadId) = some (site, matched)) :
      Step w (w.setSite uploadId site)
  | create (w : World) (uploadId : String) (row : UploadRow) (hfresh : w.db uploadId = none)
      (hstate : row.state = .presigned) :
      Step w (w.setSite uploadId
        (some ⟨row, [], [], ⟨some (row.expiresAt + 60000), false, false, 0, none, none⟩⟩))
  /-- A renewal or a part is recorded. -/
  | record (w : World) (uploadId : String) (site : Site) (renewals : List Int) (parts : List Part)
      (hsite : w.db uploadId = some site) :
      Step w (w.setSite uploadId
        (some { site with renewals := site.renewals ++ renewals, parts := site.parts ++ parts }))
  /-- A PUT arrives, however late. -/
  | put (w : World) (key : Key) : Step w (w.setObject key true)

abbrev Run : World → World → Prop := Relation.ReflTransGen Step

end Asimposium.Staging
