import Asimposium.Ledger.ScientificDisposition
import Asimposium.Lib.UniqueKey
import Mathlib.Algebra.GroupWithZero.Nat
import Mathlib.Algebra.Order.BigOperators.Group.List

/-!
# Retries that wait on a claim

A stored firing says that a claim reached a standing at an event. The read takes
it for a hint: `verifyRetryClaimTransition` counts the claim's history, reads
the rows of the scientific evaluator at the captured cut, and folds them before
the firing, at it and at the cut. The count and the evaluator are two queries
with two notions of whose history an event belongs to, and they differ on an
author's withdrawal of a review or of evidence: the evaluator files it under
the claim that the input was about, the count under the withdrawn object.
-/

namespace Asimposium.DeadEndRetries

/-! ## The ledger of a problem -/

/-- The row of `scientific_withdrawals` for an event. -/
structure ScientificWithdrawal where
  sourceEventId : String
  sourceSha256 : String
  targetKind : String
  claimId : String
  claimVersion : Int

/-- The row that is joined to an event by the kind of its object. -/
inductive Joined where
  | claim (contentDigest statement directiveDisclosure : Option String)
  | review (targetClaimId : String) (targetVersion : Int)
      (weightedRefutation weightedStatementDefect : Bool)
  | evidence (bearsOnId : String) (bearsOnVersion : Option Int) (direction : Option String)
  | retraction (targetObject : String) (withdrawal : Option ScientificWithdrawal)
  | none

/-- `events`, with what both queries join to a row. -/
structure LedgerEvent where
  id : String
  seq : Int
  type : EventType
  objectId : String
  objectVersion : Int
  payloadSha256 : String
  createdAt : Option String
  fellowId : String
  sponsorId : String
  concessionEventId : Option String
  joined : Joined

/-- `event_content`, with the verdict of the content controls. -/
structure EventContent where
  payloadSha256 : String
  payloadJson : String
  redacted : Bool
  hidden : Bool

abbrev Contents := String → Option EventContent

def Contents.unredacted (contents : Contents) (e : LedgerEvent) : Option String :=
  match contents e.id with
  | some c => if c.payloadSha256 = e.payloadSha256 && !c.redacted then some c.payloadJson else none
  | none => none

/-- The body of an event, unless it was redacted or is hidden. -/
def Contents.readable (contents : Contents) (e : LedgerEvent) : Option String :=
  match contents e.id with
  | some c => if c.hidden then none else contents.unredacted e
  | none => none

def identityOfTarget (target : String) : String :=
  String.ofList (target.toList.takeWhile (· ≠ '@'))

/-- The part of a reference after the identity, if it has one. -/
def versionOfTarget (target : String) : Option String :=
  match target.toList.dropWhile (· ≠ '@') with
  | _ :: version => some (String.ofList version)
  | [] => none

namespace LedgerEvent

/-- `e.type IN (…)`. -/
def isScientific (e : LedgerEvent) : Bool := e.type ≠ .other

def evaluatorClaim (e : LedgerEvent) : Option String :=
  match e.joined with
  | .claim .. => some e.objectId
  | .review targetClaimId .. => some targetClaimId
  | .evidence bearsOnId .. => some bearsOnId
  | .retraction _ (some withdrawal) => some withdrawal.claimId
  | .retraction targetObject none => some (identityOfTarget targetObject)
  | .none => none

def budgetClaim (e : LedgerEvent) : Option String :=
  match e.joined with
  | .claim .. => some e.objectId
  | .review targetClaimId .. => some targetClaimId
  | .evidence bearsOnId .. => some bearsOnId
  | .retraction targetObject _ => some (identityOfTarget targetObject)
  | .none => none

/-- The author withdrew a review of the claim, or evidence on it. -/
def withdrawsInput (e : LedgerEvent) (claim : String) : Bool :=
  match e.joined with
  | .retraction _ (some withdrawal) => e.isScientific && withdrawal.claimId = claim
  | _ => false

end LedgerEvent

/-- `CAST(… AS INTEGER)` of SQLite. -/
abbrev CastInteger := String → Int

/-- The events of a problem, in the order of their sequence. -/
structure Ledger where
  events : List LedgerEvent
  castInteger : CastInteger

namespace Ledger

variable (db : Ledger)

def newestVersion (claim : String) (through : Int) : Int :=
  ((db.events.filter fun e => e.seq ≤ through && e.objectId == claim
    && (e.type == .claimCreated || e.type == .claimRevised)).map (·.objectVersion)).max?.getD 1

/-- `target_version`. -/
def targetVersion (e : LedgerEvent) (claim : String) : Option Int :=
  match e.joined with
  | .claim .. => some e.objectVersion
  | .review _ targetVersion .. => some targetVersion
  | .evidence _ bearsOnVersion _ => bearsOnVersion
  | .retraction _ (some withdrawal) => some withdrawal.claimVersion
  | .retraction targetObject none =>
      match versionOfTarget targetObject with
      | some version => some (db.castInteger version)
      | none => some (db.newestVersion claim e.seq)
  | .none => none

/-- The history of a claim at a cut, by a query's notion of it. -/
def scope (claimOf : LedgerEvent → Option String) (claim : String) (through : Int) :
    List LedgerEvent :=
  db.events.filter fun e => e.seq ≤ through && e.isScientific && claimOf e == some claim

abbrev evaluated (claim : String) (through : Int) : List LedgerEvent :=
  db.scope LedgerEvent.evaluatorClaim claim through

abbrev counted (claim : String) (through : Int) : List LedgerEvent :=
  db.scope LedgerEvent.budgetClaim claim through

/-- A row of `prepareScientificDispositions`. A version that is null reads as
zero: neither is a version. -/
def scientificRow (contents : Contents) (claim : String) (e : LedgerEvent) : ScientificRow :=
  let row : ScientificRow :=
    { claimId := claim, eventId := e.id, seq := e.seq, type := e.type, objectId := e.objectId
      objectVersion := e.objectVersion, targetVersion := (db.targetVersion e claim).getD 0
      payloadSha256 := e.payloadSha256, payloadJson := contents.readable e
      createdAt := e.createdAt, fellowId := e.fellowId, sponsorId := e.sponsorId
      concessionEventId := e.concessionEventId }
  match e.joined with
  | .claim contentDigest statement directiveDisclosure =>
      { row with contentDigest, statement, directiveDisclosure }
  | .review _ _ weightedRefutation weightedStatementDefect =>
      { row with weightedRefutation, weightedStatementDefect }
  | .evidence _ _ direction => { row with direction }
  | .retraction targetObject withdrawal =>
      { row with
        retractionTarget := some targetObject
        withdrawnEventId := withdrawal.map (·.sourceEventId)
        withdrawnKind := withdrawal.map (·.targetKind)
        withdrawnSha256 := withdrawal.map (·.sourceSha256) }
  | .none => row

/-- `prepareScientificDispositions` for one claim. -/
def prepareScientificDispositions (contents : Contents) (claim : String) (through : Int) :
    List ScientificRow :=
  if db.events.any fun e => e.seq ≤ through && e.objectId == claim && e.type == .claimCreated then
    (db.evaluated claim through).map (db.scientificRow contents claim)
  else []

end Ledger

/-! ## The budget -/

def RETRY_SCIENCE_MAX_EVENTS : Nat := 256

def RETRY_SCIENCE_MAX_BYTES : Nat := 1024 * 1024

def bodyBytes (contents : Contents) (scope : List LedgerEvent) : Nat :=
  (scope.map fun e => ((contents.unredacted e).map (·.utf8ByteSize)).getD 0).sum

/-- `RETRY_SCIENCE_BUDGET_SQL`: the number of events and of bytes. -/
def retryScienceBudget (db : Ledger) (contents : Contents) (claim : String) (through : Int) :
    Nat × Nat :=
  let scope := (db.counted claim through).take (RETRY_SCIENCE_MAX_EVENTS + 1)
  (scope.length, bodyBytes contents scope)

/-! ## Verification -/

/-- `RetryAdmission`: what is read here of a stored firing. -/
structure Firing where
  eventId : String
  seq : Int
  payloadSha256 : String
  payloadJson : Option String

inductive RetryAnswer where
  | holds
  | notHeld
  | unavailable
deriving Repr, DecidableEq

structure Moments where
  counted : Contents
  read : Contents
  checked : Contents

def availablePins (db : Ledger) (contents : Contents) (through : Int) (rows : List ScientificRow) :
    Nat :=
  rows.countP fun row => db.events.any fun e => e.id == row.eventId
    && e.payloadSha256 == row.payloadSha256 && e.seq ≤ through
    && contents.unredacted e == row.payloadJson

def verdictOf (reaches : ClaimDisposition) (firing : ScientificRow)
    (before after current : ScientificDisposition) : Bool :=
  before.disposition ≠ reaches && after.disposition = reaches
    && after.fold.currentVersion = firing.targetVersion
    && current.fold.currentVersion = after.fold.currentVersion && current.disposition = reaches

/-- `science.fold`, at a claim: the rows and the cut. -/
abbrev ScienceFold := List ScientificRow → Int → Except TypeError ScientificDisposition

def verifyRetryClaimTransition (fold : ScienceFold) (db : Ledger) (moments : Moments) (row : Firing)
    (claim : String) (reaches : ClaimDisposition) (through : Int) :
    Except TypeError RetryAnswer :=
  let budget := retryScienceBudget db moments.counted claim through
  if budget.1 < 1 || RETRY_SCIENCE_MAX_EVENTS < budget.1 || RETRY_SCIENCE_MAX_BYTES < budget.2 then
    .ok .unavailable
  else
    let rows := db.prepareScientificDispositions moments.read claim through
    if rows.length ≠ budget.1 || RETRY_SCIENCE_MAX_EVENTS < rows.length then .ok .unavailable
    else
      match rows.find? (·.eventId == row.eventId) with
      | none => .ok .unavailable
      | some firing =>
          if firing.claimId ≠ claim || firing.seq ≠ row.seq
              || firing.payloadSha256 ≠ row.payloadSha256 || firing.payloadJson ≠ row.payloadJson
              || !isSafeInteger firing.targetVersion || firing.targetVersion < 1 then
            .ok .unavailable
          else if rows.any fun event => event.claimId ≠ claim || through < event.seq then
            .ok .unavailable
          else do
            let before ← fold (rows.filter (·.seq < row.seq)) (row.seq - 1)
            let after ← fold (rows.filter (·.seq ≤ row.seq)) row.seq
            let current ← (if through = row.seq then .ok after else fold rows through)
            if before.stale || after.stale || current.stale then pure .unavailable
            else
              let pins := rows.filter (·.payloadJson.isSome)
              if availablePins db moments.checked through pins ≠ pins.length then pure .unavailable
              else pure (if verdictOf reaches firing before after current then .holds else .notHeld)

/-! ## The two notions of a claim's history -/

structure Ledger.WellFormed (db : Ledger) : Prop where
  ids : (db.events.map (·.id)).Nodup
  /-- A withdrawn input is a review or an evidence item, and has no claim's identity. -/
  inputs : ∀ e ∈ db.events, ∀ target withdrawal,
    e.joined = .retraction target (some withdrawal) →
      ∀ c ∈ db.events, c.type = .claimCreated → identityOfTarget target ≠ c.objectId

def Ledger.Created (db : Ledger) (claim : String) (through : Int) : Prop :=
  ∃ c ∈ db.events, c.seq ≤ through ∧ c.objectId = claim ∧ c.type = .claimCreated

section Scopes

variable {db : Ledger} {claim : String} {through : Int} {e : LedgerEvent}

/-- The count takes an event for the claim's exactly if the evaluator does and
it withdraws no input of the claim. -/
theorem budgetClaim_iff (h : db.WellFormed) (hcreated : db.Created claim through)
    (he : e ∈ db.events) (hscientific : e.isScientific = true) :
    e.budgetClaim = some claim
      ↔ e.evaluatorClaim = some claim ∧ e.withdrawsInput claim = false := by
  unfold LedgerEvent.budgetClaim LedgerEvent.evaluatorClaim LedgerEvent.withdrawsInput
  cases hjoined : e.joined with
  | claim => simp
  | review => simp
  | evidence => simp
  | none => simp
  | retraction target withdrawal =>
      cases withdrawal with
      | none => simp
      | some withdrawal =>
          obtain ⟨c, hc, -, rfl, htype⟩ := hcreated
          have hinput := h.inputs e he target withdrawal hjoined c hc htype
          simp [hinput, hscientific]

theorem mem_scope {claimOf : LedgerEvent → Option String} : e ∈ db.scope claimOf claim through
    ↔ e ∈ db.events ∧ e.seq ≤ through ∧ e.isScientific = true ∧ claimOf e = some claim := by
  simp only [Ledger.scope, List.mem_filter, Bool.and_eq_true, decide_eq_true_eq, beq_iff_eq,
    and_assoc]

theorem scope_sublist (h : db.WellFormed) (hcreated : db.Created claim through) :
    (db.counted claim through).Sublist
      (db.evaluated claim through) := by
  have hfilter : db.counted claim through
      = (db.evaluated claim through).filter
        fun e => e.budgetClaim == some claim := by
    unfold Ledger.counted Ledger.evaluated Ledger.scope
    rw [List.filter_filter]
    refine List.filter_congr fun e he => ?_
    rw [Bool.eq_iff_iff]
    simp only [Bool.and_eq_true, decide_eq_true_eq, beq_iff_eq]
    constructor
    · rintro ⟨⟨hseq, hscientific⟩, hclaim⟩
      exact ⟨hclaim, ⟨hseq, hscientific⟩, ((budgetClaim_iff h hcreated he hscientific).mp hclaim).1⟩
    · rintro ⟨hclaim, hrest, -⟩
      exact ⟨hrest, hclaim⟩
  rw [hfilter]
  exact List.filter_sublist

/-- No author withdrew a review of the claim, or evidence on it, by the cut. -/
def NoInputWithdrawn (db : Ledger) (claim : String) (through : Int) : Prop :=
  ∀ e ∈ db.events, e.seq ≤ through → e.withdrawsInput claim = false

theorem evaluatorClaim_of_withdrawsInput (h : e.withdrawsInput claim = true) :
    e.isScientific = true ∧ e.evaluatorClaim = some claim := by
  unfold LedgerEvent.withdrawsInput at h
  unfold LedgerEvent.evaluatorClaim
  split at h
  · rename_i hjoined
    rw [Bool.and_eq_true, decide_eq_true_eq] at h
    rw [hjoined]
    exact ⟨h.1, congrArg some h.2⟩
  · cases h

theorem scope_length_iff (h : db.WellFormed) (hcreated : db.Created claim through) :
    (db.evaluated claim through).length
        = (db.counted claim through).length
      ↔ NoInputWithdrawn db claim through := by
  constructor
  · intro hlength e he hseq
    have hsame := (scope_sublist h hcreated).eq_of_length_le hlength.le
    by_contra hwithdraws
    rw [Bool.not_eq_false] at hwithdraws
    obtain ⟨hscientific, hclaim⟩ := evaluatorClaim_of_withdrawsInput hwithdraws
    have hmem : e ∈ db.counted claim through := by
      rw [hsame]
      exact mem_scope.mpr ⟨he, hseq, hscientific, hclaim⟩
    have hnot := ((budgetClaim_iff h hcreated he hscientific).mp (mem_scope.mp hmem).2.2.2).2
    rw [hwithdraws] at hnot
    cases hnot
  · intro hnone
    refine congrArg List.length (List.filter_congr fun e he => ?_)
    rw [Bool.eq_iff_iff]
    simp only [Bool.and_eq_true, decide_eq_true_eq, beq_iff_eq]
    refine and_congr_right fun hrest => ?_
    rw [budgetClaim_iff h hcreated he hrest.2]
    exact ⟨fun hclaim => ⟨hclaim, hnone e he hrest.1⟩, And.left⟩

theorem bodyBytes_sublist {contents : Contents} {l l' : List LedgerEvent} (h : l.Sublist l') :
    bodyBytes contents l ≤ bodyBytes contents l' :=
  (h.map _).sum_le_sum fun _ _ => Nat.zero_le _

theorem scope_take (hbudget : (db.evaluated claim through).length
      ≤ RETRY_SCIENCE_MAX_EVENTS) (h : db.WellFormed) (hcreated : db.Created claim through) :
    (db.counted claim through).take (RETRY_SCIENCE_MAX_EVENTS + 1)
      = db.counted claim through := by
  have hle := (scope_sublist h hcreated).length_le
  exact List.take_of_length_le (by omega)

end Scopes

/-! ## The rows -/

section Rows

variable {db : Ledger} {contents : Contents} {claim : String} {through : Int} {e : LedgerEvent}

@[simp] theorem scientificRow_claimId : (db.scientificRow contents claim e).claimId = claim := by
  unfold Ledger.scientificRow
  cases e.joined <;> rfl

@[simp] theorem scientificRow_eventId : (db.scientificRow contents claim e).eventId = e.id := by
  unfold Ledger.scientificRow
  cases e.joined <;> rfl

@[simp] theorem scientificRow_seq : (db.scientificRow contents claim e).seq = e.seq := by
  unfold Ledger.scientificRow
  cases e.joined <;> rfl

@[simp] theorem scientificRow_payloadSha256 :
    (db.scientificRow contents claim e).payloadSha256 = e.payloadSha256 := by
  unfold Ledger.scientificRow
  cases e.joined <;> rfl

@[simp] theorem scientificRow_payloadJson :
    (db.scientificRow contents claim e).payloadJson = contents.readable e := by
  unfold Ledger.scientificRow
  cases e.joined <;> rfl

@[simp] theorem scientificRow_targetVersion :
    (db.scientificRow contents claim e).targetVersion = (db.targetVersion e claim).getD 0 := by
  unfold Ledger.scientificRow
  cases e.joined <;> rfl

theorem prepareScientificDispositions_eq (hcreated : db.Created claim through) :
    db.prepareScientificDispositions contents claim through
      = (db.evaluated claim through).map
        (db.scientificRow contents claim) := by
  obtain ⟨c, hc, hseq, hobject, htype⟩ := hcreated
  refine if_pos (List.any_eq_true.mpr ⟨c, hc, ?_⟩)
  simp [hseq, hobject, htype]

theorem rows_in_cut :
    (((db.evaluated claim through).map (db.scientificRow contents claim)).any
      fun event => decide (event.claimId ≠ claim) || decide (through < event.seq)) = false := by
  rw [List.any_eq_false]
  intro event hevent
  obtain ⟨x, hx, rfl⟩ := List.mem_map.mp hevent
  simpa using (mem_scope.mp hx).2.1

theorem rows_through :
    ((db.evaluated claim through).map
        (db.scientificRow contents claim)).filter (·.seq ≤ through)
      = (db.evaluated claim through).map
        (db.scientificRow contents claim) := by
  rw [List.filter_eq_self]
  intro event hevent
  obtain ⟨x, hx, rfl⟩ := List.mem_map.mp hevent
  simpa using (mem_scope.mp hx).2.1

theorem find?_firing (h : db.WellFormed)
    (he : e ∈ db.evaluated claim through) :
    ((db.evaluated claim through).map (db.scientificRow contents claim)).find?
        (·.eventId == e.id) = some (db.scientificRow contents claim e) := by
  have hids : (((db.evaluated claim through).map
      (db.scientificRow contents claim)).map (·.eventId)).Nodup := by
    rw [List.map_map]
    rw [show (·.eventId) ∘ db.scientificRow contents claim = (·.id) from
      funext fun _ => scientificRow_eventId]
    exact h.ids.sublist (List.filter_sublist.map _)
  exact (UniqueKey.find?_eq_some hids).mpr ⟨List.mem_map_of_mem he, scientificRow_eventId⟩

end Rows

/-! ## What a verification may answer -/

/-- The standings of a claim before an event, after it and at the cut. -/
structure CausalFolds (fold : ScienceFold) (rows : List ScientificRow) (seq through : Int) where
  before : ScientificDisposition
  after : ScientificDisposition
  current : ScientificDisposition
  before_eq : fold (rows.filter (·.seq < seq)) (seq - 1) = .ok before
  after_eq : fold (rows.filter (·.seq ≤ seq)) seq = .ok after
  current_eq : fold rows through = .ok current

namespace CausalFolds

variable {fold : ScienceFold} {rows : List ScientificRow} {seq through : Int}

def stale (folds : CausalFolds fold rows seq through) : Bool :=
  folds.before.stale || folds.after.stale || folds.current.stale

/-- The event brought the claim to the standing, at the version that it
targeted, and the claim still has it at the cut. -/
def Transition (folds : CausalFolds fold rows seq through) (reaches : ClaimDisposition)
    (version : Int) : Prop :=
  folds.before.disposition ≠ reaches ∧ folds.after.disposition = reaches
    ∧ folds.after.fold.currentVersion = version ∧ folds.current.fold.currentVersion = version
    ∧ folds.current.disposition = reaches

end CausalFolds

/-- A stored firing of a trigger that waits on the claim. -/
structure Firing.Of (row : Firing) (db : Ledger) (claim : String) (through : Int)
    (e : LedgerEvent) (version : Int) : Prop where
  event : e ∈ db.evaluated claim through
  id : row.eventId = e.id
  seq : row.seq = e.seq
  digest : row.payloadSha256 = e.payloadSha256
  targets : db.targetVersion e claim = some version
  version : 1 ≤ version ∧ isSafeInteger version = true

structure WithinBudget (db : Ledger) (contents : Contents) (claim : String) (through : Int) :
    Prop where
  events : (db.evaluated claim through).length ≤ RETRY_SCIENCE_MAX_EVENTS
  bytes : bodyBytes contents (db.evaluated claim through) ≤ RETRY_SCIENCE_MAX_BYTES

/-- The body of the firing could not be read, or one that was read is gone. -/
def BodyLost (db : Ledger) (moments : Moments) (claim : String) (through : Int) (row : Firing)
    (e : LedgerEvent) : Prop :=
  moments.read.readable e ≠ row.payloadJson
    ∨ ∃ x ∈ db.evaluated claim through, ∃ body,
        moments.read.readable x = some body ∧ moments.checked.unredacted x ≠ some body

/-- An answer is exact if it is `holds` exactly for a transition, and
`unavailable` only where that is excused. -/
def Exact (result : Except TypeError RetryAnswer) (transition excused : Prop) : Prop :=
  ∃ answer, result = .ok answer ∧ (answer = .holds ↔ transition ∧ ¬ excused)
    ∧ (answer = .unavailable → excused)

theorem exact_unavailable {transition excused : Prop} :
    Exact (.ok .unavailable) transition excused ↔ excused := by
  constructor
  · rintro ⟨answer, hanswer, -, hexcused⟩
    cases hanswer
    exact hexcused rfl
  · intro hexcused
    exact ⟨_, rfl, ⟨nofun, fun h => absurd hexcused h.2⟩, fun _ => hexcused⟩

theorem exact_verdict {transition excused : Prop} {verdict : Bool}
    (hverdict : verdict = true ↔ transition) (hexcused : ¬ excused) :
    Exact (.ok (if verdict then .holds else .notHeld)) transition excused := by
  cases verdict with
  | true => exact ⟨_, rfl, iff_of_true rfl ⟨hverdict.mp rfl, hexcused⟩, nofun⟩
  | false =>
      exact ⟨_, rfl, ⟨nofun, fun h => absurd (hverdict.mpr h.1) Bool.false_ne_true⟩, nofun⟩

section Answers

variable {fold : ScienceFold} {db : Ledger} {moments : Moments} {row : Firing} {claim : String}
  {reaches : ClaimDisposition} {through version : Int} {e : LedgerEvent}

theorem availablePins_eq_iff (hdb : db.WellFormed) (moments : Moments) (claim : String)
    (through : Int) :
    let pins := ((db.evaluated claim through).map
      (db.scientificRow moments.read claim)).filter (·.payloadJson.isSome)
    availablePins db moments.checked through pins = pins.length
      ↔ ∀ x ∈ db.evaluated claim through, ∀ body,
        moments.read.readable x = some body → moments.checked.unredacted x = some body := by
  intro pins
  unfold availablePins
  rw [List.countP_eq_length]
  constructor
  · intro hall x hx body hbody
    have hpin := hall (db.scientificRow moments.read claim x) (List.mem_filter.mpr
      ⟨List.mem_map_of_mem hx, by simp [hbody]⟩)
    obtain ⟨y, hy, hmatch⟩ := List.any_eq_true.mp hpin
    simp only [scientificRow_eventId, scientificRow_payloadSha256, scientificRow_payloadJson,
      Bool.and_eq_true, beq_iff_eq, decide_eq_true_eq] at hmatch
    obtain ⟨⟨⟨hid, -⟩, -⟩, hunredacted⟩ := hmatch
    have hsame := List.inj_on_of_nodup_map hdb.ids hy (mem_scope.mp hx).1 hid
    rw [← hsame, hunredacted, hbody]
  · intro hall pin hpin
    obtain ⟨hrow, hsome⟩ := List.mem_filter.mp hpin
    obtain ⟨x, hx, rfl⟩ := List.mem_map.mp hrow
    rw [scientificRow_payloadJson] at hsome
    obtain ⟨body, hbody⟩ := Option.isSome_iff_exists.mp hsome
    refine List.any_eq_true.mpr ⟨x, (mem_scope.mp hx).1, ?_⟩
    simp [(mem_scope.mp hx).2.1, hbody, hall x hx body hbody]

theorem verify_of_unread (hdb : db.WellFormed) (hcreated : db.Created claim through)
    (hfiring : row.Of db claim through e version)
    (hread : moments.read.readable e ≠ row.payloadJson) :
    verifyRetryClaimTransition fold db moments row claim reaches through = .ok .unavailable := by
  unfold verifyRetryClaimTransition
  simp only [prepareScientificDispositions_eq hcreated, List.length_map, hfiring.id,
    find?_firing hdb hfiring.event]
  split
  · rfl
  · split
    · rfl
    · exact if_pos (by simp [hread])

theorem transition_iff {fold : ScienceFold} {rows : List ScientificRow} {seq : Int}
    {firing : ScientificRow} (hversion : firing.targetVersion = version)
    (folds : CausalFolds fold rows seq through) :
    verdictOf reaches firing folds.before folds.after folds.current = true
      ↔ folds.Transition reaches version := by
  simp only [verdictOf, CausalFolds.Transition, Bool.and_eq_true, decide_eq_true_eq, hversion,
    and_assoc]
  refine and_congr_right fun _ => and_congr_right fun _ => and_congr_right fun hafter => ?_
  rw [hafter]

variable (hdb : db.WellFormed) (hcreated : db.Created claim through)
  (hbudget : WithinBudget db moments.counted claim through)

include hdb hcreated hbudget

theorem retryScienceBudget_eq :
    retryScienceBudget db moments.counted claim through
      = ((db.counted claim through).length,
        bodyBytes moments.counted (db.counted claim through)) := by
  simp only [retryScienceBudget, scope_take hbudget.events hdb hcreated]

theorem verify_of_input_withdrawn (hwithdrawn : ¬ NoInputWithdrawn db claim through) :
    verifyRetryClaimTransition fold db moments row claim reaches through = .ok .unavailable := by
  unfold verifyRetryClaimTransition
  simp only [retryScienceBudget_eq hdb hcreated hbudget, prepareScientificDispositions_eq hcreated,
    List.length_map]
  split
  · rfl
  · refine if_pos ?_
    rw [Bool.or_eq_true, decide_eq_true_eq]
    exact .inl fun hsame => hwithdrawn ((scope_length_iff hdb hcreated).mp hsame)

theorem verify_of_none_withdrawn (hfiring : row.Of db claim through e version) (hnone : NoInputWithdrawn db claim through)
    (hread : moments.read.readable e = row.payloadJson)
    (folds : CausalFolds fold (db.prepareScientificDispositions moments.read claim through)
      row.seq through) :
    verifyRetryClaimTransition fold db moments row claim reaches through
      = .ok (if folds.before.stale || folds.after.stale || folds.current.stale then .unavailable
        else
          let pins := ((db.evaluated claim through).map
            (db.scientificRow moments.read claim)).filter (·.payloadJson.isSome)
          if availablePins db moments.checked through pins ≠ pins.length then .unavailable
          else if verdictOf reaches (db.scientificRow moments.read claim e) folds.before folds.after
              folds.current then .holds else .notHeld) := by
  obtain ⟨before, after, current, hbefore, hafter, hcurrent⟩ := folds
  have hscope := (scope_length_iff hdb hcreated).mpr hnone
  have hle : bodyBytes moments.counted (db.counted claim through) ≤ RETRY_SCIENCE_MAX_BYTES :=
    (bodyBytes_sublist (scope_sublist hdb hcreated)).trans hbudget.bytes
  have hpos := List.length_pos_of_mem hfiring.event
  have hevents := hbudget.events
  rw [prepareScientificDispositions_eq hcreated] at hbefore hafter hcurrent
  unfold verifyRetryClaimTransition
  simp only [retryScienceBudget_eq hdb hcreated hbudget, prepareScientificDispositions_eq hcreated,
    List.length_map, hfiring.id, find?_firing hdb hfiring.event]
  rw [if_neg (by simp only [Bool.or_eq_true, decide_eq_true_eq]; omega),
    if_neg (by simp only [Bool.or_eq_true, decide_eq_true_eq]; omega),
    if_neg (by simp [hfiring.seq, hfiring.digest, hread, hfiring.targets, hfiring.version.2,
      hfiring.version.1]),
    if_neg (by simp only [rows_in_cut, Bool.false_eq_true, not_false_eq_true])]
  have hcut : (if through = row.seq then Except.ok after
      else fold ((db.evaluated claim through).map
        (db.scientificRow moments.read claim)) through) = .ok current := by
    split
    · next hseq =>
      rw [← hseq, rows_through] at hafter
      rw [← hafter, hcurrent]
    · exact hcurrent
  simp only [hbefore, hafter, hcut, bind, Except.bind]
  split_ifs <;> rfl

/-- A verification is exact exactly if no input of the claim was withdrawn, or
a fold is stale or a body lost, which excuses it. -/
theorem verify_exact_iff (hfiring : row.Of db claim through e version)
    (folds : CausalFolds fold (db.prepareScientificDispositions moments.read claim through)
      row.seq through) :
    let excused := folds.stale = true ∨ BodyLost db moments claim through row e
    Exact (verifyRetryClaimTransition fold db moments row claim reaches through)
        (folds.Transition reaches version) excused
      ↔ NoInputWithdrawn db claim through ∨ excused := by
  intro excused
  by_cases hnone : NoInputWithdrawn db claim through
  · refine iff_of_true ?_ (.inl hnone)
    by_cases hread : moments.read.readable e = row.payloadJson
    · rw [verify_of_none_withdrawn hdb hcreated hbudget hfiring hnone hread folds]
      have hpins := availablePins_eq_iff hdb moments claim through
      split
      · next hstale => exact exact_unavailable.mpr (.inl hstale)
      · next hfresh =>
        dsimp only at hpins ⊢
        split
        · next hgone =>
          have hlost := mt hpins.mpr hgone
          push Not at hlost
          exact exact_unavailable.mpr (.inr (.inr hlost))
        · next hthere =>
          refine exact_verdict (transition_iff (by simp [hfiring.targets]) folds) ?_
          rintro (hstale | hunread | ⟨x, hx, body, hbody, hlost⟩)
          · exact hfresh hstale
          · exact hunread hread
          · exact hlost (hpins.mp (not_not.mp hthere) x hx body hbody)
    · rw [verify_of_unread hdb hcreated hfiring hread]
      exact exact_unavailable.mpr (.inr (.inl hread))
  · rw [verify_of_input_withdrawn hdb hcreated hbudget hnone, or_iff_right hnone]
    exact exact_unavailable

end Answers

end Asimposium.DeadEndRetries
