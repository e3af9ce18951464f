import Asimposium.Krater.Tables

/-!
# The Krater writers

The batches of `writeClaim`, `writeClaimRevision`, `writeLedgerEvent`,
`writeGapEvent`, `writeRelationEvent` and `writeRelationDisputeEvent`,
each prepared for the head its call has read before.

Four of them own their transition by the unsettled key alone and differ
in one projection statement and in a guard (`keyedBatch`); the other two
compare the request digest and the new head in every guard and append a
precondition to the election of the sequence and to the event
(`electedBatch`). Projection statements and companions are parameters:
they act on other tables. A companion never aborts.

A precondition may read the clock, which each statement of a batch does
for itself; a batch carries the instants at which the two statements
evaluate it.
-/

namespace Asimposium.Krater

variable {R : Type}

/-- What `statementsAfterIdempotencySettlement` and `statementsAfterEvent`
are given. -/
structure Settlement where
  sequence : Nat
  objectId : String
  eventId : String
  payloadSha256 : String

abbrev Companion (R : Type) := Settlement → Db R → Tables R

abbrev Projection (R : Type) := Settlement → Db R → Except Abort (Tables R)

def EventRow.settlement (row : EventRow) : Settlement :=
  { sequence := row.seq, objectId := row.objectId, eventId := row.eventId
    payloadSha256 := row.payloadSha256 }

/-! ## Statements of the writers -/

/-- Elect the next sequence: the head is still the one read, and the key
is this call's to settle. -/
def electHead (before : Head) (next : String) (owns : Db R → Bool) : Statement R :=
  onLedger (fun db => db.ledger.head = before && owns db) fun ledger => .ok (ledger.advance next)

/-- Insert the event, past the triggers of other migrations. -/
def appendEvent (site : Site R) (row : EventRow) (condition : Db R → Bool) : Statement R :=
  fun db =>
    if condition db && !site.admitsEvent db row then .error (.refused "trigger on events")
    else onLedger condition (·.insertEvent row) db

/-- Settle the key on the event, past the triggers on `idempotency`. -/
def settle (site : Site R) (key : String) (digest : Option String) (eventId : String)
    (condition : Db R → Bool) : Statement R :=
  fun db =>
    if condition db && db.ledger.ownsKey key digest && db.ledger.hasEvent eventId
        && !site.admitsSettlement db eventId then
      .error (.refused "trigger on idempotency")
    else onLedger condition (fun ledger => .ok (ledger.settleKey key digest eventId)) db

def Site.checkpoint (site : Site R) (row : EventRow) : CheckpointRow :=
  { checkpointSeq := row.seq, rootChainDigest := row.chainDigest
    checkpointDigest := site.checkpointDigest row.seq row.chainDigest }

/-- `SELECT p.id, p.public_seq, p.chain_digest, ? FROM problems p`: sequence
and root are those of the head at that moment. -/
def checkpointHead (site : Site R) (row : EventRow) : Ledger → Except Abort Ledger :=
  fun ledger => ledger.insertCheckpoint
    { site.checkpoint row with
      checkpointSeq := ledger.head.publicSeq, rootChainDigest := ledger.head.chainDigest }

/-- `SELECT e.problem_id, e.seq, … FROM events e WHERE e.id = ?`. A revision
also names the sequence and takes the root from the event. -/
def checkpointEvent (site : Site R) (row : EventRow) (strict : Bool) :
    Ledger → Except Abort Ledger :=
  fun ledger =>
    match ledger.events.find? fun event =>
        event.eventId == row.eventId && (!strict || event.seq == row.seq) with
    | none => .ok ledger
    | some event => ledger.insertCheckpoint
        { site.checkpoint row with
          checkpointSeq := event.seq
          rootChainDigest := if strict then event.chainDigest else row.chainDigest }

/-! ## The two shapes of a batch -/

/-- What follows the election in a batch guarded by the unsettled key.
`guard` is the one the settling writers add to every statement from the
event on, `settles` the one they add to the settlement. -/
def keyedEffects (site : Site R) (key payloadJson : String) (row : EventRow)
    (project : Db R → Except Abort (Tables R)) (guard settles : Tables R → Bool)
    (afterEvent : Db R → Except Abort (Tables R)) (companion : Companion R) :
    List (Statement R) :=
  let guarded := fun db : Db R => db.ledger.ownsKey key none && guard db.tables
  [ effect project,
    appendEvent site row guarded,
    onLedger guarded (·.insertContent
      { eventId := row.eventId, payloadSha256 := row.payloadSha256, payloadJson }),
    effect afterEvent,
    onLedger guarded (checkpointHead site row),
    settle site key none row.eventId fun db => settles db.tables,
    effect fun db => .ok (companion row.settlement db) ]

def keyedBatch (site : Site R) (key requestDigest payloadJson : String) (before : Head)
    (row : EventRow) (project : Db R → Except Abort (Tables R)) (guard settles : Tables R → Bool)
    (afterEvent : Db R → Except Abort (Tables R)) (companion : Companion R) :
    List (Statement R) :=
  onLedger (fun _ => true) (fun ledger => .ok (ledger.openKey key requestDigest row.createdAt none))
    :: electHead before row.chainDigest (fun db => db.ledger.ownsKey key none)
    :: keyedEffects site key payloadJson row project guard settles afterEvent companion

/-- What follows the election in a batch guarded by the key, the request
digest, the elected head and a precondition. In a revision the statements
after the event name the key and the sequence once more (`strict`). -/
def electedEffects (site : Site R) (key requestDigest payloadJson : String) (row : EventRow)
    (precondition : Db R → Bool) (strict : Bool) (projection : Projection R)
    (companion : Companion R) : List (Statement R) :=
  let owns := fun db : Db R => db.ledger.ownsKey key (some requestDigest)
  [ appendEvent site row fun db =>
      owns db && db.ledger.head = { publicSeq := row.seq, chainDigest := row.chainDigest }
        && precondition db,
    onLedger (fun db => db.ledger.hasEvent row.eventId && (!strict || owns db)) (·.insertContent
      { eventId := row.eventId, payloadSha256 := row.payloadSha256, payloadJson }),
    effect (projection row.settlement),
    onLedger (fun db => !strict || owns db) (checkpointEvent site row strict),
    settle site key (some requestDigest) row.eventId fun _ => true,
    effect fun db => .ok (companion row.settlement db),
    onLedger (fun _ => true) fun ledger => .ok (ledger.dropKey key requestDigest) ]

/-- A batch guarded by the elected head. The clock tells the instants at
which the election and the event evaluate the precondition. -/
def electedBatch (site : Site R) (key requestDigest payloadJson : String)
    (expiredBefore : Option String) (before : Head) (row : EventRow)
    (precondition : Int → Db R → Bool) (clock : Int × Int) (strict : Bool)
    (projection : Projection R) (companion : Companion R) : List (Statement R) :=
  onLedger (fun _ => true)
      (fun ledger => .ok (ledger.openKey key requestDigest row.createdAt expiredBefore))
    :: electHead before row.chainDigest (fun db =>
      db.ledger.ownsKey key (some requestDigest) && precondition clock.1 db)
    :: electedEffects site key requestDigest payloadJson row (precondition clock.2) strict
      projection companion

/-! ## The writers -/

/-- `KraterWriteInput`, with its companion. The claim id may depend on the
sequence (`claimIdForSequence`); payload and request are texts of it. -/
structure KraterWriteInput (R : Type) where
  eventId : String
  idempotencyKey : String
  claimId : Nat → String
  payloadFor : String → String
  requestFor : String → String
  companionRequestDigest : Option String
  createdAt : String
  actor : Attribution
  projection : Projection R
  companion : Companion R

def claimRow (site : Site R) (input : KraterWriteInput R) (before : Head) : EventRow :=
  let claimId := input.claimId (before.publicSeq + 1)
  site.candidate before
    { eventId := input.eventId, type := "claim.created", objectKind := "claim", objectId := claimId
      objectVersion := 1, payloadSha256 := site.sha256Hex (input.payloadFor claimId)
      createdAt := input.createdAt, actor := input.actor }

def claimRequestDigest (site : Site R) (input : KraterWriteInput R) (before : Head) : String :=
  input.companionRequestDigest.getD
    (site.sha256Hex (input.requestFor (input.claimId (before.publicSeq + 1))))

/-- The claim, its projection and the outbox row are inserted after the
event. -/
def claimBatch (site : Site R) (input : KraterWriteInput R) (before : Head) :
    List (Statement R) :=
  let row := claimRow site input before
  keyedBatch site input.idempotencyKey (claimRequestDigest site input before)
    (input.payloadFor row.objectId) before row (fun db => .ok db.tables) (fun _ => true)
    (fun _ => true) (input.projection row.settlement) input.companion

/-- `KraterRevisionInput`, with its projection and its companion. -/
structure KraterRevisionInput (R : Type) where
  claimId : String
  eventId : String
  idempotencyKey : String
  newVersion : Nat
  payloadJson : String
  requestJson : String
  companionRequestDigest : Option String
  createdAt : String
  actor : Attribution
  /-- The exact base, the author, and no exclusive lease of another. -/
  precondition : Int → Db R → Bool
  projection : Projection R
  companion : Companion R

def revisionRow (site : Site R) (input : KraterRevisionInput R) (before : Head) : EventRow :=
  site.candidate before
    { eventId := input.eventId, type := "claim.revised", objectKind := "claim"
      objectId := input.claimId, objectVersion := input.newVersion
      payloadSha256 := site.sha256Hex input.payloadJson, createdAt := input.createdAt
      actor := input.actor }

def revisionRequestDigest (site : Site R) (input : KraterRevisionInput R) : String :=
  input.companionRequestDigest.getD (site.sha256Hex input.requestJson)

def revisionBatch (site : Site R) (input : KraterRevisionInput R) (before : Head)
    (clock : Int × Int) : List (Statement R) :=
  electedBatch site input.idempotencyKey (revisionRequestDigest site input) input.payloadJson none
    before (revisionRow site input before) input.precondition clock true input.projection
    input.companion

/-- `KraterLedgerEventInput`, with its projection plan and its companion.
Only governance keys expire. -/
structure KraterLedgerEventInput (R : Type) where
  eventId : String
  idempotencyKey : String
  requestDigest : String
  eventType : String
  objectKind : String
  objectId : String
  objectVersion : Nat
  payloadJson : String
  createdAt : String
  actor : Attribution
  expiredBefore : Option String
  precondition : Int → Db R → Bool
  projection : Projection R
  companion : Companion R

def ledgerEventRow (site : Site R) (input : KraterLedgerEventInput R) (before : Head) : EventRow :=
  site.candidate before
    { eventId := input.eventId, type := input.eventType, objectKind := input.objectKind
      objectId := input.objectId, objectVersion := input.objectVersion
      payloadSha256 := site.sha256Hex input.payloadJson, createdAt := input.createdAt
      actor := input.actor }

def ledgerEventBatch (site : Site R) (input : KraterLedgerEventInput R) (before : Head)
    (clock : Int × Int) : List (Statement R) :=
  electedBatch site input.idempotencyKey input.requestDigest input.payloadJson input.expiredBefore
    before (ledgerEventRow site input before) input.precondition clock false input.projection
    input.companion

inductive GapOutcome where
  | closedBy
  | withdrawn
deriving Repr, DecidableEq

def GapOutcome.status : GapOutcome → GapStatus
  | .closedBy => .closedBy
  | .withdrawn => .withdrawn

/-- The two kinds of `KraterGapInput`. -/
inductive GapAction where
  | filed (obligation closesWhat targetClaimId : String) (targetVersion : Nat)
  | settled (gapId : String) (outcome : GapOutcome) (closedBy : Option String)

structure KraterGapInput (R : Type) where
  action : GapAction
  eventId : String
  idempotencyKey : String
  actorFellowId : String
  actor : Attribution
  createdAt : String
  companion : Companion R

def GapOutcome.spelling : GapOutcome → String
  | .closedBy => "closed-by"
  | .withdrawn => "withdrawn"

/-- `input.mode`. -/
def GapAction.mode : GapAction → String
  | .filed .. => "filed"
  | .settled _ outcome _ => outcome.spelling

def canonicalGapPayload : GapAction → String
  | .filed obligation closesWhat targetClaimId targetVersion =>
      canonicalJson [("closes_what", .text closesWhat), ("obligation", .text obligation),
        ("target_claim_id", .text targetClaimId), ("target_version", .number targetVersion)]
  | .settled gapId outcome closedBy =>
      canonicalJson [("closed_by", .nullable closedBy), ("gap_id", .text gapId),
        ("outcome", .text outcome.spelling)]

def GapAction.gapId (action : GapAction) (before : Head) : String :=
  match action with
  | .filed .. => "G-" ++ toString (before.publicSeq + 1)
  | .settled gapId _ _ => gapId

def gapRow (site : Site R) (input : KraterGapInput R) (before : Head) : EventRow :=
  site.candidate before
    { eventId := input.eventId, type := "gap." ++ input.action.mode, objectKind := "gap"
      objectId := input.action.gapId before, objectVersion := 1
      payloadSha256 := site.sha256Hex (canonicalGapPayload input.action)
      createdAt := input.createdAt, actor := input.actor }

def openGap (input : KraterGapInput R) (gapId obligation closesWhat targetClaimId : String)
    (targetVersion : Nat) : GapRow :=
  { gapId, obligation, closesWhat, targetClaimId, targetVersion, status := .opened
    closedBy := none, authorFellowId := input.actorFellowId, createdAt := input.createdAt
    closedAt := none }

/-- `INSERT INTO proof_gaps`, of a filed gap on a public claim. -/
def fileGap (site : Site R) (key : String) (gap : GapRow) (db : Db R) :
    Except Abort (Tables R) :=
  if !(db.ledger.ownsKey key none && site.isClaim db.tables gap.targetClaimId) then .ok db.tables
  else if db.tables.gaps.any (·.gapId == gap.gapId) then .error (.unique "proof_gaps")
  else .ok { db.tables with gaps := db.tables.gaps ++ [gap] }

/-- `UPDATE proof_gaps … WHERE status = 'open'`. Neither the head nor the
key is asked. -/
def settleGap (gapId : String) (outcome : GapOutcome) (closedBy : Option String)
    (createdAt : String) (tables : Tables R) : Tables R :=
  { tables with gaps := tables.gaps.map fun gap =>
      if gap.gapId = gapId ∧ gap.status = .opened then
        { gap with status := outcome.status, closedBy, closedAt := some createdAt }
      else gap }

def isGapSettled (gapId : String) (outcome : GapOutcome) (createdAt : String) (tables : Tables R) :
    Bool :=
  tables.gaps.any fun gap =>
    gap.gapId = gapId && gap.status = outcome.status && gap.closedAt = some createdAt

def gapBatch (site : Site R) (input : KraterGapInput R) (before : Head) : List (Statement R) :=
  let row := gapRow site input before
  let payloadJson := canonicalGapPayload input.action
  match input.action with
  | .filed obligation closesWhat targetClaimId targetVersion =>
      keyedBatch site input.idempotencyKey row.payloadSha256 payloadJson before row
        (fileGap site input.idempotencyKey (openGap input row.objectId obligation closesWhat
          targetClaimId targetVersion))
        (fun _ => true) (fun _ => true) (fun db => .ok db.tables) input.companion
  | .settled gapId outcome closedBy =>
      keyedBatch site input.idempotencyKey row.payloadSha256 payloadJson before row
        (fun db => .ok (settleGap gapId outcome closedBy input.createdAt db.tables))
        (isGapSettled gapId outcome input.createdAt) (isGapSettled gapId outcome input.createdAt)
        (fun db => .ok db.tables) input.companion

structure KraterRelationInput (R : Type) where
  eventId : String
  idempotencyKey : String
  edge : Edge
  assertedByFellow : String
  actor : Attribution
  createdAt : String
  companion : Companion R

def Edge.source (edge : Edge) : String :=
  edge.sourceClaimId ++ "@" ++ toString edge.sourceVersion

def Edge.objectId (edge : Edge) : String :=
  edge.source ++ "-" ++ edge.kind ++ "-" ++ edge.targetRef

def relationPayload (edge : Edge) : String :=
  canonicalJson [("kind", .text edge.kind), ("source", .text edge.source),
    ("target", .text edge.targetRef)]

def relationRow (site : Site R) (input : KraterRelationInput R) (before : Head) : EventRow :=
  site.candidate before
    { eventId := input.eventId, type := "relation.asserted", objectKind := "relation"
      objectId := input.edge.objectId, objectVersion := 1
      payloadSha256 := site.sha256Hex (relationPayload input.edge), createdAt := input.createdAt
      actor := input.actor }

/-- `INSERT INTO claim_relations`, from a public claim. -/
def assertRelation (site : Site R) (key : String) (relation : RelationRow) (db : Db R) :
    Except Abort (Tables R) :=
  if !(db.ledger.ownsKey key none && site.isClaim db.tables relation.sourceClaimId) then
    .ok db.tables
  else if db.tables.relations.any (·.toEdge = relation.toEdge) then
    .error (.unique "claim_relations")
  else .ok { db.tables with relations := db.tables.relations ++ [relation] }

def relationBatch (site : Site R) (input : KraterRelationInput R) (before : Head) :
    List (Statement R) :=
  let row := relationRow site input before
  keyedBatch site input.idempotencyKey row.payloadSha256 (relationPayload input.edge) before row
    (assertRelation site input.idempotencyKey
      { input.edge with
        status := .asserted, assertedByEvent := input.eventId
        assertedByFellow := input.assertedByFellow, createdAt := input.createdAt
        disputedByEvent := none, disputedByFellow := none, disputedAt := none })
    (fun _ => true) (fun _ => true) (fun db => .ok db.tables) input.companion

structure KraterRelationDisputeInput (R : Type) where
  eventId : String
  idempotencyKey : String
  edge : Edge
  disputedByFellow : String
  reason : String
  refutingEvidenceId : Option String
  actor : Attribution
  createdAt : String
  companion : Companion R

def disputePayload (input : KraterRelationDisputeInput R) : String :=
  canonicalJson ([("disputed_by", .text input.disputedByFellow), ("kind", .text input.edge.kind),
      ("reason", .text input.reason)]
    ++ (input.refutingEvidenceId.map fun id => ("refuting_evidence_id", JsonScalar.text id)).toList
    ++ [("source", .text input.edge.source), ("target", .text input.edge.targetRef)])

def disputeRow (site : Site R) (input : KraterRelationDisputeInput R) (before : Head) : EventRow :=
  site.candidate before
    { eventId := input.eventId, type := "relation.disputed", objectKind := "relation"
      objectId := input.edge.objectId, objectVersion := 1
      payloadSha256 := site.sha256Hex (disputePayload input), createdAt := input.createdAt
      actor := input.actor }

/-- `UPDATE claim_relations … WHERE status = 'asserted'`, for an unsettled
key. -/
def disputeRelation (input : KraterRelationDisputeInput R) (db : Db R) : Tables R :=
  { db.tables with relations := db.tables.relations.map fun relation =>
      if relation.toEdge = input.edge ∧ relation.status = .asserted
          ∧ db.ledger.ownsKey input.idempotencyKey none then
        { relation with
          status := .disputed, disputedByEvent := some input.eventId
          disputedByFellow := some input.disputedByFellow, disputedAt := some input.createdAt }
      else relation }

def isDisputedBy (edge : Edge) (eventId : String) (tables : Tables R) : Bool :=
  tables.relations.any fun relation =>
    relation.toEdge = edge && relation.status = .disputed
      && relation.disputedByEvent = some eventId

/-- The settlement of the key is not guarded by the dispute. -/
def disputeBatch (site : Site R) (input : KraterRelationDisputeInput R) (before : Head) :
    List (Statement R) :=
  let row := disputeRow site input before
  keyedBatch site input.idempotencyKey row.payloadSha256 (disputePayload input) before row
    (fun db => .ok (disputeRelation input db)) (isDisputedBy input.edge input.eventId)
    (fun _ => true) (fun db => .ok db.tables) input.companion

/-! ## A call -/

inductive Writer (R : Type) where
  | claim (input : KraterWriteInput R)
  | revision (input : KraterRevisionInput R)
  | ledgerEvent (input : KraterLedgerEventInput R)
  | gap (input : KraterGapInput R)
  | relation (input : KraterRelationInput R)
  | dispute (input : KraterRelationDisputeInput R)

def Writer.batch (site : Site R) (before : Head) (clock : Int × Int) :
    Writer R → List (Statement R)
  | .claim input => claimBatch site input before
  | .revision input => revisionBatch site input before clock
  | .ledgerEvent input => ledgerEventBatch site input before clock
  | .gap input => gapBatch site input before
  | .relation input => relationBatch site input before
  | .dispute input => disputeBatch site input before

def Writer.key : Writer R → String
  | .claim input => input.idempotencyKey
  | .revision input => input.idempotencyKey
  | .ledgerEvent input => input.idempotencyKey
  | .gap input => input.idempotencyKey
  | .relation input => input.idempotencyKey
  | .dispute input => input.idempotencyKey

/-- `MAX_CHAIN_RETRIES`. -/
def maxChainRetries : Nat := 16

/-- `isRetryableChainConflict`. -/
def isRetryableChainConflict : Abort → Bool
  | .chainHeadMismatch => true
  | .unique table => ["claims", "events", "claim_projections", "integrity_checkpoints"].contains table
  | .refused _ => false

/-- A committed batch without a row for the key is tried again only by these. -/
def Writer.retriesUnsettled : Writer R → Bool
  | .revision _ | .ledgerEvent _ => true
  | _ => false

inductive Phase where
  | ready (retryCount : Nat)
  | holding (retryCount : Nat) (before : Head)
  | aborted (retryCount : Nat) (before : Head) (reason : Abort)
  | committed (retryCount : Nat) (before : Head)
  | unsettled (retryCount : Nat) (before : Head)
  | over
deriving DecidableEq

def afterAbort (retryCount : Nat) (before latest : Head) (reason : Abort) : Phase :=
  if retryCount < maxChainRetries
      ∧ (isRetryableChainConflict reason = true ∨ latest.chainDigest ≠ before.chainDigest) then
    .ready (retryCount + 1)
  else .over

def Writer.afterCommit (writer : Writer R) (retryCount : Nat) (before : Head) (ledger : Ledger) :
    Phase :=
  if !ledger.keys.any (·.idempotencyKey == writer.key) && writer.retriesUnsettled then
    .unsettled retryCount before
  else .over

def afterUnsettled (retryCount : Nat) (before latest : Head) : Phase :=
  if retryCount < maxChainRetries ∧ latest.chainDigest ≠ before.chainDigest then
    .ready (retryCount + 1)
  else .over

/-- At the top of the loop: the head is read and must leave a safe
sequence. -/
def afterHead (retryCount : Nat) (before : Head) : Phase :=
  if before.publicSeq < maxSafeInteger then .holding retryCount before else .over

end Asimposium.Krater
