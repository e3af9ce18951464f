import Asimposium.Js

/-!
# The ledger tables

The tables a Krater write touches, for one problem: the head in
`problems`, `events` with its sidecar `event_chain_v2`, `event_content`,
`integrity_checkpoints` with `checkpoint_chain_v2`, and `idempotency`.
A statement of a batch is a function of the database that may abort; it
evaluates the triggers and keys of the migrations in the order SQLite
does.

Event ids are unique over all problems, so the ids of the events of other
problems are part of the state (`elsewhere`). Everything else of the
database is in `Tables`: proof gaps and claim relations, which two of the
writers guard on, and the rest, of any type.
-/

namespace Asimposium.Krater

/-! ## Canonical JSON -/

inductive JsonScalar where
  | null
  | text (value : String)
  | number (value : Nat)

def JsonScalar.canonical : JsonScalar → String
  | .null => "null"
  | .text value => quoteJson value
  | .number value => toString value

def JsonScalar.nullable : Option String → JsonScalar
  | none => .null
  | some value => .text value

/-- `canonicalJson` of an object, its members listed by key. -/
def canonicalJson (members : List (String × JsonScalar)) : String :=
  "\x7b" ++ ",".intercalate (members.map fun m => quoteJson m.1 ++ ":" ++ m.2.canonical) ++ "\x7d"

/-! ## Rows -/

/-- `public_seq` and `chain_digest` of the problem. -/
structure Head where
  publicSeq : Nat
  chainDigest : String
deriving Repr, DecidableEq

structure Attribution where
  fellowId : Option String
  sponsorId : Option String
  sessionId : Option String
  modelSelfDeclared : Option String
  harness : Option String
  credentialId : Option String
deriving Repr, DecidableEq

/-- The columns of `events` the row digest binds, without the problem and
the sequence. -/
structure EventEnvelope where
  eventId : String
  type : String
  objectKind : String
  objectId : String
  objectVersion : Nat
  payloadSha256 : String
  createdAt : String
  actor : Attribution
deriving Repr, DecidableEq

structure EventRow extends EventEnvelope where
  seq : Nat
  rowDigest : String
  chainDigest : String
deriving Repr, DecidableEq

/-- `event_chain_v2`. -/
structure EventChainRow where
  eventId : String
  seq : Nat
  rowDigest : String
  chainDigest : String
deriving Repr, DecidableEq

/-- `event_content`. -/
structure ContentRow where
  eventId : String
  payloadSha256 : String
  payloadJson : String
deriving Repr, DecidableEq

/-- `integrity_checkpoints`, and its copy in `checkpoint_chain_v2`. -/
structure CheckpointRow where
  checkpointSeq : Nat
  rootChainDigest : String
  checkpointDigest : String
deriving Repr, DecidableEq

/-- `idempotency`; `event` holds `event_id` and `event_seq`. -/
structure KeyRow where
  idempotencyKey : String
  requestDigest : String
  createdAt : String
  event : Option (String × Nat)
deriving Repr, DecidableEq

def EventRow.chainRow (row : EventRow) : EventChainRow :=
  { eventId := row.eventId, seq := row.seq, rowDigest := row.rowDigest
    chainDigest := row.chainDigest }

structure Ledger where
  head : Head
  events : List EventRow
  eventChain : List EventChainRow
  contents : List ContentRow
  checkpoints : List CheckpointRow
  checkpointChain : List CheckpointRow
  keys : List KeyRow
  /-- Ids and sequences of the events of other problems. -/
  elsewhere : List (String × Nat)
deriving DecidableEq

inductive GapStatus where
  | opened
  | closedBy
  | withdrawn
deriving Repr, DecidableEq

/-- `proof_gaps`. -/
structure GapRow where
  gapId : String
  obligation : String
  closesWhat : String
  targetClaimId : String
  targetVersion : Nat
  status : GapStatus
  closedBy : Option String
  authorFellowId : String
  createdAt : String
  closedAt : Option String
deriving Repr, DecidableEq

/-- The key of an edge in `claim_relations`. -/
structure Edge where
  kind : String
  sourceClaimId : String
  sourceVersion : Nat
  targetRef : String
deriving Repr, DecidableEq

inductive RelationStatus where
  | asserted
  | disputed
deriving Repr, DecidableEq

/-- `claim_relations`. -/
structure RelationRow extends Edge where
  status : RelationStatus
  assertedByEvent : String
  assertedByFellow : String
  createdAt : String
  disputedByEvent : Option String
  disputedByFellow : Option String
  disputedAt : Option String
deriving Repr, DecidableEq

structure Tables (R : Type) where
  gaps : List GapRow
  relations : List RelationRow
  rest : R

structure Db (R : Type) where
  ledger : Ledger
  tables : Tables R

/-! ## Digests -/

/-- The problem, the hash, and the triggers of other migrations: those on
`events` and on the settlement of a key, which only refuse. -/
structure Site (R : Type) where
  problemId : String
  sha256Hex : String → String
  /-- The ids of the problem's public claims. -/
  isClaim : Tables R → String → Bool
  admitsEvent : Db R → EventRow → Bool
  admitsSettlement : Db R → String → Bool

variable {R : Type}

def Site.genesisChainDigest (site : Site R) : String :=
  site.sha256Hex (canonicalJson [("chain_version", .number 2), ("kind", .text "krater.genesis"),
    ("problem_id", .text site.problemId)])

def Site.eventEnvelopeRowDigest (site : Site R) (seq : Nat) (envelope : EventEnvelope) : String :=
  site.sha256Hex (canonicalJson [("actor_fellow_id", .nullable envelope.actor.fellowId),
    ("actor_session_id", .nullable envelope.actor.sessionId),
    ("actor_sponsor_id", .nullable envelope.actor.sponsorId),
    ("chain_version", .number 2), ("created_at", .text envelope.createdAt),
    ("event_id", .text envelope.eventId), ("harness", .nullable envelope.actor.harness),
    ("model_string_self_declared", .nullable envelope.actor.modelSelfDeclared),
    ("object_id", .text envelope.objectId), ("object_kind", .text envelope.objectKind),
    ("object_version", .number envelope.objectVersion),
    ("payload_sha256", .text envelope.payloadSha256), ("problem_id", .text site.problemId),
    ("seq", .number seq), ("type", .text envelope.type),
    ("writer_credential_id", .nullable envelope.actor.credentialId)])

def Site.eventChainDigest (site : Site R) (seq : Nat) (payloadSha256 rowDigest previous : String) :
    String :=
  site.sha256Hex (canonicalJson [("chain_version", .number 2),
    ("payload_sha256", .text payloadSha256), ("previous_chain_digest", .text previous),
    ("problem_id", .text site.problemId), ("row_digest", .text rowDigest), ("seq", .number seq)])

def Site.checkpointDigest (site : Site R) (seq : Nat) (root : String) : String :=
  site.sha256Hex (canonicalJson [("chain_version", .number 2), ("checkpoint_version", .number 1),
    ("problem_id", .text site.problemId), ("root_chain_digest", .text root), ("seq", .number seq)])

def Site.candidate (site : Site R) (before : Head) (envelope : EventEnvelope) : EventRow :=
  let seq := before.publicSeq + 1
  let rowDigest := site.eventEnvelopeRowDigest seq envelope
  { envelope with
    seq, rowDigest
    chainDigest := site.eventChainDigest seq envelope.payloadSha256 rowDigest before.chainDigest }

/-! ## Statements -/

inductive Abort where
  /-- `KRATER_CHAIN_HEAD_MISMATCH`. -/
  | chainHeadMismatch
  /-- A unique key of the named table. -/
  | unique (table : String)
  /-- Any other constraint or trigger. -/
  | refused (message : String)
deriving Repr, DecidableEq

abbrev Statement (R : Type) := Db R → Except Abort (Db R)

def Ledger.isElsewhere (ledger : Ledger) (eventId : String) : Bool :=
  ledger.elsewhere.any (·.1 == eventId)

/-- `EXISTS (SELECT 1 FROM events WHERE id = ?)`. -/
def Ledger.hasEvent (ledger : Ledger) (eventId : String) : Bool :=
  ledger.events.any (·.eventId == eventId) || ledger.isElsewhere eventId

/-- `SELECT seq FROM events WHERE id = ?`. -/
def Ledger.seqOf? (ledger : Ledger) (eventId : String) : Option Nat :=
  ((ledger.events.find? (·.eventId == eventId)).map (·.seq)).or
    ((ledger.elsewhere.find? (·.1 == eventId)).map (·.2))

/-- `EXISTS (SELECT 1 FROM idempotency WHERE … AND event_id IS NULL)`, with
`request_digest = ?` where the writer compares it. -/
def Ledger.ownsKey (ledger : Ledger) (key : String) (digest : Option String) : Bool :=
  ledger.keys.any fun row =>
    row.idempotencyKey == key && row.event.isNone && digest.all (· == row.requestDigest)

/-- The statement acts on the ledger tables, if its condition holds. -/
def onLedger (condition : Db R → Bool) (act : Ledger → Except Abort Ledger) : Statement R :=
  fun db => if condition db then (act db.ledger).map ({ db with ledger := · }) else .ok db

/-- The statements on other tables. They may read all of the database. -/
def effect (act : Db R → Except Abort (Tables R)) : Statement R :=
  fun db => (act db).map ({ db with tables := · })

/-- `INSERT INTO idempotency … ON CONFLICT`: an existing row is left as it
is, or reopened when it is no younger than `expiredBefore`. -/
def Ledger.openKey (ledger : Ledger) (key digest createdAt : String)
    (expiredBefore : Option String) : Ledger :=
  let row : KeyRow := { idempotencyKey := key, requestDigest := digest, createdAt, event := none }
  if ledger.keys.any (·.idempotencyKey == key) then
    { ledger with keys := ledger.keys.map fun old =>
        if old.idempotencyKey == key && expiredBefore.any (old.createdAt ≤ ·) then row else old }
  else { ledger with keys := ledger.keys ++ [row] }

/-- `UPDATE problems SET public_seq = public_seq + 1, chain_digest = ?`. -/
def Ledger.advance (ledger : Ledger) (next : String) : Ledger :=
  { ledger with head := { publicSeq := ledger.head.publicSeq + 1, chainDigest := next } }

/-- The trigger that copies an event into `event_chain_v2`, with the
triggers and keys of that table. -/
def Ledger.insertEventChain (ledger : Ledger) (row : EventChainRow) : Except Abort Ledger :=
  if 1 < row.seq && !ledger.eventChain.any (·.seq + 1 == row.seq) then
    .error (.refused "KRATER_CHAIN_V2_PREDECESSOR_MISSING")
  else if row.seq == 0 then .error (.refused "CHECK constraint failed: seq > 0")
  else if ledger.eventChain.any fun old => old.eventId == row.eventId || old.seq == row.seq then
    .error (.unique "event_chain_v2")
  else .ok { ledger with eventChain := ledger.eventChain ++ [row] }

/-- `INSERT INTO events … SELECT ?, p.public_seq, … FROM problems p`: the
sequence is the one of the head at that moment. -/
def Ledger.insertEvent (ledger : Ledger) (candidate : EventRow) : Except Abort Ledger :=
  let row := { candidate with seq := ledger.head.publicSeq }
  if ledger.head.chainDigest ≠ row.chainDigest then .error .chainHeadMismatch
  else if ledger.hasEvent row.eventId || ledger.events.any (·.seq == row.seq) then
    .error (.unique "events")
  else Ledger.insertEventChain { ledger with events := ledger.events ++ [row] } row.chainRow

/-- `INSERT INTO event_content`. -/
def Ledger.insertContent (ledger : Ledger) (row : ContentRow) : Except Abort Ledger :=
  if ledger.contents.any (·.eventId == row.eventId) || ledger.isElsewhere row.eventId then
    .error (.unique "event_content")
  else if ledger.hasEvent row.eventId then .ok { ledger with contents := ledger.contents ++ [row] }
  else .error (.refused "FOREIGN KEY constraint failed")

/-- The trigger that copies a checkpoint into `checkpoint_chain_v2`. -/
def Ledger.insertCheckpointChain (ledger : Ledger) (row : CheckpointRow) : Except Abort Ledger :=
  if 1 < row.checkpointSeq
      && !ledger.checkpointChain.any (·.checkpointSeq + 1 == row.checkpointSeq) then
    .error (.refused "KRATER_CHECKPOINT_CHAIN_V2_PREDECESSOR_MISSING")
  else if ledger.checkpointChain.any (·.checkpointSeq == row.checkpointSeq) then
    .error (.unique "checkpoint_chain_v2")
  else .ok { ledger with checkpointChain := ledger.checkpointChain ++ [row] }

/-- `INSERT INTO integrity_checkpoints`. -/
def Ledger.insertCheckpoint (ledger : Ledger) (row : CheckpointRow) : Except Abort Ledger :=
  if !ledger.eventChain.any fun link =>
      link.seq == row.checkpointSeq && link.chainDigest == row.rootChainDigest then
    .error (.refused "KRATER_CHECKPOINT_CHAIN_VERSION_MISMATCH")
  else if ledger.checkpoints.any (·.checkpointSeq == row.checkpointSeq) then
    .error (.unique "integrity_checkpoints")
  else Ledger.insertCheckpointChain { ledger with checkpoints := ledger.checkpoints ++ [row] } row

/-- `UPDATE idempotency SET event_id = ?, event_seq = (SELECT seq FROM events
WHERE id = ?)`, for an event that is there. -/
def Ledger.settleKey (ledger : Ledger) (key : String) (digest : Option String) (eventId : String) :
    Ledger :=
  match ledger.seqOf? eventId with
  | none => ledger
  | some seq =>
      { ledger with keys := ledger.keys.map fun old =>
          if old.idempotencyKey == key && old.event.isNone
              && digest.all (· == old.requestDigest) then
            { old with event := some (eventId, seq) }
          else old }

/-- `DELETE FROM idempotency … AND event_id IS NULL`. -/
def Ledger.dropKey (ledger : Ledger) (key digest : String) : Ledger :=
  { ledger with keys := ledger.keys.filter fun row =>
      !(row.idempotencyKey == key && row.requestDigest == digest && row.event.isNone) }

def commit (batch : List (Statement R)) (db : Db R) : Except Abort (Db R) :=
  batch.foldlM (fun db statement => statement db) db

end Asimposium.Krater
