import Asimposium.Krater.Tables

/-!
# Exports

A problem export is a text of records, one to a line: a header with the
integrity checkpoints, the events in sequence, and a trailer. The parser
accepts exactly this shape; the verifier then recomputes every digest. A
segment is verified the same way from the root that precedes it.

`JSON.parse` and SHA-256 are parameters. What the rest of the development
needs of either is stated where it is used.
-/

namespace Asimposium.Krater

/-! ## Values -/

/-- What `JSON.parse` returns. -/
inductive JsonValue where
  | null
  | bool (value : Bool)
  | number (value : Int)
  /-- A number that is no integer. -/
  | fraction
  | text (value : String)
  | array (elements : List JsonValue)
  | object (members : List (String × JsonValue))

abbrev JsonRecord := List (String × JsonValue)

/-- A value as a JSON value; `null` stands for a null column. -/
def JsonValue.nullable : Option String → JsonValue
  | none => .null
  | some value => .text value

def exportLicense : String := "CC BY 4.0"

def exportFormat : String := "asimposium.problem-export.v3"

def exportHeaderControl : String := "export_header"

def exportTrailerControl : String := "export_end"

def exportHeaderKeys : List String :=
  ["checkpoints", "control", "format", "generated_at", "license", "problem", "title"]

def exportCheckpointKeys : List String :=
  ["chain_version", "checkpoint_digest", "checkpoint_mode", "checkpoint_seq",
    "checkpoint_version", "problem", "root_chain_digest"]

def exportEventKeys : List String :=
  ["actor_fellow_id", "actor_session_id", "actor_sponsor_id", "chain_digest", "chain_version",
    "created_at", "event_id", "harness", "model_string_self_declared", "object_id",
    "object_kind", "object_version", "payload_json", "payload_sha256", "row_digest", "seq",
    "type", "writer_credential_id"]

def exportTrailerKeys : List String := ["control", "event_count", "final_cursor", "problem"]

def maxIdentifierLength : Nat := 160

def maxTitleLength : Nat := 160

def maxExportPayloadJsonBytes : Nat := 512 * 1024

/-! ## Fields -/

/-- `^P-[A-Z0-9][A-Z0-9-]{1,30}$`. -/
def isProblemId (id : String) : Bool :=
  match id.toList with
  | 'P' :: '-' :: first :: rest =>
      (first.isUpper || first.isDigit) && 1 ≤ rest.length && rest.length ≤ 30
        && rest.all fun c => c.isUpper || c.isDigit || c == '-'
  | _ => false

/-- `^[a-f0-9]{64}$`. -/
def isSha256Hex (digest : String) : Bool :=
  digest.toList.length == 64
    && digest.toList.all fun c => c.isDigit || ('a' ≤ c && c ≤ 'f')

/-- The fraction of a second: `(?:\.\d{1,3})?Z$`. -/
def isInstantTail (chars : List Char) : Bool :=
  match chars with
  | ['Z'] => true
  | '.' :: rest =>
      let digits := rest.takeWhile Char.isDigit
      1 ≤ digits.length && digits.length ≤ 3 && rest.drop digits.length == ['Z']
  | _ => false

/-- An instant of the calendar, to the millisecond at most. -/
def isUtcTimestamp (text : String) : Bool :=
  match text.toList with
  | y₀ :: y₁ :: y₂ :: y₃ :: '-' :: mo₀ :: mo₁ :: '-' :: d₀ :: d₁ :: 'T'
      :: h₀ :: h₁ :: ':' :: mi₀ :: mi₁ :: ':' :: s₀ :: s₁ :: tail =>
      let year : Int := digitsValue [y₀, y₁, y₂, y₃]
      let month : Int := digitsValue [mo₀, mo₁]
      let day : Int := digitsValue [d₀, d₁]
      [y₀, y₁, y₂, y₃, mo₀, mo₁, d₀, d₁, h₀, h₁, mi₀, mi₁, s₀, s₁].all Char.isDigit
        && isInstantTail tail && 1 ≤ month && month ≤ 12
        && civilDate (civilDay year month day) == (year, month, day)
        && digitsValue [h₀, h₁] ≤ 23 && digitsValue [mi₀, mi₁] ≤ 59
        && digitsValue [s₀, s₁] ≤ 59
  | _ => false

def nonNegativeInteger : Option JsonValue → Option Nat
  | some (.number n) => if isSafeInteger n && 0 ≤ n then some n.toNat else none
  | _ => none

def positiveInteger (value : Option JsonValue) : Option Nat :=
  (nonNegativeInteger value).filter (0 < ·)

def textSuch (holds : String → Bool) : Option JsonValue → Option String
  | some (.text t) => if holds t then some t else none
  | _ => none

def boundedNonBlankString (maximum : Nat) : Option JsonValue → Option String :=
  textSuch fun t => utf16Length t ≤ maximum && !isBlank t

def nullableBoundedNonBlankString (maximum : Nat) : Option JsonValue → Option (Option String)
  | some .null => some none
  | value => (boundedNonBlankString maximum value).map some

def isText (text : String) : Option JsonValue → Bool
  | some (.text t) => t == text
  | _ => false

def isNumber (n : Int) : Option JsonValue → Bool
  | some (.number m) => m == n
  | _ => false

def hasExactKeys (record : JsonRecord) (expected : List String) : Bool :=
  (record.map (·.1)).isPerm expected

/-! ## What is exported -/

/-- A `KraterEvent` with its payload text. -/
structure ProblemExportEvent extends EventRow where
  payloadJson : String
deriving Repr, DecidableEq

/-- A `KraterCheckpoint`, without its constant versions. -/
structure KraterCheckpoint extends CheckpointRow where
  problemId : String
deriving Repr, DecidableEq

structure ProblemExportInput where
  problemId : String
  problemTitle : String
  events : List ProblemExportEvent
  checkpoints : List KraterCheckpoint
  generatedAt : String
deriving Repr, DecidableEq

def checkpointRecord (c : KraterCheckpoint) : JsonValue :=
  .object [("checkpoint_seq", .number c.checkpointSeq),
    ("root_chain_digest", .text c.rootChainDigest),
    ("checkpoint_digest", .text c.checkpointDigest), ("checkpoint_version", .number 1),
    ("chain_version", .number 2), ("checkpoint_mode", .text "unsigned-v0"),
    ("problem", .text c.problemId)]

def headerRecord (input : ProblemExportInput) : JsonRecord :=
  [("control", .text exportHeaderControl), ("format", .text exportFormat),
    ("license", .text exportLicense), ("problem", .text input.problemId),
    ("title", .text input.problemTitle), ("generated_at", .text input.generatedAt),
    ("checkpoints", .array (input.checkpoints.map checkpointRecord))]

def eventRecord (event : ProblemExportEvent) : JsonRecord :=
  [("event_id", .text event.eventId), ("seq", .number event.seq), ("type", .text event.type),
    ("object_kind", .text event.objectKind), ("object_id", .text event.objectId),
    ("object_version", .number event.objectVersion),
    ("payload_sha256", .text event.payloadSha256), ("row_digest", .text event.rowDigest),
    ("chain_digest", .text event.chainDigest), ("chain_version", .number 2),
    ("created_at", .text event.createdAt),
    ("actor_fellow_id", .nullable event.actor.fellowId),
    ("actor_sponsor_id", .nullable event.actor.sponsorId),
    ("actor_session_id", .nullable event.actor.sessionId),
    ("model_string_self_declared", .nullable event.actor.modelSelfDeclared),
    ("harness", .nullable event.actor.harness),
    ("writer_credential_id", .nullable event.actor.credentialId),
    ("payload_json", .text event.payloadJson)]

def finalCursor (events : List ProblemExportEvent) : Nat :=
  (events.getLast?.map (·.seq)).getD 0

def trailerRecord (input : ProblemExportInput) : JsonRecord :=
  [("control", .text exportTrailerControl), ("problem", .text input.problemId),
    ("event_count", .number input.events.length),
    ("final_cursor", .number (finalCursor input.events))]

/-! ## Parsing -/

structure Broken where
  brokenAtSeq : Option Nat
  detail : String
deriving Repr, DecidableEq

structure ParsedHeader where
  problem : String
  checkpoints : List CheckpointRow
deriving Repr, DecidableEq

structure ParsedTrailer where
  problem : String
  eventCount : Nat
  finalCursor : Nat
deriving Repr, DecidableEq

/-- A parsed event line has the fields it was exported with. -/
abbrev ParsedEvent := ProblemExportEvent

structure ParsedExport where
  header : ParsedHeader
  events : List ParsedEvent
  trailer : ParsedTrailer
deriving Repr, DecidableEq

section Parsing

variable (parseJson : String → Option JsonValue)

def parseJsonRecord (line label : String) : Except String JsonRecord :=
  if line.toList.contains '\n' || line.toList.contains '\r' then
    .error (label ++ " must be exactly one LF-free record")
  else match parseJson line with
  | none => .error (label ++ " is not JSON")
  | some (.object record) => .ok record
  | some _ => .error (label ++ " is not an object")

def parseCheckpointFields (record : JsonRecord) : Option CheckpointRow := do
  let checkpointSeq ← positiveInteger (record.lookup "checkpoint_seq")
  let rootChainDigest ← textSuch isSha256Hex (record.lookup "root_chain_digest")
  let checkpointDigest ← textSuch isSha256Hex (record.lookup "checkpoint_digest")
  if isNumber 2 (record.lookup "chain_version")
      && isNumber 1 (record.lookup "checkpoint_version")
      && isText "unsigned-v0" (record.lookup "checkpoint_mode") then
    some { checkpointSeq, rootChainDigest, checkpointDigest }
  else none

def parseCheckpoint (value : JsonValue) (problem : String) (index : Nat) :
    Except String CheckpointRow :=
  let label := "header checkpoint " ++ toString index
  match value with
  | .object record =>
      if !hasExactKeys record exportCheckpointKeys then
        .error (label ++ " does not have the exact v3 shape")
      else if !isText problem (record.lookup "problem") then
        .error (label ++ " is not bound to the header problem")
      else match parseCheckpointFields record with
      | none => .error (label ++ " carries invalid v3 fields")
      | some checkpoint => .ok checkpoint
  | _ => .error (label ++ " does not have the exact v3 shape")

/-- The checkpoints from an index on, after one of this sequence. -/
def parseCheckpoints (problem : String) : List JsonValue → Nat → Nat →
    Except String (List CheckpointRow)
  | [], _, _ => .ok []
  | value :: rest, index, previous =>
      (parseCheckpoint value problem index).bind fun checkpoint =>
        if checkpoint.checkpointSeq ≤ previous then
          .error "header checkpoints are not in strict sequence order"
        else (parseCheckpoints problem rest (index + 1) checkpoint.checkpointSeq).map
          (checkpoint :: ·)

/-- The header but for its checkpoints: the problem it names. -/
def parseHeaderFields (record : JsonRecord) : Except String String :=
  if !hasExactKeys record exportHeaderKeys then .error "header does not have the exact v3 shape"
  else if !isText exportHeaderControl (record.lookup "control") then
    .error "first line is not the export header"
  else if !isText exportFormat (record.lookup "format") then
    .error "header carries an unrecognized export format"
  else if !isText exportLicense (record.lookup "license") then
    .error "header carries an unrecognized export license"
  else match textSuch isProblemId (record.lookup "problem") with
  | none => .error "header carries no valid problem id"
  | some problem =>
      if (boundedNonBlankString maxTitleLength (record.lookup "title")).isNone then
        .error "header carries no valid problem title"
      else if (textSuch isUtcTimestamp (record.lookup "generated_at")).isNone then
        .error "header carries no valid generation timestamp"
      else .ok problem

def parseHeader (record : JsonRecord) : Except String ParsedHeader :=
  (parseHeaderFields record).bind fun problem =>
    match record.lookup "checkpoints" with
    | some (.array values) => (parseCheckpoints problem values 1 0).map fun checkpoints =>
        { problem, checkpoints }
    | _ => .error "header checkpoints are not an array"

def parseHeaderRecord (line : String) : Except String ParsedHeader :=
  (parseJsonRecord parseJson line "header").bind parseHeader

def parseTrailer (record : JsonRecord) : Except String ParsedTrailer :=
  if !hasExactKeys record exportTrailerKeys then
    .error "terminal record does not have the exact v3 shape"
  else if !isText exportTrailerControl (record.lookup "control") then
    .error "last line is not the export trailer"
  else match textSuch isProblemId (record.lookup "problem") with
  | none => .error "terminal record carries no valid problem id"
  | some problem => match nonNegativeInteger (record.lookup "event_count") with
  | none => .error "terminal record carries no exact event count"
  | some eventCount => match nonNegativeInteger (record.lookup "final_cursor") with
  | none => .error "terminal record carries no exact final cursor"
  | some finalCursor => .ok { problem, eventCount, finalCursor }

def parseTrailerRecord (line : String) : Except String ParsedTrailer :=
  (parseJsonRecord parseJson line "terminal record").bind parseTrailer

def parseAttribution (event : JsonRecord) : Option Attribution := do
  let bounded := nullableBoundedNonBlankString maxIdentifierLength
  let fellowId ← bounded (event.lookup "actor_fellow_id")
  let sponsorId ← bounded (event.lookup "actor_sponsor_id")
  let sessionId ← bounded (event.lookup "actor_session_id")
  let modelSelfDeclared ← bounded (event.lookup "model_string_self_declared")
  let harness ← bounded (event.lookup "harness")
  let credentialId ← bounded (event.lookup "writer_credential_id")
  some { fellowId, sponsorId, sessionId, modelSelfDeclared, harness, credentialId }

def parseEnvelope (event : JsonRecord) : Option EventEnvelope := do
  let bounded := boundedNonBlankString maxIdentifierLength
  let eventId ← bounded (event.lookup "event_id")
  let type ← bounded (event.lookup "type")
  let objectKind ← bounded (event.lookup "object_kind")
  let objectId ← bounded (event.lookup "object_id")
  let objectVersion ← positiveInteger (event.lookup "object_version")
  let payloadSha256 ← textSuch isSha256Hex (event.lookup "payload_sha256")
  let createdAt ← textSuch isUtcTimestamp (event.lookup "created_at")
  let actor ← parseAttribution event
  some { eventId, type, objectKind, objectId, objectVersion, payloadSha256, createdAt, actor }

def parseEventFields (event : JsonRecord) : Option ParsedEvent := do
  let envelope ← parseEnvelope event
  let seq ← positiveInteger (event.lookup "seq")
  let payloadJson ← boundedNonBlankString maxExportPayloadJsonBytes (event.lookup "payload_json")
  let rowDigest ← textSuch isSha256Hex (event.lookup "row_digest")
  let chainDigest ← textSuch isSha256Hex (event.lookup "chain_digest")
  if payloadJson.utf8ByteSize ≤ maxExportPayloadJsonBytes
      && isNumber 2 (event.lookup "chain_version") then
    some { envelope with seq, rowDigest, chainDigest, payloadJson }
  else none

def parseEvent (event : JsonRecord) : Except String ParsedEvent :=
  if !hasExactKeys event exportEventKeys then
    .error "event line does not have the exact export shape"
  else match parseEventFields event with
  | none => .error "event line carries invalid v3 envelope fields"
  | some parsed => .ok parsed

def parseEventRecord (line : String) : Except String ParsedEvent :=
  (parseJsonRecord parseJson line "event line").bind parseEvent

def parseEventRecords : List String → Nat → Except Broken (List ParsedEvent)
  | [], _ => .ok []
  | line :: rest, offset =>
      match parseEventRecord parseJson line with
      | .error reason => .error { brokenAtSeq := some (offset + 1), detail := reason }
      | .ok event => (parseEventRecords rest (offset + 1)).map (event :: ·)

/-- `text.split("\n")`. -/
def splitLines (text : String) : List String :=
  (text.toList.splitOn '\n').map String.ofList

def splitExactLfRecords (ndjson : String) : Except String (List String) :=
  if ndjson.isEmpty then .error "empty export"
  else if ndjson.toList.contains '\r' then .error "export must use LF line endings"
  else if ndjson.toList.getLast? ≠ some '\n' then .error "export must end with one LF"
  else
    let lines := splitLines (String.ofList ndjson.toList.dropLast)
    if lines.any String.isEmpty then .error "export carries a blank record" else .ok lines

def broken {α : Type} (detail : String) : Except Broken α :=
  .error { brokenAtSeq := none, detail }

def unplaced {α : Type} : Except String α → Except Broken α
  | .error reason => broken reason
  | .ok value => .ok value

def rangeEnd (segment : Bool) (events : List ParsedEvent) : Nat :=
  if segment then finalCursor events else events.length

/-- The framed records: a header, the lines of the events, a trailer. -/
def parseFramed (segment : Bool) (first : String) (events : List String) (last : String) :
    Except Broken ParsedExport :=
  (unplaced (parseHeaderRecord parseJson first)).bind fun header =>
    (unplaced (parseTrailerRecord parseJson last)).bind fun trailer =>
      if trailer.problem ≠ header.problem then
        broken "the terminal record's problem id does not match the header"
      else (parseEventRecords parseJson events 0).bind fun events =>
        if events.length < header.checkpoints.length then
          broken "export carries more checkpoints than events"
        else if header.checkpoints.any fun checkpoint => rangeEnd segment events < checkpoint.checkpointSeq then
          broken "header checkpoint references an event beyond the export"
        else .ok { header, events, trailer }

def parseExportRange (ndjson : String) (segment : Bool) : Except Broken ParsedExport :=
  (unplaced (splitExactLfRecords ndjson)).bind fun lines =>
    match lines with
    | first :: line :: rest =>
        let records := line :: rest
        parseFramed parseJson segment first records.dropLast (records.getLast?.getD "")
    | _ => broken "export is missing its terminal control record"

end Parsing

/-! ## Verification -/

section Verification

variable (parseJson : String → Option JsonValue) (sha256Hex : String → String)

def genesisPreimage (problemId : String) : String :=
  canonicalJson [("chain_version", .number 2), ("kind", .text "krater.genesis"),
    ("problem_id", .text problemId)]

def eventEnvelopeRowPreimage (problemId : String) (seq : Nat) (envelope : EventEnvelope) :
    String :=
  canonicalJson [("actor_fellow_id", .nullable envelope.actor.fellowId),
    ("actor_session_id", .nullable envelope.actor.sessionId),
    ("actor_sponsor_id", .nullable envelope.actor.sponsorId),
    ("chain_version", .number 2), ("created_at", .text envelope.createdAt),
    ("event_id", .text envelope.eventId), ("harness", .nullable envelope.actor.harness),
    ("model_string_self_declared", .nullable envelope.actor.modelSelfDeclared),
    ("object_id", .text envelope.objectId), ("object_kind", .text envelope.objectKind),
    ("object_version", .number envelope.objectVersion),
    ("payload_sha256", .text envelope.payloadSha256), ("problem_id", .text problemId),
    ("seq", .number seq), ("type", .text envelope.type),
    ("writer_credential_id", .nullable envelope.actor.credentialId)]

def eventChainPreimage (problemId : String) (seq : Nat)
    (payloadSha256 rowDigest previous : String) : String :=
  canonicalJson [("chain_version", .number 2), ("payload_sha256", .text payloadSha256),
    ("previous_chain_digest", .text previous), ("problem_id", .text problemId),
    ("row_digest", .text rowDigest), ("seq", .number seq)]

def checkpointPreimage (problemId : String) (seq : Nat) (root : String) : String :=
  canonicalJson [("chain_version", .number 2), ("checkpoint_version", .number 1),
    ("problem_id", .text problemId), ("root_chain_digest", .text root), ("seq", .number seq)]

structure ProblemExportCheckpointPin where
  problemId : String
  checkpointSeq : Int
  rootChainDigest : String
deriving Repr, DecidableEq

structure Verified where
  eventCount : Nat
  finalChainDigest : String
deriving Repr, DecidableEq

def isNonNegativeInteger (n : Int) : Bool := isSafeInteger n && 0 ≤ n

def isPositiveInteger (n : Int) : Bool := isNonNegativeInteger n && 0 < n

/-- Where the loop over the events stands: the last root, the sequence that
is due, the checkpoints that are left, and whether the pin was met. -/
structure Position where
  previous : String
  expectedSeq : Nat
  checkpoints : List CheckpointRow
  matchedExternalPin : Bool
deriving Repr, DecidableEq

def brokenAt {α : Type} (seq : Nat) (detail : String) : Except Broken α :=
  .error { brokenAtSeq := some seq, detail := detail ++ " at seq " ++ toString seq }

def verifyDigests (problem previous : String) (event : ParsedEvent) : Except Broken Unit :=
  if sha256Hex event.payloadJson ≠ event.payloadSha256 then
    .error { brokenAtSeq := some event.seq,
             detail := "payload sha256 mismatch at seq " ++ toString event.seq
               ++ " — the exported payload bytes do not match their digest" }
  else if sha256Hex (eventEnvelopeRowPreimage problem event.seq event.toEventEnvelope)
      ≠ event.rowDigest then
    .error { brokenAtSeq := some event.seq,
             detail := "row digest mismatch at seq " ++ toString event.seq
               ++ " — the event envelope is tampered" }
  else if sha256Hex (eventChainPreimage problem event.seq event.payloadSha256 event.rowDigest
      previous) ≠ event.chainDigest then
    .error { brokenAtSeq := some event.seq,
             detail := "chain digest mismatch at seq " ++ toString event.seq
               ++ " — the export is tampered or truncated" }
  else .ok ()

def verifyCheckpoint (problem : String) (event : ParsedEvent) :
    List CheckpointRow → Except Broken (List CheckpointRow)
  | [] => .ok []
  | checkpoint :: rest =>
      if checkpoint.checkpointSeq ≠ event.seq then .ok (checkpoint :: rest)
      else if checkpoint.rootChainDigest ≠ event.chainDigest then
        brokenAt event.seq "checkpoint root mismatch"
      else if sha256Hex (checkpointPreimage problem checkpoint.checkpointSeq
          checkpoint.rootChainDigest) ≠ checkpoint.checkpointDigest then
        brokenAt event.seq "checkpoint digest mismatch"
      else .ok rest

def verifyEvent (problem : String) (pin : Option ProblemExportCheckpointPin)
    (position : Position) (event : ParsedEvent) : Except Broken Position :=
  if event.seq ≠ position.expectedSeq then
    .error { brokenAtSeq := some position.expectedSeq,
             detail := "sequence gap: expected seq " ++ toString position.expectedSeq
               ++ ", found " ++ toString event.seq }
  else (verifyDigests sha256Hex problem position.previous event).bind fun _ =>
    let isPinned := pin.any fun pin => pin.checkpointSeq == (event.seq : Int)
    if isPinned && !pin.any (·.rootChainDigest == event.chainDigest) then
      brokenAt event.seq "external checkpoint root mismatch"
    else (verifyCheckpoint sha256Hex problem event position.checkpoints).map fun checkpoints =>
      { previous := event.chainDigest, expectedSeq := position.expectedSeq + 1, checkpoints,
        matchedExternalPin := position.matchedExternalPin || isPinned }

def isPinInvalid (problem : String) (pin : ProblemExportCheckpointPin) : Bool :=
  pin.problemId != problem || !isPositiveInteger pin.checkpointSeq
    || !isSha256Hex pin.rootChainDigest

def isPrecedingInvalid (problem : String) (pin : Option ProblemExportCheckpointPin)
    (preceding : ProblemExportCheckpointPin) : Bool :=
  preceding.problemId != problem || !isNonNegativeInteger preceding.checkpointSeq
    || !isSha256Hex preceding.rootChainDigest
    || (preceding.checkpointSeq == 0
      && preceding.rootChainDigest != sha256Hex (genesisPreimage problem))
    || pin.all fun pin => pin.checkpointSeq ≤ preceding.checkpointSeq

/-- The root and the sequence the first event has to extend. -/
def startPosition (problem : String) (checkpoints : List CheckpointRow)
    (pin preceding : Option ProblemExportCheckpointPin) : Position :=
  { previous := (preceding.map (·.rootChainDigest)).getD (sha256Hex (genesisPreimage problem))
    expectedSeq := ((preceding.map (·.checkpointSeq.toNat)).getD 0) + 1
    checkpoints, matchedExternalPin := pin.isNone }

def verifyEnd (parsed : ParsedExport) (position : Position) : Except Broken Verified :=
  if parsed.trailer.eventCount ≠ parsed.events.length then
    broken ("terminal record claims " ++ toString parsed.trailer.eventCount
      ++ " events; the export carries " ++ toString parsed.events.length)
  else if parsed.trailer.finalCursor ≠ position.expectedSeq - 1 then
    broken ("terminal record claims final cursor " ++ toString parsed.trailer.finalCursor
      ++ "; the export ends at " ++ toString (position.expectedSeq - 1))
  else if position.checkpoints ≠ [] then
    broken "header checkpoint references an event absent from the verified chain"
  else if !position.matchedExternalPin then
    broken "the external checkpoint pin names an event absent from the verified export"
  else .ok { eventCount := parsed.events.length, finalChainDigest := position.previous }

def verifyParsed (parsed : ParsedExport) (pin preceding : Option ProblemExportCheckpointPin) :
    Except Broken Verified :=
  let problem := parsed.header.problem
  if pin.any (isPinInvalid problem) then
    broken "the external checkpoint pin is invalid or names another problem"
  else if preceding.any (isPrecedingInvalid sha256Hex problem pin) then
    broken "invalid preceding archive checkpoint"
  else (parsed.events.foldlM (verifyEvent sha256Hex problem pin)
      (startPosition sha256Hex problem parsed.header.checkpoints pin preceding)).bind
    (verifyEnd parsed)

def verifyExportRange (ndjson : String) (pin preceding : Option ProblemExportCheckpointPin) :
    Except Broken Verified :=
  (parseExportRange parseJson ndjson preceding.isSome).bind fun parsed =>
    verifyParsed sha256Hex parsed pin preceding

def verifyProblemExportChain (ndjson : String) (pin : Option ProblemExportCheckpointPin) :
    Except Broken Verified :=
  verifyExportRange parseJson sha256Hex ndjson pin none

def verifyProblemExportSegment (ndjson : String) (preceding terminal : ProblemExportCheckpointPin) :
    Except Broken Verified :=
  verifyExportRange parseJson sha256Hex ndjson (some terminal) (some preceding)

end Verification

end Asimposium.Krater
