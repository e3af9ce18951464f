import Asimposium.Krater.Export
import Asimposium.Herald.Room

/-!
# The event tail

The public tail of one problem is read in pages. One bounded SELECT takes
the visible head, the sequences after a cursor and what may be shown of
each; the rows are checked against the cursor, turned into envelopes, and
cut by bytes. The page ends with the cursor to resume from and the bound
that the first page has fixed.

`JSON.parse`, SQLite's `json_extract` and the receipt schema are no code of
this repository: a `Platform` stands for them.
-/

namespace Asimposium.EventTail

open Krater (JsonValue JsonRecord)

/-! ## Limits and patterns -/

def maxEvents : Int := 200

def maxBytes : Nat := 512 * 1024

def maxWaitSeconds : Int := 25

def pageBytes : Nat := maxBytes - 16 * 1024

def envelopeBytes : Nat := 8192

def maxCausedByPerMember : Nat := 15

def safeInteger (n : Int) : Bool := isSafeInteger n && 0 ≤ n

/-- `EVENT_TAIL_ID_PATTERN`. -/
def safeId (id : String) : Bool := Herald.roomId id

/-- `EVENT_TAIL_PROBLEM_PATTERN`. -/
def isTailProblem (id : String) : Bool := Herald.roomProblem id

/-- `^[A-Za-z0-9][A-Za-z0-9._:@-]{0,255}`, to the end of the text. -/
def safeObjectId (id : String) : Bool :=
  match id.toList with
  | [] => false
  | first :: rest =>
      first.isAlphanum && rest.length ≤ 255 && rest.all fun c => Herald.isIdChar c || c == '@'

def isNumbered (letter : Char) (id : String) : Bool :=
  match id.toList with
  | first :: '-' :: digit :: rest => first == letter && (digit :: rest).all Char.isDigit
  | _ => false

/-- `^DD-[a-f0-9]{32}$`. -/
def isDisclosureId (id : String) : Bool :=
  match id.toList with
  | 'D' :: 'D' :: '-' :: rest =>
      rest.length == 32 && rest.all fun c => c.isDigit || ('a' ≤ c && c ≤ 'f')
  | _ => false

/-- `PUBLIC_TYPES`: the public producers by the kind of their object. -/
def publicTypes : List (String × List String) :=
  [("claim", ["claim.created", "claim.revised", "claim.reanchored"]),
   ("hypothesis", ["hypothesis.created", "hypothesis.killed", "hypothesis.deferred",
     "hypothesis.resumed", "hypothesis.narrowed", "hypothesis.superseded"]),
   ("evidence", ["evidence.created"]),
   ("review", ["review.created"]),
   ("citation", ["citation.recorded", "citation.corrected"]),
   ("dead_end", ["dead_end.recorded"]),
   ("dead-end", ["dead_end.recorded"]),
   ("question", ["question.asked", "question.leased", "question.answered", "question.withdrawn"]),
   ("conflict", ["conflict.normalized", "conflict.resolved"]),
   ("retraction", ["object.retracted"]),
   ("synthesis", ["synthesis.created"]),
   ("gap", ["gap.filed", "gap.closed-by", "gap.withdrawn"]),
   ("relation", ["relation.asserted", "relation.disputed"]),
   ("directive-disclosure", ["directive.disclosure-recorded"]),
   ("problem", ["problem.admitted", "problem.published", "problem.statement-revised",
     "problem.statement-reviewed", "problem.dormant", "problem.result-review-started",
     "problem.resolved", "problem.retired"])]

def isPublicProducer (objectKind type : String) : Bool :=
  (publicTypes.lookup objectKind).any (·.contains type)

/-! ## What is stored -/

structure Problem where
  id : String
  publicSeq : Int
  unlisted : Int
  isPrivateDraft : Bool
deriving Repr, DecidableEq

structure Event where
  problemId : String
  seq : Int
  id : String
  type : String
  objectKind : String
  objectId : String
  objectVersion : Int
  createdAt : String
  payloadSha256 : String
  actorFellowId : Option String
  actorSponsorId : Option String
  actorSessionId : Option String
  modelStringSelfDeclared : Option String
  harness : Option String
deriving Repr, DecidableEq

/-- A row of `event_content`. -/
structure EventContent where
  eventId : String
  payloadSha256 : String
  payloadJson : String
  isRedacted : Bool
deriving Repr, DecidableEq

/-- A row of `content_controls`. -/
structure ContentControl where
  problemId : String
  targetRef : String
  isHidden : Bool
  version : Int
deriving Repr, DecidableEq

/-- A row of `screening_publications`. -/
structure ScreeningPublication where
  eventId : String
  provenanceJson : String
deriving Repr, DecidableEq

structure Db where
  problems : List Problem
  events : List Event
  contents : List EventContent
  controls : List ContentControl
  screenings : List ScreeningPublication

structure Platform where
  /-- `JSON.parse`; a text is `json_valid` if it has a value. -/
  parse : String → Option JsonValue
  /-- `json_extract(payload_json, '$.caused_by')` of an array. -/
  causedByText : String → String
  /-- `ScreeningPublicationProvenanceSchema` on a receipt, if it takes it;
  then the notice of a publication with a warning, as JSON. -/
  receipt : String → Option (Option String)

def member (name : String) : JsonValue → Option JsonValue
  | .object members => members.lookup name
  | _ => none

namespace Db

variable (db : Db)

/-- `hiddenByContentControlSql`. -/
def isHidden (problemId target : String) : Bool :=
  db.controls.any fun control => control.problemId == problemId && control.targetRef == target
    && control.isHidden
    && db.controls.all fun latest => !(latest.problemId == problemId && latest.targetRef == target)
      || latest.version ≤ control.version

/-- `eventContentHiddenSql`. -/
def eventContentHidden (e : Event) : Bool :=
  db.isHidden e.problemId "problem" || db.isHidden e.problemId e.objectId
    || db.isHidden e.problemId (e.objectId ++ "@" ++ toString e.objectVersion)
    || db.isHidden e.problemId ("#" ++ toString e.seq)

def contentOf (e : Event) : Option EventContent :=
  db.contents.find? fun c => c.eventId == e.id && c.payloadSha256 == e.payloadSha256

/-- `availableContentSql`, and the content itself. -/
def availableContent (e : Event) : Option EventContent :=
  (db.contentOf e).filter fun c => !c.isRedacted && !db.eventContentHidden e

/-- A recorded cause names an earlier public event of the problem whose
content is available. -/
def isCauseAvailable (e : Event) (cause : JsonValue) : Bool :=
  match cause with
  | .object _ =>
      (db.events.find? fun parent => parent.problemId == e.problemId
          && Krater.isText parent.id (member "event_id" cause)
          && Krater.isNumber parent.seq (member "seq" cause)).any fun parent =>
        parent.seq < e.seq && isPublicProducer parent.objectKind parent.type
          && (db.availableContent parent).isSome
  | _ => false

end Db

/-! ## The selected rows -/

inductive CausalState where
  | recorded
  | notRecorded
  | unavailable
deriving Repr, DecidableEq

structure TailRow where
  screeningProvenance : Option String
  problemId : String
  publicSeq : Int
  through : Int
  unlisted : Int
  seq : Option Int
  id : Option String
  type : Option String
  objectKind : Option String
  objectId : Option String
  objectVersion : Option Int
  createdAt : Option String
  payloadSha256 : Option String
  actorFellowId : Option String
  actorSponsorId : Option String
  actorSessionId : Option String
  modelStringSelfDeclared : Option String
  harness : Option String
  contentAvailable : Bool
  causalJson : Option String
  causalState : CausalState

def upTo (bytes : Nat) (text : String) : Option String :=
  if text.utf8ByteSize ≤ bytes then some text else none

section Select

variable (platform : Platform) (db : Db)

/-- `CAUSAL_STATE_SQL`. -/
def causalState (e : Event) : CausalState :=
  match db.availableContent e with
  | none => .unavailable
  | some content =>
      if !isPublicProducer e.objectKind e.type then .unavailable
      else match platform.parse content.payloadJson with
      | none => .unavailable
      | some payload =>
          match member "caused_by" payload with
          | none => .notRecorded
          | some (.array causes) =>
              if causes.length ≤ maxCausedByPerMember
                  && (platform.causedByText content.payloadJson).utf8ByteSize ≤ 8192
                  && causes.all (db.isCauseAvailable e) then .recorded
              else .unavailable
          | some _ => .unavailable

def causalJson (e : Event) : Option String :=
  if causalState platform db e = .recorded then
    (db.contentOf e).map fun content => platform.causedByText content.payloadJson
  else none

def emptyRow (p : Problem) (through : Int) : TailRow :=
  { screeningProvenance := none, problemId := p.id, publicSeq := p.publicSeq, through
    unlisted := p.unlisted, seq := none, id := none, type := none, objectKind := none
    objectId := none, objectVersion := none, createdAt := none, payloadSha256 := none
    actorFellowId := none, actorSponsorId := none, actorSessionId := none
    modelStringSelfDeclared := none, harness := none, contentAvailable := false
    causalJson := none, causalState := .unavailable }

def eventRow (p : Problem) (through : Int) (e : Event) : TailRow :=
  { screeningProvenance := (db.screenings.find? (·.eventId == e.id)).map (·.provenanceJson)
    problemId := p.id, publicSeq := p.publicSeq, through, unlisted := p.unlisted
    seq := some e.seq
    id := upTo 128 e.id
    type := upTo 96 e.type
    objectKind := upTo 32 e.objectKind
    objectId := upTo 256 e.objectId
    objectVersion := some e.objectVersion
    createdAt := if e.createdAt.length = 24 then some e.createdAt else none
    payloadSha256 := if e.payloadSha256.length = 64 then some e.payloadSha256 else none
    actorFellowId := e.actorFellowId.bind (upTo 128)
    actorSponsorId := e.actorSponsorId.bind (upTo 128)
    actorSessionId := e.actorSessionId.bind (upTo 128)
    modelStringSelfDeclared := e.modelStringSelfDeclared.bind (upTo 256)
    harness := e.harness.bind (upTo 256)
    contentAvailable := (db.availableContent e).isSome
    causalJson := causalJson platform db e
    causalState := causalState platform db e }

def visibleProblem (problemId : String) : Option Problem :=
  db.problems.find? fun p => p.id == problemId && !p.isPrivateDraft && !db.isHidden p.id "problem"

/-- The public events after a cursor, up to a bound, in order. -/
def tailEvents (p : Problem) (since through : Int) : List Event :=
  (db.events.filter fun e => e.problemId == p.id && since < e.seq && e.seq ≤ through
    && e.seq ≤ p.publicSeq).mergeSort fun a b => a.seq ≤ b.seq

/-- `EVENT_TAIL_SELECT`. -/
def eventTailSelect (through : Option Int) (problemId : String) (since limit : Int) :
    List TailRow :=
  match visibleProblem db problemId with
  | none => []
  | some p =>
      let through := through.getD p.publicSeq
      let rows := match tailEvents db p since through with
        | [] => [emptyRow p through]
        | events => events.map (eventRow platform db p through)
      rows.take limit.toNat

end Select

/-! ## Envelopes -/

structure BatchEventCause where
  scopeId : String
  eventId : String
  seq : Int
deriving Repr, DecidableEq

inductive CausalityOmitted where
  | notRecorded
  | unavailable
deriving Repr, DecidableEq

structure EventActor where
  fellowId : Option String
  sponsorId : Option String
  sessionId : Option String
  modelSelfDeclared : Option String
  harnessSelfDeclared : Option String
deriving Repr, DecidableEq

structure PublicEvent where
  id : String
  type : String
  objectKind : String
  objectId : String
  objectVersion : Int
  createdAt : String
  payloadSha256 : String
  screeningNotice : Option String
  causedBy : Option (List BatchEventCause)
  causalityOmitted : Option CausalityOmitted
  actor : EventActor
  objectUrl : Option String
deriving Repr, DecidableEq

inductive BodyOmitted where
  | separateObjectFace
  | contentUnavailable
  | undisclosedEvent
deriving Repr, DecidableEq

structure PublicEventEnvelope where
  problemId : String
  seq : Int
  event : Option PublicEvent
  bodyOmitted : BodyOmitted
deriving Repr, DecidableEq

/-! ### Their JSON texts -/

def objectText (members : List (String × String)) : String :=
  "\x7b" ++ ",".intercalate (members.map fun m => quoteJson m.1 ++ ":" ++ m.2) ++ "\x7d"

def arrayText (elements : List String) : String := "[" ++ ",".intercalate elements ++ "]"

def nullableText : Option String → String
  | none => "null"
  | some text => quoteJson text

def BatchEventCause.json (cause : BatchEventCause) : String :=
  objectText [("scope", quoteJson "problem"), ("scope_id", quoteJson cause.scopeId),
    ("event_id", quoteJson cause.eventId), ("seq", toString cause.seq)]

def CausalityOmitted.text : CausalityOmitted → String
  | .notRecorded => "not_recorded"
  | .unavailable => "unavailable"

def BodyOmitted.text : BodyOmitted → String
  | .separateObjectFace => "separate_object_face"
  | .contentUnavailable => "content_unavailable"
  | .undisclosedEvent => "undisclosed_event"

def EventActor.json (actor : EventActor) : String :=
  objectText [("fellow_id", nullableText actor.fellowId),
    ("sponsor_id", nullableText actor.sponsorId), ("session_id", nullableText actor.sessionId),
    ("model_self_declared", nullableText actor.modelSelfDeclared),
    ("harness_self_declared", nullableText actor.harnessSelfDeclared)]

def PublicEvent.json (event : PublicEvent) : String :=
  objectText ([("id", quoteJson event.id), ("type", quoteJson event.type),
      ("object_kind", quoteJson event.objectKind), ("object_id", quoteJson event.objectId),
      ("object_version", toString event.objectVersion), ("created_at", quoteJson event.createdAt),
      ("payload_sha256", quoteJson event.payloadSha256)]
    ++ (event.screeningNotice.map fun notice => ("screening_notice", notice)).toList
    ++ [("caused_by", match event.causedBy with
          | none => "null"
          | some causes => arrayText (causes.map BatchEventCause.json)),
        ("causality_omitted", nullableText (event.causalityOmitted.map CausalityOmitted.text)),
        ("actor", event.actor.json), ("object_url", nullableText event.objectUrl)])

def PublicEventEnvelope.json (envelope : PublicEventEnvelope) : String :=
  objectText [("record", quoteJson "event"), ("problem_id", quoteJson envelope.problemId),
    ("seq", toString envelope.seq),
    ("event", match envelope.event with
      | none => "null"
      | some event => event.json),
    ("body_omitted", quoteJson envelope.bodyOmitted.text)]

/-! ### What a row becomes -/

inductive TailError where
  | cursorInvalid
  | eventTailUnavailable
  | publicScreeningReceiptUnavailable
deriving Repr, DecidableEq

/-- `publicationScreeningNotice`. -/
def publicationScreeningNotice (platform : Platform) :
    Option String → Except TailError (Option String)
  | none => .ok none
  | some raw =>
      if 4096 < raw.utf8ByteSize then .error .publicScreeningReceiptUnavailable
      else match platform.receipt raw with
      | none => .error .publicScreeningReceiptUnavailable
      | some notice => .ok notice

/-- `BatchEventCauseSchema`. -/
def parseCause : JsonValue → Option BatchEventCause
  | .object members =>
      if Krater.hasExactKeys members ["scope", "scope_id", "event_id", "seq"]
          && Krater.isText "problem" (members.lookup "scope") then do
        let scopeId ← Krater.textSuch safeId (members.lookup "scope_id")
        let eventId ← Krater.textSuch safeId (members.lookup "event_id")
        let seq ← Krater.positiveInteger (members.lookup "seq")
        return { scopeId, eventId, seq }
      else none
  | _ => none

def parseCauses (platform : Platform) (text : String) : Option (List BatchEventCause) :=
  match platform.parse text with
  | some (.array causes) =>
      if causes.length ≤ maxCausedByPerMember then causes.mapM parseCause else none
  | _ => none

/-- The causes are distinct earlier events of the problem, in order. -/
def areParentsValid (row : TailRow) (parents : List BatchEventCause) : Bool :=
  (parents.all fun parent => parent.scopeId == row.problemId && parent.seq < row.seq.getD 0
      && some parent.eventId != row.id)
    && (parents.zip parents.tail).all (fun pair => pair.1.seq < pair.2.seq)
    && (parents.map (·.eventId)).Nodup

/-- `publicCausality`: the members `caused_by` and `causality_omitted`. -/
def publicCausality (platform : Platform) (row : TailRow) :
    Option (List BatchEventCause) × Option CausalityOmitted :=
  match row.causalState, row.causalJson with
  | .notRecorded, _ => (none, some .notRecorded)
  | .recorded, some text =>
      match (parseCauses platform text).filter (areParentsValid row) with
      | none => (none, some .unavailable)
      | some parents => (some parents, none)
  | _, _ => (none, some .unavailable)

def publicObjectUrl (row : TailRow) (through : Int) : Option String :=
  let root := "/p/" ++ Herald.encodeProblem row.problemId
  let face := fun (faces objectId : String) => root ++ faces ++ objectId ++ "@"
    ++ toString (row.objectVersion.getD 0) ++ ".json?through=" ++ toString through
  let objectId := row.objectId.getD ""
  if 999999999999999 < through then none
  else if row.objectKind = some "directive-disclosure" && isDisclosureId (row.id.getD "") then
    some (root ++ "/disclosures/" ++ row.id.getD "" ++ ".json")
  else if row.objectKind = some "claim" && utf16Length objectId ≤ 47 && isNumbered 'C' objectId then
    some (face "/claims/" objectId)
  else if row.objectKind = some "citation" && utf16Length objectId ≤ 47
      && isNumbered 'L' objectId then
    some (face "/citations/" objectId)
  else none

def undisclosed (row : TailRow) : PublicEventEnvelope :=
  { problemId := row.problemId, seq := row.seq.getD 0, event := none
    bodyOmitted := .undisclosedEvent }

def isDisclosable (row : TailRow) : Bool :=
  (row.objectKind.any fun kind => isPublicProducer kind (row.type.getD ""))
    && row.id.any safeId && row.objectId.any safeObjectId
    && row.objectVersion.any (fun version => safeInteger version && 1 ≤ version)
    && row.createdAt.any (fun instant => (dateTime instant).isSome)
    && row.payloadSha256.any Krater.isSha256Hex

def disclosedEvent (platform : Platform) (row : TailRow) (through : Int)
    (screeningNotice : Option String) : PublicEvent :=
  let causality := publicCausality platform row
  { id := row.id.getD "", type := row.type.getD "", objectKind := row.objectKind.getD ""
    objectId := row.objectId.getD "", objectVersion := row.objectVersion.getD 0
    createdAt := row.createdAt.getD "", payloadSha256 := row.payloadSha256.getD ""
    screeningNotice, causedBy := causality.1, causalityOmitted := causality.2
    actor :=
      { fellowId := row.actorFellowId.filter safeId, sponsorId := row.actorSponsorId.filter safeId
        sessionId := row.actorSessionId.filter safeId
        modelSelfDeclared := row.modelStringSelfDeclared, harnessSelfDeclared := row.harness }
    objectUrl := publicObjectUrl row through }

def disclosedEnvelope (platform : Platform) (row : TailRow) (through : Int)
    (screeningNotice : Option String) : PublicEventEnvelope :=
  { problemId := row.problemId, seq := row.seq.getD 0
    event := some (disclosedEvent platform row through screeningNotice)
    bodyOmitted := if row.contentAvailable then .separateObjectFace else .contentUnavailable }

def publicEnvelope (platform : Platform) (row : TailRow) (through : Int) :
    Except TailError PublicEventEnvelope :=
  if !isDisclosable row then .ok (undisclosed row)
  else
    (publicationScreeningNotice platform
        (if row.contentAvailable then row.screeningProvenance else none)).map fun notice =>
      let envelope := disclosedEnvelope platform row through notice
      if envelope.json.utf8ByteSize ≤ envelopeBytes then envelope else undisclosed row

/-! ## Pages -/

structure EventTailQuery where
  since : Int
  limit : Int
  through : Option Int
  wait : Option Int
deriving Repr, DecidableEq

/-- `eventTailPath(problem, "json", query)`. -/
def eventTailPath (problem : String) (query : EventTailQuery) : String :=
  "/p/" ++ Herald.encodeProblem problem ++ "/events.json?since=" ++ toString query.since
    ++ "&limit=" ++ toString query.limit
    ++ (query.through.map fun through => "&through=" ++ toString through).getD ""
    ++ (query.wait.map fun wait => "&wait=" ++ toString wait).getD ""

structure EventTailPageEnd where
  problemId : String
  since : Int
  through : Int
  nextCursor : Int
  hasMore : Bool
  next : Option String
  poll : String
deriving Repr, DecidableEq

structure EventTailPage where
  events : List PublicEventEnvelope
  pageEnd : EventTailPageEnd
deriving Repr, DecidableEq

def isQueryValid (problemId : String) (query : EventTailQuery) : Bool :=
  isTailProblem problemId && safeInteger query.since && safeInteger query.limit
    && 1 ≤ query.limit && query.limit ≤ maxEvents
    && query.through.all (fun through => safeInteger through && query.since ≤ through)
    && query.wait.all (fun wait => safeInteger wait && wait ≤ maxWaitSeconds)

/-- Whole envelopes, up to the last that the page has room for. -/
def takeEnvelopes (platform : Platform) (through : Int) :
    Nat → List TailRow → Except TailError (List PublicEventEnvelope)
  | _, [] => .ok []
  | eventBytes, row :: rows =>
      (publicEnvelope platform row through).bind fun event =>
        let bytes := event.json.utf8ByteSize
        if pageBytes < eventBytes + bytes then .ok []
        else (takeEnvelopes platform through (eventBytes + bytes) rows).map (event :: ·)

/-- Every row is of the problem as the first row has it, and the sequences
follow the cursor one by one. -/
def areRowsComplete (first : TailRow) (problemId : String) (since : Int) (rows : List TailRow) :
    Bool :=
  rows.zipIdx.all fun (row, i) => row.problemId == problemId && row.through == first.through
    && row.publicSeq == first.publicSeq && row.unlisted == first.unlisted
    && row.seq == some (since + i + 1)

def EventTailQuery.resume (query : EventTailQuery) (through nextCursor : Int) : EventTailQuery :=
  { query with since := nextCursor, through := some through }

def eventTailPage (problemId : String) (query : EventTailQuery) (through : Int)
    (events : List PublicEventEnvelope) : EventTailPage :=
  let nextCursor := query.since + events.length
  let hasMore : Bool := nextCursor < through
  { events
    pageEnd :=
      { problemId, since := query.since, through, nextCursor, hasMore
        next := if hasMore then some (eventTailPath problemId (query.resume through nextCursor))
          else none
        poll := eventTailPath problemId { query with since := nextCursor, through := none } } }

/-- The page, and whether the problem is unlisted; nothing for a problem
that is not visible. -/
def readPublicEventTail (platform : Platform) (db : Db) (problemId : String)
    (query : EventTailQuery) : Except TailError (Option (EventTailPage × Bool)) :=
  if !isQueryValid problemId query then .error .cursorInvalid
  else
    let results :=
      eventTailSelect platform db query.through problemId query.since (query.limit + 1)
    match results with
    | [] => .ok none
    | first :: _ =>
        if first.problemId != problemId || !safeInteger first.publicSeq
            || !safeInteger first.through || (first.unlisted != 0 && first.unlisted != 1) then
          .error .eventTailUnavailable
        else if first.through != query.through.getD first.publicSeq then
          .error .eventTailUnavailable
        else if first.publicSeq < first.through || first.through < query.since then
          .error .cursorInvalid
        else
          let rows := results.filter (·.seq.isSome)
          if (rows.length : Int) != min (query.limit + 1) (first.through - query.since)
              || !areRowsComplete first problemId query.since rows then
            .error .eventTailUnavailable
          else
            (takeEnvelopes platform first.through 0 (rows.take query.limit.toNat)).map fun events =>
              some (eventTailPage problemId query first.through events, first.unlisted == 1)

end Asimposium.EventTail
