import Mathlib.Data.List.Basic

/-!
# The lifecycle of a hypothesis

A hypothesis is an attack route. It is published once, may be deferred
and resumed by its author, and ends narrowed, superseded by a later
publication, or killed by evidence. Each of these is an event in the log
of the problem, and a row of `hypotheses` carries what the last of them
left.

The rule of what may follow what is written three times. A command is
admitted by `prepareHypothesisLifecycle` against what it read, pinned by
`hypothesisHeadGuard` across the screening wait, and the log it leaves is
judged again by the reader. This module is the first two, and what a
publication does.

A body is served unless its bytes were redacted or a control hides them;
the ids of the events whose bodies are not served are `withheld`. Events
are listed by sequence.
-/

namespace Asimposium.Hypotheses

/-! ## The log -/

inductive EventType where
  | created | deferred | resumed | narrowed | superseded | killed
  | other
deriving Repr, DecidableEq

inductive ObjectKind where
  | hypothesis | other
deriving Repr, DecidableEq

/-- `HypothesisLifecycleRequest`. -/
inductive LifecycleRequest where
  | defer (expectedLastEventId reason : String)
  | resume (expectedLastEventId reason : String)
  | narrow (expectedLastEventId reason successorHypothesisId : String)
  | supersede (expectedLastEventId reason successorHypothesisId : String)
deriving Repr, DecidableEq

def LifecycleRequest.expectedLastEventId : LifecycleRequest → String
  | .defer expected _ | .resume expected _ => expected
  | .narrow expected _ _ | .supersede expected _ _ => expected

def LifecycleRequest.successorHypothesisId : LifecycleRequest → Option String
  | .defer .. | .resume .. => none
  | .narrow _ _ successor | .supersede _ _ successor => some successor

inductive Payload where
  /-- the scientific text of a hypothesis -/
  | publication (content : String)
  | lifecycle (hypothesisId : String) (request : LifecycleRequest)
  | kill (hypothesisId killedByEvidenceId reason : String)
  | other (content : String)
deriving Repr, DecidableEq

structure Event where
  id : String
  seq : Nat
  objectKind : ObjectKind
  objectId : String
  objectVersion : Nat
  type : EventType
  actorFellowId : Option String
  payloadSha256 : String
  payload : Payload
deriving Repr, DecidableEq

/-- `hypotheses.lifecycle_status`. -/
inductive LifecycleStatus where
  | active | deferred | narrowed | superseded | killed
deriving Repr, DecidableEq

/-- `hypotheses.status`. -/
inductive RouteStatus where
  | «open» | killed | refinedInto
deriving Repr, DecidableEq

/-- A row of `hypotheses`, without the copies of the scientific text. -/
structure Hypothesis where
  hypothesisId : String
  status : RouteStatus
  authorFellowId : String
  sourceEventId : String
  sourceSeq : Nat
  lifecycleStatus : LifecycleStatus
  lifecycleEventId : String
  lifecycleSourceSeq : Nat
  successorHypothesisId : Option String
  killedByEvidenceId : Option String
  killReason : Option String
  killEventId : Option String
  killSourceSeq : Option Nat
deriving Repr, DecidableEq

structure Db where
  events : List Event
  hypotheses : List Hypothesis
  withheld : List String

/-- `public_seq`. -/
def Db.publicSeq (db : Db) : Nat := db.events.length

def Db.serves (db : Db) (e : Event) : Bool := !db.withheld.contains e.id

def Db.history (db : Db) (hypothesisId : String) : List Event :=
  db.events.filter fun e => e.objectKind == .hypothesis && e.objectId == hypothesisId

/-! ## What a reader is given -/

inductive PublicStatus where
  | lifecycle (status : LifecycleStatus)
  | unavailable
deriving Repr, DecidableEq

structure Envelope where
  eventId : String
  seq : Nat
  payloadSha256 : String
  fellowId : Option String
deriving Repr, DecidableEq

def Event.envelope (e : Event) : Envelope where
  eventId := e.id
  seq := e.seq
  payloadSha256 := e.payloadSha256
  fellowId := e.actorFellowId

/-- `PublicHypothesis`. -/
structure PublicHypothesis where
  hypothesisId : String
  status : PublicStatus
  publication : Envelope
  content : Option String
  lastEvent : Envelope
  kill : Option (String × String × String)
  lifecycle : Option (String × LifecycleRequest)
deriving Repr, DecidableEq

/-! ## Admission -/

inductive LifecycleErrorCode where
  | hypothesisNotFound | hypothesisBodyInvalid | objectVersionConflict | writeRefused
deriving Repr, DecidableEq

/-- `HYPOTHESIS_LIFECYCLE_STATES`. -/
def LifecycleRequest.state : LifecycleRequest → LifecycleStatus
  | .defer .. => .deferred
  | .resume .. => .active
  | .narrow .. => .narrowed
  | .supersede .. => .superseded

/-- `HYPOTHESIS_LIFECYCLE_EVENTS`. -/
def LifecycleRequest.eventType : LifecycleRequest → EventType
  | .defer .. => .deferred
  | .resume .. => .resumed
  | .narrow .. => .narrowed
  | .supersede .. => .superseded

/-- `permitted`: the states an action starts from. -/
def LifecycleRequest.permits (request : LifecycleRequest) (current : PublicStatus) : Bool :=
  match request with
  | .resume .. => current == .lifecycle .deferred
  | .defer .. => current == .lifecycle .active
  | .narrow .. | .supersede .. => current == .lifecycle .active || current == .lifecycle .deferred

structure HeadGuard where
  state : LifecycleStatus
  types : List EventType
  lastEventId : String
  publicationEventId : String
  publicationSha256 : String
  lastSha256 : String
deriving Repr, DecidableEq

/-- `hypothesisHeadGuard`. -/
def hypothesisHeadGuard (h : PublicHypothesis) : Except LifecycleErrorCode HeadGuard :=
  let pinned (state : LifecycleStatus) (types : List EventType) : HeadGuard := {
    state := state
    types := types
    lastEventId := h.lastEvent.eventId
    publicationEventId := h.publication.eventId
    publicationSha256 := h.publication.payloadSha256
    lastSha256 := h.lastEvent.payloadSha256 }
  match h.status with
  | .lifecycle .active => .ok (pinned .active [.created, .resumed])
  | .lifecycle .deferred => .ok (pinned .deferred [.deferred])
  | .lifecycle .killed => .ok (pinned .killed [.killed])
  | .lifecycle .narrowed | .lifecycle .superseded | .unavailable =>
      .error .objectVersionConflict

def HeadGuard.holds (guard : HeadGuard) (db : Db) : Bool :=
  db.events.any fun source =>
    source.id == guard.publicationEventId && source.type == .created
      && source.objectKind == .hypothesis && source.objectVersion == 1
      && source.payloadSha256 == guard.publicationSha256 && db.serves source
      && db.events.any fun head =>
        head.id == guard.lastEventId && head.objectKind == .hypothesis
          && head.objectId == source.objectId && head.objectVersion == 1
          && guard.types.contains head.type && head.payloadSha256 == guard.lastSha256
          && db.serves head
          && (db.hypotheses.any fun row =>
            row.hypothesisId == source.objectId && row.sourceEventId == source.id
              && row.lifecycleStatus == guard.state && row.lifecycleEventId == head.id)
          && !db.events.any fun later =>
            later.objectKind == .hypothesis && later.objectId == source.objectId
              && head.seq < later.seq

/-- `readableHypothesisTarget`, on the item that was read. -/
def readableHypothesisTarget (read : Option PublicHypothesis) :
    Except LifecycleErrorCode PublicHypothesis :=
  match read with
  | none => .error .hypothesisNotFound
  | some h =>
      if h.content.isNone || h.status == .unavailable then .error .hypothesisNotFound else .ok h

structure Admission where
  hypothesisId : String
  fellowId : String
  request : LifecycleRequest
  guards : List HeadGuard

/-- The guard of the successor, if the request names one. -/
def successorGuard (hypothesisId : String) (h : PublicHypothesis)
    (successor : Option PublicHypothesis) (request : LifecycleRequest) :
    Except LifecycleErrorCode (List HeadGuard) :=
  match request.successorHypothesisId with
  | none => .ok []
  | some successorId =>
      if successorId = hypothesisId then .error .hypothesisBodyInvalid
      else
        match successor with
        | none => .error .hypothesisBodyInvalid
        | some next =>
            if next.content.isNone || next.status != .lifecycle .active
                || next.publication.seq ≤ h.publication.seq then
              .error .hypothesisBodyInvalid
            else (hypothesisHeadGuard next).map ([·])

/-- `prepareHypothesisLifecycle`, on the items of the target and of the
successor as they were read. -/
def prepareHypothesisLifecycle (hypothesisId fellowId : String) (request : LifecycleRequest)
    (target successor : Option PublicHypothesis) : Except LifecycleErrorCode Admission := do
  let h ← readableHypothesisTarget target
  if h.publication.fellowId ≠ some fellowId then .error .writeRefused
  else if h.lastEvent.eventId ≠ request.expectedLastEventId then .error .objectVersionConflict
  else if !request.permits h.status then .error .objectVersionConflict
  else do
    let next ← successorGuard hypothesisId h successor request
    let source ← hypothesisHeadGuard h
    return ⟨hypothesisId, fellowId, request, source :: next⟩

/-! ## Publications -/

def Db.event (db : Db) (digest : Payload → String) (eventId hypothesisId fellowId : String)
    (type : EventType) (payload : Payload) : Event where
  id := eventId
  seq := db.publicSeq + 1
  objectKind := .hypothesis
  objectId := hypothesisId
  objectVersion := 1
  type := type
  actorFellowId := some fellowId
  payloadSha256 := digest payload
  payload := payload

def Db.append (db : Db) (e : Event) : Option Db :=
  if db.events.any (·.id == e.id) then none else some { db with events := db.events ++ [e] }

def publishHypothesis (digest : Payload → String) (eventId hypothesisId fellowId content : String)
    (db : Db) : Option Db := do
  let e := db.event digest eventId hypothesisId fellowId .created (.publication content)
  let appended ← db.append e
  if db.hypotheses.any (·.hypothesisId == hypothesisId) then none
  else
    some { appended with
      hypotheses := db.hypotheses ++ [{
        hypothesisId := hypothesisId
        status := .open
        authorFellowId := fellowId
        sourceEventId := e.id
        sourceSeq := e.seq
        lifecycleStatus := .active
        lifecycleEventId := e.id
        lifecycleSourceSeq := e.seq
        successorHypothesisId := none
        killedByEvidenceId := none
        killReason := none
        killEventId := none
        killSourceSeq := none }] }

def Hypothesis.advance (row : Hypothesis) (request : LifecycleRequest) (e : Event) : Hypothesis :=
  { row with
    status := if request.successorHypothesisId.isNone then .open else .refinedInto
    lifecycleStatus := request.state
    lifecycleEventId := e.id
    lifecycleSourceSeq := e.seq
    successorHypothesisId := request.successorHypothesisId }

def publishLifecycle (digest : Payload → String) (eventId : String) (admission : Admission)
    (db : Db) : Option Db := do
  let e := db.event digest eventId admission.hypothesisId admission.fellowId
    admission.request.eventType (.lifecycle admission.hypothesisId admission.request)
  if !admission.guards.all (·.holds db) then none
  else
    let appended ← db.append e
    some { appended with
      hypotheses := db.hypotheses.map fun row =>
        if row.hypothesisId = admission.hypothesisId then row.advance admission.request e else row }

structure Elimination where
  hypothesisId : String
  fellowId : String
  killedByEvidenceId : String
  reason : String
  guard : HeadGuard

def prepareElimination (hypothesisId fellowId killedByEvidenceId reason : String)
    (target : Option PublicHypothesis) : Except LifecycleErrorCode Elimination := do
  let h ← readableHypothesisTarget target
  if h.status ≠ .lifecycle .active ∧ h.status ≠ .lifecycle .deferred then
    .error .hypothesisBodyInvalid
  else do
    let guard ← hypothesisHeadGuard h
    return ⟨hypothesisId, fellowId, killedByEvidenceId, reason, guard⟩

def Hypothesis.eliminate (row : Hypothesis) (killedByEvidenceId reason : String) (e : Event) :
    Hypothesis :=
  { row with
    status := .killed
    lifecycleStatus := .killed
    lifecycleEventId := e.id
    lifecycleSourceSeq := e.seq
    killedByEvidenceId := some killedByEvidenceId
    killReason := some reason
    killEventId := some e.id
    killSourceSeq := some e.seq }

def publishElimination (digest : Payload → String) (eventId : String) (elimination : Elimination)
    (db : Db) : Option Db := do
  let e := db.event digest eventId elimination.hypothesisId elimination.fellowId .killed
    (.kill elimination.hypothesisId elimination.killedByEvidenceId elimination.reason)
  if !(db.hypotheses.any fun row =>
      row.hypothesisId == elimination.hypothesisId && row.status == .open) then none
  else if !elimination.guard.holds db then none
  else
    let appended ← db.append e
    some { appended with
      hypotheses := db.hypotheses.map fun row =>
        if row.hypothesisId = elimination.hypothesisId ∧ row.status = .open then
          row.eliminate elimination.killedByEvidenceId elimination.reason e
        else row }

end Asimposium.Hypotheses

/-!
## Reading a hypothesis

`readHypotheses` rebuilds a hypothesis from the log alone: the first
admission, the head, the event before the head, and whether any event of
the history is out of order. A body that is not served, and a lifecycle
event that does not name its predecessor, make what depends on them
unavailable.
-/

namespace Asimposium.Hypotheses

def EventType.authorOnly : EventType → Bool
  | .deferred | .resumed | .narrowed | .superseded => true
  | .created | .killed | .other => false

/-- An event the reader accepts after an event of the type `previous`. -/
def isValidAfter (previous : Option EventType) (creator : Option String) (e : Event) : Bool :=
  e.objectVersion == 1
    && (match e.type with
      | .created => previous == none
      | .deferred => previous == some .created || previous == some .resumed
      | .resumed => previous == some .deferred
      | .killed | .narrowed | .superseded =>
          previous == some .created || previous == some .resumed || previous == some .deferred
      | .other => false)
    && !(e.type.authorOnly && e.actorFellowId != creator)

/-- Every event of a history is accepted after the one before it. -/
def isValidHistory (creator : Option String) : Option EventType → List Event → Bool
  | _, [] => true
  | previous, e :: rest =>
      isValidAfter previous creator e && isValidHistory creator (some e.type) rest

/-- A row of `hypothesisRowsSql`. -/
structure HypothesisRow where
  hypothesisId : String
  creations : Nat
  creation : Event
  head : Event
  previousEventId : Option String
  invalidHistory : Bool

def hypothesisRow (db : Db) (hypothesisId : String) : Option HypothesisRow := do
  let history := db.history hypothesisId
  let admissions := history.filter (·.type == .created)
  let creation ← admissions.head?
  let head ← history.getLast?
  return {
    hypothesisId := hypothesisId
    creations := admissions.length
    creation := creation
    head := head
    previousEventId := history.dropLast.getLast?.map (·.id)
    invalidHistory := !isValidHistory creation.actorFellowId none history }

/-- `lifecycleStatus` of the reader. -/
def EventType.lifecycleStatus : EventType → Option LifecycleStatus
  | .deferred => some .deferred
  | .resumed => some .active
  | .narrowed => some .narrowed
  | .superseded => some .superseded
  | .created | .killed | .other => none

/-- `lifecycleAction` of the reader, as the event a request publishes. -/
def decodesAs (type : EventType) (request : LifecycleRequest) : Bool := request.eventType == type

def Payload.asPublication : Payload → Option String
  | .publication content => some content
  | .lifecycle .. | .kill .. | .other _ => none

def Payload.asKill : Payload → Option (String × String × String)
  | .kill hypothesisId evidence reason => some (hypothesisId, evidence, reason)
  | .publication _ | .lifecycle .. | .other _ => none

def Payload.asLifecycle : Payload → Option (String × LifecycleRequest)
  | .lifecycle hypothesisId request => some (hypothesisId, request)
  | .publication _ | .kill .. | .other _ => none

def Db.body (db : Db) (e : Event) : Option Payload := if db.serves e then some e.payload else none

def HypothesisRow.recordedStatus (row : HypothesisRow) : PublicStatus :=
  if row.creations ≠ 1 ∨ row.creation.objectVersion ≠ 1 ∨ row.head.objectVersion ≠ 1
      ∨ row.invalidHistory then
    .unavailable
  else if row.head.type = .killed then .lifecycle .killed
  else if row.head.type = .created ∧ row.creation.id = row.head.id then .lifecycle .active
  else
    match row.head.type.lifecycleStatus with
    | none => .unavailable
    | some status => .lifecycle status

def HypothesisRow.belongs (row : HypothesisRow) (decoded : String × LifecycleRequest) : Bool :=
  decoded.1 == row.hypothesisId && decodesAs row.head.type decoded.2
    && some decoded.2.expectedLastEventId == row.previousEventId

/-- One item of `readHypotheses`. -/
def readItem (db : Db) (row : HypothesisRow) : PublicHypothesis :=
  let recorded := row.recordedStatus
  let decodedKill :=
    if recorded = .lifecycle .killed then (db.body row.head).bind Payload.asKill else none
  let killBelongs := decodedKill.all fun kill => kill.1 == row.hypothesisId
  let afterKill := if killBelongs then recorded else .unavailable
  let isLifecycle := row.head.type.lifecycleStatus.isSome
  let decoded :=
    if isLifecycle ∧ afterKill ≠ .unavailable then (db.body row.head).bind Payload.asLifecycle
    else none
  let lifecycleBelongs := decoded.all row.belongs
  let lifecycle := if lifecycleBelongs then decoded else none
  let afterLifecycle := if lifecycleBelongs then afterKill else .unavailable
  { hypothesisId := row.hypothesisId
    status :=
      if row.head.type = .resumed ∧ lifecycle = none then .unavailable else afterLifecycle
    publication := row.creation.envelope
    content := (db.body row.creation).bind Payload.asPublication
    lastEvent := row.head.envelope
    kill := if killBelongs then decodedKill else none
    lifecycle := lifecycle }

/-- `loadPublicHypothesisItem` at the head. -/
def loadHypothesis (db : Db) (hypothesisId : String) : Option PublicHypothesis :=
  (hypothesisRow db hypothesisId).map (readItem db)

end Asimposium.Hypotheses
