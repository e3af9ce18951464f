import Asimposium.Hypotheses.Lifecycle
import Asimposium.Krater.PublicContent
import Asimposium.Search.Continuation

/-!
# The list of hypotheses

`readHypotheses` selects the hypotheses of a problem by their first
admission, up to a captured sequence number and a page at a time, and then
decodes the bodies of the two events it shows of each: its publication and
its last event. Bodies may be redacted, hidden by a control, too large or no
longer what their digest says; the envelopes of the events stay.
`boundHypothesesFace` cuts a page again, by the bytes it renders to.

Here is one problem. Its events are listed by sequence. SHA-256, the parsing
of JSON, the calendar and the decoders of the contract are a `Platform`'s.
-/

namespace Asimposium.Hypotheses.Listing

open PublicContent (Control hiddenByContentControl eventTargets)
open Text (isAlphanumeric isDigit isUpper byteLength)
open Search (isHex64)

/-! ## Tables -/

/-- A row of `events`. -/
structure Event where
  id : Text
  seq : Nat
  type : EventType
  objectKind : ObjectKind
  objectId : Text
  objectVersion : Int
  createdAt : Text
  payloadSha256 : Text
  fellowId : Option Text
  sponsorId : Option Text
  sessionId : Option Text
  modelSelfDeclared : Option Text
  harnessSelfDeclared : Option Text
deriving DecidableEq

/-- A row of `event_content`. -/
structure Content where
  payloadSha256 : Text
  payloadJson : Text
  isRedacted : Bool

structure Db where
  problemId : Text
  publicSeq : Nat
  isPrivateDraft : Bool
  unlisted : Bool
  events : List Event
  content : Text → Option Content
  controls : List Control

def Db.hides (db : Db) (target : Text) : Bool := hiddenByContentControl db.controls target

def Event.targets (e : Event) : List Text := eventTargets e.objectId e.objectVersion e.seq

/-- `HYPOTHESIS_CONTENT_BYTES`. -/
def hypothesisContentBytes : Nat := 512 * 1024

def Db.payloadJson (db : Db) (e : Event) : Option Text :=
  match db.content e.id with
  | some row =>
      if row.payloadSha256 = e.payloadSha256 ∧ row.isRedacted = false
          ∧ e.targets.all (fun target => !db.hides target)
          ∧ byteLength row.payloadJson ≤ hypothesisContentBytes then
        some row.payloadJson
      else none
  | none => none

/-! ## The statement -/

structure HypothesisReadQuery where
  through : Option Int
  after : Option Int

structure Selection where
  liveOnly : Option Bool
  killedOnly : Option Bool
  limit : Option Int
  target : Option Text

/-- `HYPOTHESIS_PAGE_SIZE`. -/
def hypothesisPageSize : Int := 8

/-- The items of a page, and the rows that are read for it. -/
def Selection.pageLimit (selection : Selection) : Int :=
  if selection.target.isSome then 1 else selection.limit.getD hypothesisPageSize

def Selection.rowLimit (selection : Selection) : Int :=
  if selection.target.isSome then 1 else selection.pageLimit + 1

def isAdmission (e : Event) : Bool := e.objectKind == .hypothesis && e.type == .created

/-- `admissions`: the first creation of each hypothesis. -/
def admissions (scope : List Event) : List Event :=
  scope.filter fun e => isAdmission e
    && !scope.any fun d => isAdmission d && d.objectId == e.objectId && d.seq < e.seq

def history (scope : List Event) (objectId : Text) : List Event :=
  scope.filter fun e => e.objectKind == .hypothesis && e.objectId == objectId

/-- `invalid` for an event and the one before it. -/
def isInvalid (creator : Option Text) (previous : Option Event) (e : Event) : Bool :=
  let previousType := previous.map (·.type)
  e.objectVersion != 1
    || !(match e.type with
      | .created => previous.isNone
      | .deferred => previousType == some .created || previousType == some .resumed
      | .resumed => previousType == some .deferred
      | .killed | .narrowed | .superseded => previousType == some .created
          || previousType == some .resumed || previousType == some .deferred
      | .other => false)
    || e.type.authorOnly && e.fellowId != creator

def hasInvalid (creator : Option Text) : Option Event → List Event → Bool
  | _, [] => false
  | previous, e :: rest => isInvalid creator previous e || hasInvalid creator (some e) rest

structure PageRow where
  hypothesisId : Text
  creations : Nat
  creation : Event
  head : Event
  previousEventId : Option Text
  invalidHistory : Bool

structure Row extends PageRow where
  payloadJson : Option Text
  lastPayloadJson : Option Text

def pageRow (scope : List Event) (creation : Event) : Option PageRow := do
  let events := history scope creation.objectId
  let head ← events.getLast?
  return {
    hypothesisId := creation.objectId
    creations := events.countP isAdmission
    creation := creation
    head := head
    previousEventId := events.dropLast.getLast?.map (·.id)
    invalidHistory := hasInvalid creation.fellowId none events }

def EventType.leavesFrontier : EventType → Bool
  | .killed | .deferred | .narrowed | .superseded => true
  | .created | .resumed | .other => false

/-- `WHERE` of `page`. -/
def isSelected (scope : List Event) (selection : Selection) (after : Int) (r : PageRow) : Bool :=
  decide (after < r.creation.seq)
    && !(selection.liveOnly == some true && EventType.leavesFrontier r.head.type)
    && (selection.killedOnly != some true
      || (history scope r.hypothesisId).any (·.type == .killed))
    && selection.target.all fun target => target == r.hypothesisId

section Statement

variable (db : Db)

/-- `HYPOTHESIS_HEAD_SQL` finds the problem. -/
def Db.isServed : Bool := !db.isPrivateDraft && !db.hides (text "problem")

/-- `page`. -/
def page (cursor after limit : Int) (selection : Selection) : List PageRow :=
  if db.isServed && cursor ≤ db.publicSeq && selection.target.all (!db.hides ·) then
    let scope := db.events.filter fun e => (e.seq : Int) ≤ cursor
    (((admissions scope).filterMap (pageRow scope)).filter
      (isSelected scope selection after)).take limit.toNat
  else []

def withContent (r : PageRow) : Row where
  toPageRow := r
  payloadJson := db.payloadJson r.creation
  lastPayloadJson := db.payloadJson r.head

/-- `hypothesisRowsSql`. -/
def hypothesisRows (cursor after limit : Int) (selection : Selection) : List Row :=
  (page db cursor after limit selection).map (withContent db)

end Statement

/-! ## The page -/

/-- `row.lifecycle.action`. -/
inductive Action where
  | defer
  | resume
  | narrow
  | supersede
deriving DecidableEq

/-- `lifecycleAction`. -/
def lifecycleAction : EventType → Option Action
  | .deferred => some .defer
  | .resumed => some .resume
  | .narrowed => some .narrow
  | .superseded => some .supersede
  | .created | .killed | .other => none

/-- `HypothesisDecoders`, which are given nothing for what is not served, and
the fields of what they decode. -/
structure Decoders (V C K L : Type) where
  publication : Option V → Option C
  kill : Option V → Option K
  lifecycle : Option (Option V → Option L)
  killed : K → Text
  hypothesisId : L → Text
  action : L → Action
  expectedLastEventId : L → Text

structure Platform (V C K L : Type) where
  /-- The hexadecimal SHA-256 of a text's UTF-8. -/
  sha256Hex : Text → Text
  parseJson : Text → Option V
  /-- An instant, to the millisecond, as `toISOString` spells it. -/
  isTimestamp : Text → Bool
  decoders : Decoders V C K L

structure Platform.Lawful {V C K L : Type} (π : Platform V C K L) : Prop where
  lifecycle : ∀ decode ∈ π.decoders.lifecycle, decode none = none

structure Envelope where
  eventId : Text
  seq : Nat
  createdAt : Text
  payloadSha256 : Text
  fellowId : Option Text
  sponsorId : Option Text
  sessionId : Option Text
  modelSelfDeclared : Option Text
  harnessSelfDeclared : Option Text
deriving DecidableEq

structure PublicHypothesis (C K L : Type) where
  hypothesisId : Text
  status : PublicStatus
  publication : Envelope
  content : Option C
  lastEvent : Envelope
  kill : Option K
  /-- absent where the last event is no lifecycle event -/
  lifecycle : Option (Option L)

inductive Omission where
  | contentUnavailable
  | lifecycleUnavailable
  | pageLimit
deriving DecidableEq

structure HypothesesResponse (C K L : Type) where
  problemId : Text
  cursor : Int
  after : Int
  hypotheses : List (PublicHypothesis C K L)
  nextAfter : Option Nat
  omitted : List Omission

inductive ReadError where
  | cursorInvalid
  | hypothesesUnavailable
deriving DecidableEq

/-- `/^[A-Za-z0-9][A-Za-z0-9._:-]{0,127}$/`. -/
def isId : Text → Bool
  | [] => false
  | head :: rest => isAlphanumeric head && rest.length ≤ 127
      && rest.all fun u => isAlphanumeric u || (text "._:-").contains u

/-- `PublicHypothesisIdSchema`. -/
def isPublicHypothesisId (id : Text) : Bool :=
  let rest := id.drop 2
  let isCrockford (u : UInt16) := isDigit u
    || isUpper u && !(text "ILOU").contains u
  id.length ≤ 80 && (text "H-").isPrefixOf id
    && (rest.all isCrockford && 1 ≤ rest.length && rest.length ≤ 78 || isHex64 rest)

/-- `sequence`. -/
def sequence (n minimum : Int) : Bool := isSafeInteger n && minimum ≤ n

/-- Keeps the first of each, as a `Set` is listed. -/
def firstOccurrences (reasons : List Omission) : List Omission :=
  reasons.foldl (fun seen reason => if seen.contains reason then seen else seen ++ [reason]) []

section Page

variable {V C K L : Type} (π : Platform V C K L)

/-- `declaration`. -/
def isDeclaration (t : Text) : Bool := t.length ≤ 256

/-- `envelope`. -/
def envelope (e : Event) : Option Envelope :=
  if isId e.id && sequence e.seq 1 && π.isTimestamp e.createdAt && isHex64 e.payloadSha256
      && e.fellowId.all isId && e.sponsorId.all isId && e.sessionId.all isId
      && e.modelSelfDeclared.all isDeclaration && e.harnessSelfDeclared.all isDeclaration then
    some { eventId := e.id, seq := e.seq, createdAt := e.createdAt
           payloadSha256 := e.payloadSha256, fellowId := e.fellowId, sponsorId := e.sponsorId
           sessionId := e.sessionId, modelSelfDeclared := e.modelSelfDeclared
           harnessSelfDeclared := e.harnessSelfDeclared }
  else none

/-- `verifiedContent`. -/
def verifiedContent (raw : Option Text) (expected : Text) : Option V :=
  raw.bind fun raw =>
    if byteLength raw > hypothesisContentBytes then none
    else if π.sha256Hex raw ≠ expected then none
    else π.parseJson raw

def recordedStatus (r : PageRow) : PublicStatus :=
  if r.creations ≠ 1 ∨ r.creation.objectVersion ≠ 1 ∨ r.head.objectVersion ≠ 1
      ∨ r.invalidHistory then
    .unavailable
  else if r.head.type = .killed then .lifecycle .killed
  else if r.head.type = .created ∧ r.creation.id = r.head.id then .lifecycle .active
  else
    match r.head.type.lifecycleStatus with
    | none => .unavailable
    | some status => .lifecycle status

def belongs (r : PageRow) (lifecycle : L) : Bool :=
  π.decoders.hypothesisId lifecycle == r.hypothesisId
    && some (π.decoders.action lifecycle) == lifecycleAction r.head.type
    && some (π.decoders.expectedLastEventId lifecycle) == r.previousEventId

def readItem (r : Row) (publication last : Envelope) : PublicHypothesis C K L :=
  let status := recordedStatus r.toPageRow
  let lastBody := verifiedContent π r.lastPayloadJson r.head.payloadSha256
  let decodedKill := if status = .lifecycle .killed then π.decoders.kill lastBody else none
  let isKill := decodedKill.all fun kill => π.decoders.killed kill == r.hypothesisId
  let kill := if isKill then decodedKill else none
  let status := if isKill then status else .unavailable
  let isLifecycle := r.head.type.lifecycleStatus.isSome
  let decoded :=
    if isLifecycle ∧ status ≠ .unavailable then π.decoders.lifecycle.bind (· lastBody) else none
  let isItsOwn := decoded.all (belongs π r.toPageRow)
  let lifecycle := if isItsOwn then decoded else none
  let status := if isItsOwn then status else .unavailable
  { hypothesisId := r.hypothesisId
    status := if r.head.type = .resumed ∧ lifecycle.isNone then .unavailable else status
    publication
    content := π.decoders.publication (verifiedContent π r.payloadJson r.creation.payloadSha256)
    lastEvent := last
    kill
    lifecycle := if isLifecycle then some lifecycle else none }

/-- What `readHypotheses` says is missing from an item. -/
def omissions (item : PublicHypothesis C K L) : List Omission :=
  (if item.content.isNone ∨ (item.status = .lifecycle .killed ∧ item.kill.isNone)
      ∨ item.lifecycle.any (·.isNone) then [.contentUnavailable] else [])
    ++ if item.status = .unavailable then [.lifecycleUnavailable] else []

def readRows (cursor : Int) (target : Option Text) :
    List Text → Int → List Row → Except ReadError (List (PublicHypothesis C K L))
  | _, _, [] => .ok []
  | ids, previous, r :: rest =>
      if !isPublicHypothesisId r.hypothesisId || ids.contains r.hypothesisId
          || target.any (· != r.hypothesisId) then
        .error .hypothesesUnavailable
      else match envelope π r.creation, envelope π r.head with
      | some publication, some last =>
          if (publication.seq : Int) ≤ previous ∨ last.seq < publication.seq ∨ cursor < last.seq then
            .error .hypothesesUnavailable
          else match readRows cursor target (r.hypothesisId :: ids) publication.seq rest with
          | .ok items => .ok (readItem π r publication last :: items)
          | .error e => .error e
      | _, _ => .error .hypothesesUnavailable

/-- `/^(?!.*--)[A-Za-z0-9][A-Za-z0-9._:-]{0,127}$/`. -/
def isProblemId (id : Text) : Bool := isId id && !Text.includes id (text "--")

def isRefused (db : Db) (query : HypothesisReadQuery) (selection : Selection) : Bool :=
  let after := query.after.getD 0
  !isProblemId db.problemId || !sequence after 0
    || selection.liveOnly == some true && selection.killedOnly == some true
    || query.through.any (fun through => !sequence through 0 || through < after)
    || selection.target.any fun target => !isPublicHypothesisId target || query.after.isSome
      || selection.liveOnly.isSome || selection.killedOnly.isSome || selection.limit.isSome

/-- `readHypotheses`, of this problem: a page, and whether the problem is
unlisted. -/
def readHypotheses (db : Db) (query : HypothesisReadQuery) (selection : Selection) :
    Except ReadError (Option (HypothesesResponse C K L × Bool)) :=
  let after := query.after.getD 0
  let exact := selection.target.isSome
  let limit := selection.pageLimit
  if isRefused db query selection then .error .cursorInvalid
  else if !sequence limit 1 || hypothesisPageSize < limit then .error .hypothesesUnavailable
  else
    let cursor := query.through.getD db.publicSeq
    let rows := hypothesisRows db cursor after selection.rowLimit selection
    if !db.isServed then .ok none
    else if !sequence db.publicSeq 0 || !sequence cursor 0 then .error .hypothesesUnavailable
    else if db.publicSeq < cursor ∨ cursor < after then .error .cursorInvalid
    else if exact && rows.isEmpty then .ok none
    else match readRows π cursor selection.target [] after (rows.take limit.toNat) with
    | .error e => .error e
    | .ok items =>
        let next :=
          if !exact && limit < rows.length then items.getLast?.map (·.publication.seq) else none
        .ok (some ({
          problemId := db.problemId
          cursor
          after
          hypotheses := items
          nextAfter := next
          omitted := firstOccurrences
            (items.flatMap omissions ++ if next.isSome then [.pageLimit] else []) }, db.unlisted))

end Page

/-! ## Pages cut by their bytes -/

inductive FaceError where
  | emptyPrefix
  | tooLarge
deriving DecidableEq

section Faces

variable {C K L : Type}

def isKept (hypotheses : List (PublicHypothesis C K L)) : Omission → Bool
  | .contentUnavailable => hypotheses.any fun item => item.content.isNone
      || item.status == .lifecycle .killed && item.kill.isNone || item.lifecycle.any (·.isNone)
  | .lifecycleUnavailable => hypotheses.any (·.status == .unavailable)
  | .pageLimit => false

/-- The page cut after `count` items. -/
def candidate (face : HypothesesResponse C K L) (count : Nat) : HypothesesResponse C K L :=
  let hypotheses := face.hypotheses.take count
  let next :=
    if count < face.hypotheses.length then hypotheses.getLast?.map (·.publication.seq)
    else face.nextAfter
  { face with
    hypotheses
    nextAfter := next
    omitted := face.omitted.filter (isKept hypotheses) ++ if next.isSome then [.pageLimit] else [] }

/-- The loop: the last candidate before one whose faces do not fit. -/
def bound (fits : HypothesesResponse C K L → Bool) (face : HypothesesResponse C K L) :
    Option (HypothesesResponse C K L) → List Nat → Except FaceError (HypothesesResponse C K L)
  | none, [] => .error .emptyPrefix
  | some included, [] => .ok included
  | included, count :: rest =>
      if fits (candidate face count) then bound fits face (some (candidate face count)) rest
      else match included with
      | none => .error .tooLarge
      | some included => .ok included

/-- `boundHypothesesFace`; `fits` says that a page's three faces are not too
large. -/
def boundHypothesesFace (fits : HypothesesResponse C K L → Bool)
    (face : HypothesesResponse C K L) : Except FaceError (HypothesesResponse C K L) :=
  if face.hypotheses.isEmpty then .ok face
  else bound fits face none (List.range' 1 face.hypotheses.length)

end Faces

end Asimposium.Hypotheses.Listing
