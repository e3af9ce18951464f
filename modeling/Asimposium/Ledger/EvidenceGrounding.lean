import Asimposium.Codec.Value
import Asimposium.Js
import Asimposium.Krater.PublicContent
import Asimposium.Lib.RecursiveTable

/-!
# Evidence grounding

`readEvidenceGrounding` reads the evidence that a write refers to, with all
that this evidence pins in turn, and lets it through only as a whole. One
recursive statement collects what is reached, at most one node more than the
budget, by its own view of the stored JSON; the code then checks every body
and reads the pins again from the parsed payloads.

SHA-256, `JSON.parse` and the JSON functions of the database are a
`Platform`'s.
-/

namespace Asimposium.EvidenceGrounding

open Codec (Number Value)
open PublicContent (Control hiddenByContentControl eventTargets)
open Text (byteLength isAlphanumeric isDigit trim)

/-! ## Budgets -/

/-- `EVIDENCE_GROUNDING_NODE_LIMIT`. -/
def nodeLimit : Nat := 64

/-- `EVIDENCE_GROUNDING_BYTE_LIMIT`. -/
def byteLimit : Nat := 1024 * 1024

/-- `SOURCE_BYTE_LIMIT`. -/
def sourceByteLimit : Nat := 512 * 1024

/-- `REFERENCE_LIMIT`. -/
def referenceLimit : Nat := 16

/-! ## References -/

structure EvidenceReference where
  evidenceId : Text
  digest : Text
deriving DecidableEq

/-- `EVIDENCE_ID`. -/
def isEvidenceId (id : Text) : Bool :=
  (text "E-").isPrefixOf id && 1 ≤ (id.drop 2).length && (id.drop 2).length ≤ 78
    && (id.drop 2).all isAlphanumeric

/-- `[a-f0-9]`. -/
def isLowerHex (u : UInt16) : Bool := isDigit u || (unit 'a' ≤ u && u ≤ unit 'f')

/-- `DIGEST`. -/
def isDigest (digest : Text) : Bool :=
  (text "sha256:").isPrefixOf digest && (digest.drop 7).length == 64
    && (digest.drop 7).all isLowerHex

section References

variable {F : Type}

def field (members : List (Text × Value F)) (key : String) : Option (Value F) :=
  members.lookup (text key)

def reference : Value F → Option EvidenceReference
  | .obj members =>
      match field members "evidence_id", field members "digest" with
      | some (.str evidenceId), some (.str digest) =>
          if members.length = 2 ∧ isEvidenceId evidenceId ∧ isDigest digest then
            some { evidenceId, digest }
          else none
      | _, _ => none
  | _ => none

/-- The references of a list, none with an id that was seen. -/
def referencesFrom : List Text → List (Value F) → Option (List EvidenceReference)
  | _, [] => some []
  | seen, value :: rest =>
      match reference value with
      | none => none
      | some ref =>
          if seen.contains ref.evidenceId then none
          else (referencesFrom (ref.evidenceId :: seen) rest).map (ref :: ·)

/-- `references`; `none` where it throws, and for a property that is not
there. -/
def references : Option (Value F) → Option (List EvidenceReference)
  | some (.arr values) => if values.length ≤ referenceLimit then referencesFrom [] values else none
  | _ => none

/-- `value != null`. -/
def present : Option (Value F) → Option (Value F)
  | some .null => none
  | value => value

def checkPins (payload : List (Text × Value F)) : Option (List EvidenceReference) :=
  match present (field payload "falsification_check") with
  | none => some []
  | some (.obj check) => references (field check "evidence")
  | some _ => none

def methodPins (payload : List (Text × Value F)) : Option (List EvidenceReference) :=
  match present (field payload "scientific_provenance") with
  | none => some []
  | some (.obj provenance) =>
      match present (field provenance "method") with
      | none => some []
      | some (.obj method) =>
          match field method "evidence" with
          | none => some []
          | some evidence => references (some evidence)
      | some _ => none
  | some _ => none

/-- `dependencies`; `none` where it throws. -/
def dependencies (payload : List (Text × Value F)) : Option (List EvidenceReference) :=
  match checkPins payload, methodPins payload with
  | some checks, some methods => some (checks ++ methods)
  | _, _ => none

end References

/-! ## Tables -/

/-- A row of `events`. -/
structure Event where
  id : Text
  seq : Nat
  type : Text
  objectKind : Text
  objectId : Text
  objectVersion : Int
  payloadSha256 : Text
  fellowId : Option Text
  sponsorId : Option Text
deriving DecidableEq

/-- A row of `event_content`. -/
structure Content where
  payloadSha256 : Text
  payloadJson : Text
  isRedacted : Bool

structure Db where
  isPrivateDraft : Bool
  publicSeq : Nat
  events : List Event
  content : Text → Option Content
  controls : List Control
  /-- `source_event_id` of `scientific_withdrawals` -/
  withdrawn : Text → Bool

structure Platform (F : Type) where
  /-- The hexadecimal SHA-256 of a text's UTF-8. -/
  sha256Hex : Text → Text
  /-- `JSON.parse`. -/
  parseJson : Text → Option (Value F)
  /-- What `json_valid` and `json_extract` read of a text. -/
  sqlJson : Text → Option (Value F)
  /-- `number === integer`. -/
  numberIs : Number F → Int → Bool

/-- Whether an event was there with its row, and whether it is public. -/
def Db.isPublic (db : Db) : Bool :=
  !db.isPrivateDraft && !hiddenByContentControl db.controls (text "problem")

/-! ## The statement -/

/-- A row of `nodes`: an id and the digits of a digest. -/
abbrev Node := Text × Text

/-- `substr(digest, 8)`. -/
def EvidenceReference.node (ref : EvidenceReference) : Node := (ref.evidenceId, ref.digest.drop 7)

section Statement

variable {F : Type} (π : Platform F) (db : Db)

def matching (node : Node) : List Event :=
  db.events.filter fun e => e.objectId == node.1 && e.type == text "evidence.created"
    && e.objectKind == text "evidence" && e.objectVersion == 1 && e.payloadSha256 == node.2
    && e.seq ≤ db.publicSeq

/-- `eventContentHiddenSql`. -/
def isHidden (e : Event) : Bool :=
  hiddenByContentControl db.controls (text "problem")
    || (eventTargets e.objectId e.objectVersion e.seq).any (hiddenByContentControl db.controls)

/-- The body of an event, where it is not redacted, large, hidden or
withdrawn. -/
def payloadJson (e : Event) : Option Text :=
  match db.content e.id with
  | some row =>
      if row.payloadSha256 = e.payloadSha256 ∧ row.isRedacted = false
          ∧ byteLength row.payloadJson ≤ sourceByteLimit ∧ isHidden db e = false
          ∧ db.withdrawn e.id = false then
        some row.payloadJson
      else none
  | none => none

/-- `json_extract` of nested properties. -/
def extract : List String → Value F → Option (Value F)
  | [], value => some value
  | key :: path, .obj members =>
      match field members key with
      | some value => extract path value
      | none => none
  | _ :: _, _ => none

/-- What the statement takes from one element of a list of pins. -/
def sqlReference : Value F → Option Node
  | .obj members =>
      match field members "evidence_id", field members "digest" with
      | some (.str evidenceId), some (.str digest) => some (evidenceId, digest.drop 7)
      | _, _ => none
  | _ => none

/-- `json_each` over one of the groups. -/
def sqlReferences : Option (Value F) → List Node
  | some (.arr values) => (values.take referenceLimit).filterMap sqlReference
  | _ => []

def sqlPins (body : Text) : List Node :=
  let payload := (π.sqlJson body).getD (.obj [])
  sqlReferences (extract ["falsification_check", "evidence"] payload)
    ++ sqlReferences (extract ["scientific_provenance", "method", "evidence"] payload)

/-- The recursive step of `nodes`. -/
def expand (node : Node) : List Node :=
  if db.isPublic then
    (matching db node).flatMap fun e => ((payloadJson db e).map (sqlPins π)).getD []
  else []

def nodes (roots : List EvidenceReference) : List Node :=
  RecursiveTable.table (expand π db) (fun node queue => queue ++ [node]) (nodeLimit + 1)
    (roots.map (·.node))

/-- A row of the result; a node without a publication has no event. -/
structure Row where
  node : Node
  event : Option Event
  payloadJson : Option Text

def rowsOf (node : Node) : List Row :=
  match matching db node with
  | [] => [⟨node, none, none⟩]
  | events => events.map fun e => ⟨node, some e, payloadJson db e⟩

/-- `ORDER BY e.seq, n.evidence_id, n.expected_sha256`, nulls first. -/
def rowLe (a b : Row) : Bool :=
  let byNode := a.node.1 != b.node.1 && Text.le a.node.1 b.node.1
    || a.node.1 == b.node.1 && Text.le a.node.2 b.node.2
  match a.event, b.event with
  | none, none => byNode
  | none, some _ => true
  | some _, none => false
  | some e, some e' => e.seq < e'.seq || e.seq == e'.seq && byNode

/-- `EVIDENCE_GROUNDING_SQL`. -/
def groundingRows (roots : List EvidenceReference) : List Row :=
  if db.isPublic then
    (((nodes π db roots).flatMap (rowsOf db)).insertionSort fun a b => rowLe a b).take
      (nodeLimit + 1)
  else []

end Statement

/-! ## The read -/

inductive GroundingError where
  | unavailable
  | invalid
  | limit
deriving DecidableEq

structure GroundedEvidence (F : Type) where
  eventId : Text
  payloadDigest : Text
  payloadJson : Text
  evidenceId : Text
  sequence : Nat
  fellowId : Text
  sponsorId : Text
  kind : Text
  direction : Text
  body : Text
  payload : List (Text × Value F)

structure GroundingWitness where
  eventId : Text
  payloadDigest : Text
  payloadJson : Text
deriving DecidableEq

structure Claim where
  claimId : Text
  version : Int

section Read

variable {F : Type} (π : Platform F)

/-- `payload[key] === value`. -/
def isString (payload : List (Text × Value F)) (key : String) (value : Text) : Bool :=
  match field payload key with
  | some (.str actual) => actual == value
  | _ => false

/-- `payload[key] === number`. -/
def isNumber (payload : List (Text × Value F)) (key : String) (number : Int) : Bool :=
  match field payload key with
  | some (.num actual) => π.numberIs actual number
  | _ => false

/-- The parts of a payload that can ground a claim: its kind, direction and
body. -/
def grounding (claim : Claim) (payload : List (Text × Value F)) : Option (Text × Text × Text) :=
  if isString payload "bears_on_kind" (text "claim")
      && isString payload "bears_on_id" claim.claimId
      && isNumber π payload "bears_on_version" claim.version
      && isString payload "mode" (text "confirmatory")
      && (present (field payload "selected_hypothesis_id")).isNone
      && !isString payload "computed_class" (text "assertion")
      && !isString payload "computed_class" (text "heuristic") then
    match field payload "kind", field payload "direction", field payload "body_md" with
    | some (.str kind), some (.str direction), some (.str body) =>
        if trim body = [] then none else some (kind, direction, body)
    | _, _, _ => none
  else none

def availableRow (row : Row) : Option (Event × Text × Text × Text) :=
  match row.event, row.payloadJson with
  | some e, some body =>
      match e.fellowId, e.sponsorId with
      | some fellowId, some sponsorId =>
          if e.id ≠ [] ∧ fellowId ≠ [] ∧ sponsorId ≠ [] ∧ isSafeInteger e.seq ∧ 1 ≤ e.seq
              ∧ e.payloadSha256 = row.node.2 then
            some (e, body, fellowId, sponsorId)
          else none
      | _, _ => none
  | _, _ => none

def readPayload (claim : Claim) (row : Row) (e : Event) (body fellowId sponsorId : Text) :
    Except GroundingError (GroundedEvidence F) :=
  if π.sha256Hex body ≠ row.node.2 then .error .unavailable
  else
    match π.parseJson body with
    | some (.obj payload) =>
        match grounding π claim payload with
        | some (kind, direction, prose) =>
            .ok { eventId := e.id, payloadDigest := row.node.2, payloadJson := body
                  evidenceId := row.node.1, sequence := e.seq, fellowId, sponsorId, kind
                  direction, body := prose, payload }
        | none => .error .invalid
    | _ => .error .invalid

/-- The loop over the rows: the bytes so far and what was resolved. -/
def resolveRows (claim : Claim) :
    Nat → List (GroundedEvidence F) → List Row → Except GroundingError (List (GroundedEvidence F))
  | _, resolved, [] => .ok resolved
  | bytes, resolved, row :: rest =>
      match availableRow row with
      | none => .error .unavailable
      | some (e, body, fellowId, sponsorId) =>
          if byteLimit < bytes + byteLength body then .error .limit
          else
            match readPayload π claim row e body fellowId sponsorId with
            | .error error => .error error
            | .ok source =>
                if resolved.any (·.evidenceId == row.node.1) then .error .invalid
                else resolveRows claim (bytes + byteLength body) (resolved ++ [source]) rest

/-- `resolved.get(pin.evidence_id)`. -/
def resolvedGet (resolved : List (GroundedEvidence F)) (evidenceId : Text) :
    Option (GroundedEvidence F) := resolved.find? (·.evidenceId == evidenceId)

def resolvePin (resolved : List (GroundedEvidence F)) (pin : EvidenceReference) :
    Option (GroundedEvidence F) :=
  (resolvedGet resolved pin.evidenceId).filter fun source =>
    pin.digest == text "sha256:" ++ source.payloadDigest

/-- Every pin of a source was resolved and is earlier in the ledger. -/
def isDescending (resolved : List (GroundedEvidence F)) (source : GroundedEvidence F) : Bool :=
  (dependencies source.payload).any fun pins => pins.all fun pin =>
    (resolvePin resolved pin).any fun dependency => dependency.sequence < source.sequence

def GroundedEvidence.witness (source : GroundedEvidence F) : GroundingWitness where
  eventId := source.eventId
  payloadDigest := source.payloadDigest
  payloadJson := source.payloadJson

/-- `readEvidenceGrounding`: the roots and the witnesses. The statement may
fail. -/
def readEvidenceGrounding (db : Db) (success : Bool) (claim : Claim) (requested : Value F) :
    Except GroundingError (List (GroundedEvidence F) × List GroundingWitness) :=
  match references (some requested) with
  | none => .error .invalid
  | some roots =>
      if roots.isEmpty then .ok ([], [])
      else if !isSafeInteger claim.version || claim.version < 1 then .error .invalid
      else if !success then .error .unavailable
      else
        let rows := groundingRows π db roots
        if nodeLimit < rows.length then .error .limit
        else
          match resolveRows π claim 0 [] rows with
          | .error error => .error error
          | .ok resolved =>
              if !resolved.all (isDescending resolved) then .error .invalid
              else
                match roots.mapM (resolvePin resolved) with
                | none => .error .unavailable
                | some sources => .ok (sources, resolved.map (·.witness))

end Read

end Asimposium.EvidenceGrounding
