import Asimposium.Codec.Utf8
import Asimposium.Retention.Journal

/-!
# The deletion journal as a text

`Retention.Journal` carries the lines of a journal as values. Here they are
text: a journal is serialized with `JSON.stringify`, split into lines and read
with `JSON.parse`, a record's digest is taken over its canonical JSON, and the
signature is over the bytes of a message.
-/

namespace Asimposium.JournalText

open Codec (Value Number FloatFormat stringify canonicalJson parseJson)
open Retention (RetentionControlAction RetentionTargetType)

/-! ## Records -/

def actionName : RetentionControlAction → String
  | .suspendSponsor => "suspend-sponsor"
  | .deletePrivateDraft => "delete-private-draft"
  | .revokeCredential => "revoke-credential"
  | .cancelEnrollment => "cancel-enrollment"
  | .cancelTransfer => "cancel-transfer"
  | .deleteAccountPrivateData => "delete-account-private-data"
  | .unbindPrivateCas => "unbind-private-cas"

def allActions : List RetentionControlAction :=
  [.suspendSponsor, .deletePrivateDraft, .revokeCredential, .cancelEnrollment, .cancelTransfer,
    .deleteAccountPrivateData, .unbindPrivateCas]

def targetTypeName : RetentionTargetType → String
  | .sponsor => "sponsor"
  | .problem => "problem"
  | .credential => "credential"
  | .enrollment => "enrollment"
  | .transfer => "transfer"
  | .userPrivateData => "user_private_data"
  | .casArtifact => "cas_artifact"

def allTargetTypes : List RetentionTargetType :=
  [.sponsor, .problem, .credential, .enrollment, .transfer, .userPrivateData, .casArtifact]

structure RetentionControl (F : Type) where
  controlId : Text
  action : RetentionControlAction
  targetId : Text
  targetType : RetentionTargetType
  issuedAt : Text
  payload : Value F

structure RetentionControlRecord (F : Type) extends RetentionControl F where
  controlDigest : Text

structure CheckpointSigningKey where
  kid : Text
  privateKey : Text

structure CheckpointVerifyKey where
  kid : Text
  publicKeyHex : Text

structure Platform (F : Type) where
  format : FloatFormat F
  /-- The length of a list as a number. -/
  count : Nat → Number F
  /-- The hexadecimal digest of bytes. -/
  sha256 : List Nat → Text
  /-- The hexadecimal Ed25519 signature of bytes under a private key. -/
  sign : Text → List Nat → Text
  /-- `importKey` and `subtle.verify`; `false` where either throws. -/
  verify : Text → List Nat → Text → Bool
  /-- `!Number.isNaN(Date.parse(text))`. -/
  parsesDate : Text → Bool

variable {F : Type} (π : Platform F)

def sha256Hex (t : Text) : Text := π.sha256 t.utf8

def RetentionControl.canonical (control : RetentionControl F) : Value F :=
  .obj [(text "action", .str (text (actionName control.action))),
    (text "control_id", .str control.controlId), (text "issued_at", .str control.issuedAt),
    (text "payload", control.payload), (text "target_id", .str control.targetId),
    (text "target_type", .str (text (targetTypeName control.targetType)))]

def computeRetentionControlDigest (control : RetentionControl F) : Except Text Text :=
  ((canonicalJson π.format control.canonical).mapError text).map (sha256Hex π)

structure ControlInput (F : Type) where
  action : RetentionControlAction
  targetId : Text
  targetType : RetentionTargetType
  payload : Option { members : List (Text × Value F) // (Value.obj members).IsJson }
  issuedAt : Option Text

/-- `uuid` and `now` are what the source draws. -/
def createRetentionControlRecord (uuid now : Text) (input : ControlInput F) :
    Except Text (RetentionControlRecord F) :=
  let control : RetentionControl F :=
    { controlId := text "RC-" ++ uuid
      action := input.action
      targetId := input.targetId
      targetType := input.targetType
      issuedAt := input.issuedAt.getD now
      payload := .obj ((input.payload.map (·.1)).getD []) }
  (computeRetentionControlDigest π control).map fun controlDigest => { control with controlDigest }

/-! ### Verification -/

/-- `/^[a-f0-9]{n}$/`. -/
def isHexText (n : Nat) (t : Text) : Bool :=
  t.length == n && t.all fun u => Text.isDigit u || (unit 'a' ≤ u && u ≤ unit 'f')

def stringMember (members : List (Text × Value F)) (key : String) : Option Text :=
  match members.lookup (text key) with
  | some (.str t) => some t
  | _ => none

/-- A member for which `typeof` is `"object"`, and which is not null. -/
def objectMember (members : List (Text × Value F)) (key : String) : Option (Value F) :=
  match members.lookup (text key) with
  | some (.obj ms) => some (.obj ms)
  | some (.arr vs) => some (.arr vs)
  | _ => none

def demand {α : Type} (reason : String) : Option α → Except Text α
  | none => .error (text reason)
  | some a => .ok a

def readControl (members : List (Text × Value F)) : Except Text (RetentionControlRecord F) := do
  let controlId ← demand "invalid controlId"
    ((stringMember members "controlId").filter (Text.startsWith · (text "RC-")))
  let action ← demand "invalid action"
    ((stringMember members "action").bind fun t =>
      allActions.find? fun action => text (actionName action) == t)
  let targetId ← demand "invalid targetId"
    ((stringMember members "targetId").filter fun t => !(Text.trim t).isEmpty)
  let targetType ← demand "invalid targetType"
    ((stringMember members "targetType").bind fun t =>
      allTargetTypes.find? fun targetType => text (targetTypeName targetType) == t)
  let issuedAt ← demand "invalid issuedAt timestamp"
    ((stringMember members "issuedAt").filter π.parsesDate)
  let payload ← demand "invalid payload" (objectMember members "payload")
  let controlDigest ← demand "invalid controlDigest hex"
    ((stringMember members "controlDigest").filter (isHexText 64))
  .ok { controlId, action, targetId, targetType, issuedAt, payload, controlDigest }

def verifyRetentionControlRecord (record : Value F) : Except Text (RetentionControlRecord F) :=
  let verifyMembers := fun members => do
    let record ← readControl π members
    let recomputed ← computeRetentionControlDigest π record.toRetentionControl
    if recomputed ≠ record.controlDigest then
      .error (text "controlDigest mismatch — record is tampered")
    else .ok record
  match record with
  | .obj members => verifyMembers members
  | .arr _ => verifyMembers []
  | _ => .error (text "retention control record must be an object")

/-! ## Serialization -/

def journalFormat : String := "asimposium.deletion-journal.v1"

def headerControl : String := "deletion_journal_header"

def trailerControl : String := "deletion_journal_end"

def deletionJournalSignatureMessage (recordCount : Nat) (finalDigest generatedAt : Text) : Text :=
  [unit '\n'].intercalate
    [text journalFormat, Text.decimal recordCount, finalDigest, generatedAt]

def genesisDigest : Text := sha256Hex π (text "genesis-deletion-journal")

def chainDigest (digest : Text) (record : RetentionControlRecord F) : Text :=
  sha256Hex π (digest ++ unit ':' :: record.controlDigest)

def finalDigest (records : List (RetentionControlRecord F)) : Text :=
  records.foldl (chainDigest π) (genesisDigest π)

def headerValue (recordCount : Nat) (generatedAt : Text) : Value F :=
  .obj [(text "control", .str (text headerControl)), (text "format", .str (text journalFormat)),
    (text "generated_at", .str generatedAt), (text "record_count", .num (π.count recordCount))]

def RetentionControlRecord.value (record : RetentionControlRecord F) : Value F :=
  .obj [(text "controlId", .str record.controlId),
    (text "action", .str (text (actionName record.action))),
    (text "targetId", .str record.targetId),
    (text "targetType", .str (text (targetTypeName record.targetType))),
    (text "issuedAt", .str record.issuedAt), (text "payload", record.payload),
    (text "controlDigest", .str record.controlDigest)]

/-- With the label of the key and the signature, if there is a key. -/
def trailerValue (recordCount : Nat) (digest : Text) (signature : Option (Text × Text)) : Value F :=
  .obj ([(text "control", .str (text trailerControl)),
    (text "record_count", .num (π.count recordCount)), (text "final_digest", .str digest)]
      ++ signature.elim [] fun (keyId, signature) =>
        [(text "key_id", .str keyId), (text "signature", .str signature)])

def journalSignature (records : List (RetentionControlRecord F)) (generatedAt : Text)
    (key : CheckpointSigningKey) : Text :=
  π.sign key.privateKey
    (deletionJournalSignatureMessage records.length (finalDigest π records) generatedAt).utf8

def journalLines (records : List (RetentionControlRecord F)) (generatedAt : Text)
    (signingKey : Option CheckpointSigningKey) : List Text :=
  stringify π.format (headerValue π records.length generatedAt)
    :: (records.map (fun record => stringify π.format record.value)
      ++ [stringify π.format (trailerValue π records.length (finalDigest π records)
        (signingKey.map fun key => (key.kid, journalSignature π records generatedAt key)))])

def serializeDeletionJournal (records : List (RetentionControlRecord F)) (generatedAt : Text)
    (signingKey : Option CheckpointSigningKey) : Text :=
  [unit '\n'].intercalate (journalLines π records generatedAt signingKey) ++ [unit '\n']

/-! ## Reading a journal -/

def splitJournal (ndjson : Text) : Except Text (List Text) :=
  if ndjson.isEmpty then .error (text "empty deletion journal")
  else if ndjson.contains (unit '\r') then .error (text "journal must use LF line endings")
  else if ndjson.getLast? ≠ some (unit '\n') then .error (text "journal must end with one LF")
  else
    let rawLines := ndjson.dropLast.splitOn (unit '\n')
    if rawLines.length < 2 then .error (text "journal missing header or trailer")
    else .ok rawLines

/-- The members that are read of a value; of null, a `TypeError` is thrown. -/
def membersOf : Value F → Except Text (List (Text × Value F))
  | .null => .error (text "TypeError")
  | .obj members => .ok members
  | _ => .ok []

section Reading

variable [DecidableEq F]

def isCount (members : List (Text × Value F)) (key : String) (n : Nat) : Bool :=
  match members.lookup (text key) with
  | some (.num x) => x.unsigned = (π.count n).unsigned
  | _ => false

def isLabel (members : List (Text × Value F)) (key label : String) : Bool :=
  stringMember members key == some (text label)

/-- The time the header names, if header and trailer frame so many lines. -/
def readFrame (header trailer : Value F) (lines : Nat) :
    Except Text (Text × List (Text × Value F)) := do
  let header ← membersOf header
  if !isLabel header "control" headerControl || !isLabel header "format" journalFormat then
    .error (text "invalid deletion journal header")
  else
    let generatedAt ← demand "invalid deletion journal header" (stringMember header "generated_at")
    let trailer ← membersOf trailer
    if !isLabel trailer "control" trailerControl then
      .error (text "invalid deletion journal trailer")
    else if !isCount π trailer "record_count" lines || !isCount π header "record_count" lines then
      .error (text "header/trailer record count disagrees with line count ("
        ++ Text.decimal lines ++ text ")")
    else .ok (generatedAt, trailer)

end Reading

/-- One record line; `number` counts the records from one. -/
def readRecordLine (number : Nat) (line : Text) : Except Text (RetentionControlRecord F) :=
  if (Text.trim line).isEmpty then
    .error (text "journal line " ++ Text.decimal (number + 1) ++ text " is blank")
  else match parseJson π.format line with
    | none => .error (text "journal line " ++ Text.decimal (number + 1) ++ text " is not valid JSON")
    | some value => (verifyRetentionControlRecord π value).mapError fun reason =>
        text "journal record " ++ Text.decimal number ++ text " invalid: " ++ reason

def readRecordLines : Nat → List Text → Except Text (List (RetentionControlRecord F))
  | _, [] => .ok []
  | number, line :: rest => do
      let record ← readRecordLine π number line
      (readRecordLines (number + 1) rest).map (record :: ·)

/-- The signature of the trailer under the first key of its label. -/
def verifySignature (trailer : List (Text × Value F)) (verifyKeys : List CheckpointVerifyKey)
    (message : Text) : Except Text Text :=
  match stringMember trailer "key_id", stringMember trailer "signature" with
  | some keyId, some signature =>
      if !isHexText 128 signature then .error (text "journal signature is malformed")
      else match verifyKeys.find? (·.kid == keyId) with
        | none => .error (text "journal key '" ++ keyId ++ text "' is not a configured verify key")
        | some verifyKey =>
            if π.verify verifyKey.publicKeyHex message.utf8 signature then .ok keyId
            else .error (text "journal signature does not verify")
  | _, _ => .error (text "journal is unsigned")

def parseAndVerifyDeletionJournal [DecidableEq F] (ndjson : Text)
    (verifyKeys : List CheckpointVerifyKey) :
    Except Text (List (RetentionControlRecord F) × Text × Text) := do
  let rawLines ← splitJournal ndjson
  match parseJson π.format (rawLines.headD []), parseJson π.format (rawLines.getLastD []) with
  | some header, some trailer =>
      let recordLines := rawLines.tail.dropLast
      let (generatedAt, trailer) ← readFrame π header trailer recordLines.length
      let records ← readRecordLines π 1 recordLines
      let digest := finalDigest π records
      if stringMember trailer "final_digest" ≠ some digest then
        .error (text "journal trailer final_digest chain mismatch")
      else
        let keyId ← verifySignature π trailer verifyKeys
          (deletionJournalSignatureMessage recordLines.length digest generatedAt)
        .ok (records, generatedAt, keyId)
  | _, _ => .error (text "journal header or trailer is not valid JSON")

end Asimposium.JournalText
