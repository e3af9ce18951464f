import Asimposium.Krater.Export

/-!
# Signed checkpoints of an export

A bundle carries, for each key, its signature over the latest checkpoint.
`verifyExportCheckpointBundle` checks every signature against the checkpoints
and the events of an export whose chain was recomputed before, and counts as
trusted only what a key signed that was pinned by the caller.

Ed25519 and the pattern of instants are parameters.
-/

namespace Asimposium.Krater

/-! ## Bundles -/

structure BundleKey where
  keyId : String
  algorithm : String
  publicKey : String
deriving Repr, DecidableEq

structure CheckpointSignature where
  checkpointSeq : Int
  rootChainDigest : String
  checkpointDigest : String
  keyId : String
  algorithm : String
  signature : String
  signedAt : String
deriving Repr, DecidableEq

structure ExportCheckpointBundle where
  format : String
  problemId : String
  through : Int
  messageFormat : String
  selection : String
  signedMaterial : String
  keyTrust : String
  keys : List BundleKey
  signatures : List CheckpointSignature
deriving Repr, DecidableEq

def checkpointSignatureMessageFormat : String := "asimposium.checkpoint.v1"

def codeUnits (s : String) : List Nat :=
  s.toList.flatMap fun c =>
    if c.toNat < 0x10000 then [c.toNat]
    else [0xd800 + (c.toNat - 0x10000) / 0x400, 0xdc00 + (c.toNat - 0x10000) % 0x400]

/-- `previous.key_id >= key.key_id` is refused: the order of code units. -/
def keyIdBefore (a b : String) : Bool := decide (codeUnits a < codeUnits b)

def adjacent {α : Type} (holds : α → α → Bool) (l : List α) : Bool :=
  (l.zip l.tail).all fun pair => holds pair.1 pair.2

/-- `z.string().min(1).max(64)`. -/
def isKeyLabel (keyId : String) : Bool := 1 ≤ utf16Length keyId && utf16Length keyId ≤ 64

/-- `^[0-9a-f]{128}$`. -/
def isSignatureHex (signature : String) : Bool :=
  signature.toList.length == 128
    && signature.toList.all fun c => c.isDigit || ('a' ≤ c && c ≤ 'f')

def BundleKey.isValid (key : BundleKey) : Bool :=
  isKeyLabel key.keyId && key.algorithm == "Ed25519" && isSha256Hex key.publicKey

section Schema

variable (isDatetime : String → Bool)

def CheckpointSignature.isValid (signature : CheckpointSignature) : Bool :=
  isPositiveInteger signature.checkpointSeq && isSha256Hex signature.rootChainDigest
    && isSha256Hex signature.checkpointDigest && isKeyLabel signature.keyId
    && signature.algorithm == "Ed25519" && isSignatureHex signature.signature
    && isDatetime signature.signedAt

def signatureBefore (a b : CheckpointSignature) : Bool :=
  a.checkpointSeq < b.checkpointSeq
    || (a.checkpointSeq == b.checkpointSeq && keyIdBefore a.keyId b.keyId)

/-- `ExportCheckpointBundleSchema.safeParse(bundle).success`. -/
def ExportCheckpointBundle.isValid (bundle : ExportCheckpointBundle) : Bool :=
  bundle.format == "asimposium.export-checkpoints.v1" && isProblemId bundle.problemId
    && isNonNegativeInteger bundle.through
    && bundle.messageFormat == checkpointSignatureMessageFormat
    && bundle.selection == "latest-per-configured-key"
    && bundle.signedMaterial == "original-event-chain-only"
    && bundle.keyTrust == "independently-pinned-keys-required"
    && bundle.keys.length ≤ 16 && bundle.keys.all BundleKey.isValid
    && bundle.signatures.length ≤ 16 && bundle.signatures.all (·.isValid isDatetime)
    && decide (bundle.keys.map (·.keyId)).Nodup
    && decide (bundle.signatures.map (·.keyId)).Nodup
    && adjacent (fun a b => keyIdBefore a.keyId b.keyId) bundle.keys
    && bundle.signatures.all (fun signature =>
      signature.checkpointSeq ≤ bundle.through
        && bundle.keys.any (·.keyId == signature.keyId))
    && adjacent signatureBefore bundle.signatures

end Schema

/-! ## Verification -/

structure CheckpointStatement where
  problemId : String
  checkpointSeq : Int
  rootChainDigest : String
  checkpointDigest : String
deriving Repr, DecidableEq

def checkpointSignatureMessage (input : CheckpointStatement) : String :=
  "\n".intercalate [checkpointSignatureMessageFormat, input.problemId,
    toString input.checkpointSeq, input.rootChainDigest, input.checkpointDigest]

def CheckpointSignature.statement (signature : CheckpointSignature) (problemId : String) :
    CheckpointStatement :=
  { problemId
    checkpointSeq := signature.checkpointSeq
    rootChainDigest := signature.rootChainDigest
    checkpointDigest := signature.checkpointDigest }

structure ExportTrustedKey where
  keyId : String
  publicKey : String
deriving Repr, DecidableEq

inductive SignatureCoverage where
  | none
  | prefixOnly
  | complete
deriving Repr, DecidableEq

structure ExportSignatureAssurance where
  /-- `none` where no signature was available. -/
  checkpointSignaturesValid : Option Bool
  checkpointSignatureCount : Nat
  signedThrough : Int
  trustedThrough : Int
  signatureCoverage : SignatureCoverage
  authenticated : Bool
deriving Repr, DecidableEq

/-- `^[A-Za-z0-9._-]{1,64}$`. -/
def isPinnedKeyId (keyId : String) : Bool :=
  1 ≤ keyId.toList.length && keyId.toList.length ≤ 64
    && keyId.toList.all fun c => c.isAlphanum || c == '.' || c == '_' || c == '-'

/-- The pins as a map: a label may come again with the same key. -/
def pinKey (trusted : List (String × String)) (key : ExportTrustedKey) :
    Except String (List (String × String)) :=
  if !isPinnedKeyId key.keyId || !isSha256Hex key.publicKey
      || (trusted.lookup key.keyId).any (· != key.publicKey) then
    .error "independently pinned verification keys are invalid or ambiguous"
  else .ok ((key.keyId, key.publicKey) :: trusted)

/-- What a map built from a list has for a key: the last entry. -/
def latest {α : Type} (holds : α → Bool) (l : List α) : Option α := l.reverse.find? holds

structure Reach where
  signedThrough : Int
  trustedThrough : Int
deriving Repr, DecidableEq

structure BundleInput where
  bundle : ExportCheckpointBundle
  problemId : String
  through : Nat
  events : List ParsedEvent
  checkpoints : List CheckpointRow
  trustedKeys : List ExportTrustedKey

section Verification

variable (isDatetime : String → Bool) (sha256Hex : String → String)
  (verify : String → String → String → Bool)

/-- Under a public key in hex; `verify` is `importKey` and `subtle.verify`. -/
def verifyCheckpointSignature (problemId : String) (signature : CheckpointSignature)
    (publicKeyHex : String) : Bool :=
  isSha256Hex publicKeyHex && isSignatureHex signature.signature
    && verify publicKeyHex (checkpointSignatureMessage (signature.statement problemId))
      signature.signature

/-- The checkpoint and the event a signature names are exported with its
digests. -/
def isAttached (input : BundleInput) (signature : CheckpointSignature) : Bool :=
  (latest (fun c => (c.checkpointSeq : Int) == signature.checkpointSeq) input.checkpoints).any
      (fun checkpoint => checkpoint.rootChainDigest == signature.rootChainDigest
        && checkpoint.checkpointDigest == signature.checkpointDigest)
    && (latest (fun e => (e.seq : Int) == signature.checkpointSeq) input.events).any
      (·.chainDigest == signature.rootChainDigest)
    && signature.checkpointDigest == sha256Hex (checkpointPreimage input.problemId
        signature.checkpointSeq.toNat signature.rootChainDigest)

def verifySignature (input : BundleInput) (trusted : List (String × String)) (reach : Reach)
    (signature : CheckpointSignature) : Except String Reach :=
  match latest (·.keyId == signature.keyId) input.bundle.keys with
  | none => .error "checkpoint signature is detached from its exported checkpoint or event"
  | some key =>
      if !isAttached sha256Hex input signature then
        .error "checkpoint signature is detached from its exported checkpoint or event"
      else if !verifyCheckpointSignature verify input.problemId signature key.publicKey then
        .error "checkpoint signature does not verify under its embedded public key"
      else .ok {
        signedThrough := max reach.signedThrough signature.checkpointSeq
        trustedThrough :=
          if trusted.lookup signature.keyId = some key.publicKey then
            max reach.trustedThrough signature.checkpointSeq
          else reach.trustedThrough }

def assuranceOf (input : BundleInput) (reach : Reach) : ExportSignatureAssurance where
  checkpointSignaturesValid := if input.bundle.signatures.isEmpty then none else some true
  checkpointSignatureCount := input.bundle.signatures.length
  signedThrough := reach.signedThrough
  trustedThrough := reach.trustedThrough
  signatureCoverage :=
    if reach.signedThrough = 0 then .none
    else if reach.signedThrough = input.through then .complete else .prefixOnly
  authenticated := 0 < input.through && reach.trustedThrough == (input.through : Int)

def verifyExportCheckpointBundle (input : BundleInput) :
    Except String ExportSignatureAssurance :=
  if !input.bundle.isValid isDatetime || input.bundle.problemId != input.problemId
      || input.bundle.through != (input.through : Int) then
    .error "checkpoint signatures name a different or invalid exported cut"
  else do
    let trusted ← input.trustedKeys.foldlM pinKey []
    let reach ← input.bundle.signatures.foldlM (verifySignature sha256Hex verify input trusted)
      { signedThrough := 0, trustedThrough := 0 }
    return assuranceOf input reach

end Verification

end Asimposium.Krater
