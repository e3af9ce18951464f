import Mathlib.Data.List.Sort
import Asimposium.Ledger.Dispositions
import Asimposium.Ledger.Payload

/-!
# Checks of scientific work

The assessments a fold makes of digest-checked, still public payloads:
the independence a review was recorded with, the conservative scan of a
formal artifact, and the verification of a review against the exact
claim version and evidence it names. Nothing here looks at the ledger;
resolving a reference to its row is the caller's business.
-/

namespace Asimposium

/-- The reader of public content, with the collation the fingerprint of a
check sorts its evidence by (`left.localeCompare(right) <= 0`). -/
structure ScientificReader extends PayloadReader where
  localeLe : String → String → Bool

/-- The digest of an event's payload as an evidence reference spells it. -/
def payloadDigestText (payloadDigest : String) : String := "sha256:" ++ payloadDigest

/-! ## Claims and evidence -/

structure ScientificClaim where
  eventId : String
  payloadDigest : String
  claimId : String
  version : Int
  contentDigest : String
  statement : String
  fellowId : String
  sponsorId : String
  provenance : Option ScientificProvenance
deriving DecidableEq

/-- `ScientificEvidence & { sequence: number }`. -/
structure ScientificEvidence where
  eventId : String
  payloadDigest : String
  evidenceId : String
  fellowId : String
  sponsorId : String
  kind : String
  direction : String
  body : String
  payload : Payload
  sequence : Int
deriving DecidableEq

/-- `direction === "refutes" || direction === "fails-to-reproduce"`. -/
def isRefutingDirection (direction : String) : Bool :=
  direction == "refutes" || direction == "fails-to-reproduce"

/-- `verdict === "refute" || verdict === "fails-to-reproduce"`. -/
def isRefutingVerdict (verdict : Option String) : Bool :=
  verdict == some "refute" || verdict == some "fails-to-reproduce"

/-- A withdrawal is not a resolution of an adverse finding. -/
def isNegativeReview (payload : Option Payload) : Bool :=
  match payload with
  | none => false
  | some payload =>
      isRefutingVerdict payload.verdict
        || (match payload.rubric with
          | some entries => entries.any fun value =>
              value == "statement-defect" || value == "statement-fails-review"
          | none => false)

/-! ## Independence -/

def scientificIndependencePolicy : String := "declared-family-and-grounded-method-v1"

def IndependenceTier.ofText : String → Option IndependenceTier
  | "T0" => some .T0
  | "T1" => some .T1
  | "T2" => some .T2
  | "T3" => some .T3
  | _ => none

/-- The tier a review was recorded with, and whether it had to be
reconstructed for a publication that predates the policy. -/
def recordedReviewIndependence (payload : Payload) (authorSponsorId reviewerSponsorId : String) :
    IndependenceTier × Bool :=
  match payload.independencePolicy == some scientificIndependencePolicy,
      payload.tier.bind IndependenceTier.ofText with
  | true, some tier => (tier, false)
  | _, _ => (if authorSponsorId = reviewerSponsorId then .T0 else .T1, true)

/-! ## Formal artifacts -/

/-- The conservative scan of a source and its axiom report; a passed scan
is the digest of the source. -/
def inspectFormalArtifact (reader : PayloadReader) (value : Option FormalArtifact) :
    Option String :=
  match value with
  | none => none
  | some artifact =>
      if (words artifact.source).any (["sorry", "sorryAx", "admit", "axiom"].contains ·)
          || (words artifact.axiomReport).any (["sorry", "sorryAx", "admit"].contains ·)
          || !includes artifact.source artifact.declaration
          || !includes artifact.axiomReport artifact.declaration then none
      else some (payloadDigestText (reader.sha256 artifact.source))

/-! ## Verifications -/

structure ScientificInputError where
  message : String
deriving Repr, DecidableEq

/-- `ScientificVerificationAssessment`, less the evidence it was made of. -/
structure ScientificVerificationAssessment where
  fullWriteUp : Bool
  certifiedArtifact : Bool
  refutationConfirmed : Option Bool
deriving Repr, DecidableEq

def assessScientificVerification (reader : PayloadReader) (claim : ScientificClaim)
    (evidence : ScientificEvidence) (verification : ScientificVerification)
    (reviewerFellowId reviewerSponsorId : String) :
    Except ScientificInputError ScientificVerificationAssessment :=
  if verification.targetDigest ≠ claim.contentDigest
      || verification.evidence.evidenceId ≠ evidence.evidenceId
      || verification.evidence.digest ≠ payloadDigestText evidence.payloadDigest then
    .error ⟨"The verification must match the exact published claim and evidence digests."⟩
  else if evidence.fellowId = reviewerFellowId || evidence.sponsorId = reviewerSponsorId then
    .error ⟨"Independent verification requires a different Fellow and sponsor from the evidence author."⟩
  else match verification.kind with
  | .refutation result =>
      if claim.fellowId = reviewerFellowId || claim.sponsorId = reviewerSponsorId then
        .error ⟨"Refutation verification requires a different Fellow and sponsor from the claim author."⟩
      else if !isRefutingDirection evidence.direction then
        .error ⟨"A refutation verification must identify published counterevidence for this exact claim version."⟩
      else .ok { fullWriteUp := false, certifiedArtifact := false
                 refutationConfirmed := some (result == .verified) }
  | .fullWriteUp result =>
      if evidence.direction ≠ "supports" && evidence.direction ≠ "reproduces" then
        .error ⟨"Strong-support verification must identify supporting evidence."⟩
      else if evidence.kind ≠ "argument" && evidence.kind ≠ "construction" then
        .error ⟨"A full-write-up review must identify the published argument or construction."⟩
      else .ok { fullWriteUp := result == .verified, certifiedArtifact := false
                 refutationConfirmed := none }
  | .formalArtifact artifactDigest compilationToolchain compilation comparedDeclaration
      comparedStatement comparison =>
      if evidence.direction ≠ "supports" && evidence.direction ≠ "reproduces" then
        .error ⟨"Strong-support verification must identify supporting evidence."⟩
      else match evidence.payload.formalArtifact with
      | none => .error ⟨"The formal verification must identify the exact source of a qualifying published artifact."⟩
      | some artifact =>
          if evidence.kind ≠ "certificate"
              || inspectFormalArtifact reader evidence.payload.formalArtifact
                ≠ some artifactDigest then
            .error ⟨"The formal verification must identify the exact source of a qualifying published artifact."⟩
          else if compilationToolchain ≠ artifact.toolchain
              || comparedDeclaration ≠ artifact.declaration
              || comparedStatement ≠ claim.statement then
            .error ⟨"The verification must record the published toolchain, declaration and exact claim statement."⟩
          else .ok { fullWriteUp := false
                     certifiedArtifact := compilation == .success && comparison == .equivalent
                     refutationConfirmed := none }

/-! ## Digests -/

/-- The digest of one exact version: its falsifier, kind and statement. -/
def claimContentDigest (reader : PayloadReader) (kind statement : String)
    (falsifier : Option String) : String :=
  payloadDigestText (reader.sha256
    ("\x7b\"falsifier\":" ++ (match falsifier with | some text => quoteJson text | none => "null")
      ++ ",\"kind\":" ++ quoteJson kind ++ ",\"statement\":" ++ quoteJson statement ++ "\x7d"))

def CheckResult.text : CheckResult → String
  | survived => "survived"
  | fired => "fired"

/-- `JSON.stringify` of a check with its evidence sorted by id. -/
def GroundedFalsificationCheck.canonicalText (localeLe : String → String → Bool)
    (check : GroundedFalsificationCheck) : String :=
  let evidence := check.evidence.insertionSort fun left right =>
    localeLe left.evidenceId right.evidenceId
  "\x7b\"target_digest\":" ++ quoteJson check.targetDigest
    ++ ",\"attempted_falsifier\":" ++ quoteJson check.attemptedFalsifier
    ++ ",\"capable_of_failure\":" ++ quoteJson check.capableOfFailure
    ++ ",\"result\":" ++ quoteJson check.result.text
    ++ ",\"evidence\":[" ++ String.intercalate "," (evidence.map fun reference =>
        "\x7b\"evidence_id\":" ++ quoteJson reference.evidenceId ++ ",\"digest\":"
          ++ quoteJson reference.digest ++ "\x7d")
    ++ "]\x7d"

/-- The fingerprint two attempts share when they made the same check. -/
def ScientificReader.checkFingerprint (reader : ScientificReader)
    (check : GroundedFalsificationCheck) : String :=
  reader.sha256 (check.canonicalText reader.localeLe)

end Asimposium
