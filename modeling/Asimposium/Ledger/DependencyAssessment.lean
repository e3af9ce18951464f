import Asimposium.Ledger.DependencyCeiling
import Asimposium.Ledger.DependencyClosure
import Asimposium.Ledger.ScientificDisposition

/-!
# The assessment of recorded premises

`composeDependencyAssessment` gives every verified publication of a
dependency closure a standing of its own and then its chain: the ceiling
of `computeDependencyCeilings` over the recorded pins. A standing is the
public fold over the rows of that claim up to the pinned version; a row
that does not match the snapshot, a stale fold or another current
version leaves the premise unavailable.

The SQL that selects the rows is not modelled: the rows are its result.
Of a JSON text, the reader does not tell "no JSON" from "no object".
-/

namespace Asimposium

def dependencyScienceRowLimit : Nat := 1024
def dependencyScienceItemBytes : Nat := 65536
def dependencyScienceTotalBytes : Nat := 262144

structure DependencyScientificRow extends ScientificRow where
  problemId : String
  latestVersion : Int
  /-- `scan_complete === 1`. -/
  scanComplete : Bool
deriving DecidableEq

structure PremiseAssessment where
  problem : String
  target : String
  through : Int
  standing : PremiseStanding
  chain : DependencyCeiling
deriving Repr, DecidableEq

/-- What an assessment can throw: only a `ScientificInputError` is caught. -/
inductive AssessmentError where
  | input (error : ScientificInputError)
  | type (error : TypeError)
deriving Repr, DecidableEq

/-- `unavailable()`. -/
def unavailableStanding : PremiseStanding where
  complete := false
  disposition := none
  reviewState := none
  stale := true
  latestVersion := none
  ownCeiling := none

structure PremiseNode where
  target : String
  row : DependencyClosureRow
  pins : Option (List ClaimDependencyPin)
deriving DecidableEq

def checkedScientificPayload (reader : PayloadReader) (payloadSha256 payloadJson : String) :
    Except ScientificInputError Payload :=
  if reader.sha256 payloadJson ≠ payloadSha256 then
    .error ⟨"The referenced public content no longer matches its ledger digest."⟩
  else match reader.parse payloadJson with
  | none => .error ⟨"The referenced public content is unavailable."⟩
  | some payload => .ok payload

/-! ## Reading the rows of a premise -/

/-- The payload of a row names the claim and the version of its envelope. -/
def checkSource (claimId : String) (row : DependencyScientificRow) (payload : Payload) :
    Except ScientificInputError Unit :=
  match row.type with
  | .claimCreated | .claimRevised =>
      if payload.claimId ≠ some claimId || payload.statement.isNone
          || (1 < row.objectVersion && payload.baseVersion ≠ some (row.objectVersion - 1)) then
        .error ⟨"Claim input does not match its version."⟩
      else .ok ()
  | .reviewCreated =>
      if payload.targetClaimId ≠ some claimId
          || payload.targetVersion ≠ some row.targetVersion then
        .error ⟨"Review input does not match its version."⟩
      else .ok ()
  | .evidenceCreated =>
      if payload.bearsOnKind ≠ some "claim" || payload.bearsOnId ≠ some claimId
          || payload.bearsOnVersion ≠ some row.targetVersion
          || payload.direction.isNone || payload.direction ≠ row.direction then
        .error ⟨"Evidence input does not match its version."⟩
      else .ok ()
  | _ => .ok ()

/-- The loop variables `previous`, `bytes` and `contents`. -/
structure SourceScan where
  previous : Int := 0
  bytes : Nat := 0
  contents : List (String × Payload) := []

def SourceScan.readSource (reader : PayloadReader) (problem : String) (cursor : Int)
    (claimId : String) (scan : SourceScan) (row : DependencyScientificRow) :
    Except ScientificInputError SourceScan :=
  match row.payloadJson with
  | none => .error ⟨"Scientific input does not match the snapshot."⟩
  | some json =>
      if row.problemId ≠ problem || !isSafeInteger row.seq || row.seq ≤ scan.previous
          || cursor < row.seq || scan.contents.any (·.1 == row.eventId) then
        .error ⟨"Scientific input does not match the snapshot."⟩
      else
        let size := json.utf8ByteSize
        let bytes := scan.bytes + size
        if dependencyScienceItemBytes < size || dependencyScienceTotalBytes < bytes then
          .error ⟨"Scientific input exceeds the read budget."⟩
        else do
          let payload ← checkedScientificPayload reader row.payloadSha256 json
          checkSource claimId row payload
          .ok { previous := row.seq, bytes, contents := scan.contents ++ [(row.eventId, payload)] }

/-- `contents.get(eventId)`. -/
def SourceScan.contentOf (scan : SourceScan) (eventId : String) : Option Payload :=
  scan.contents.lookup eventId

/-- The row as the fold reads it: content bytes, not a mutable projection,
carry the statement. -/
def SourceScan.timelineRow (scan : SourceScan) (row : DependencyScientificRow) : ScientificRow :=
  { row.toScientificRow with statement := (scan.contentOf row.eventId).bind (·.statement) }

/-! ## The own ceiling -/

def EvidenceClass.ofText : String → Option EvidenceClass
  | "assertion" => some .assertion
  | "heuristic" => some .heuristic
  | "citation" => some .citation
  | "computation" => some .computation
  | "certified" => some .certified
  | _ => none

structure PremiseInput where
  rows : List DependencyScientificRow
  contents : String → Option Payload
  publication : DependencyScientificRow
  /-- The evidence on the exact version that still stands. -/
  evidence : List DependencyScientificRow

def PremiseInput.claim (input : PremiseInput) (row : DependencyClosureRow) : ScientificClaim :=
  let payload := input.contents input.publication.eventId
  { eventId := input.publication.eventId
    payloadDigest := input.publication.payloadSha256
    claimId := row.claimId
    version := row.version
    contentDigest := row.contentDigest.getD ""
    statement := (payload.bind (·.statement)).getD "undefined"
    fellowId := input.publication.fellowId
    sponsorId := input.publication.sponsorId
    provenance := payload.bind (·.scientificProvenance.toOption) }

def materialOf (row : DependencyScientificRow) (body : Payload) : ScientificEvidence where
  eventId := row.eventId
  payloadDigest := row.payloadSha256
  evidenceId := row.objectId
  fellowId := row.fellowId
  sponsorId := row.sponsorId
  kind := body.kindText
  direction := body.direction.getD "undefined"
  body := body.bodyMd.getD "undefined"
  payload := body
  sequence := row.seq

/-- One iteration of the loop over the supporting reviews: the artifact the
review certifies. -/
def PremiseInput.certifiedBy (input : PremiseInput) (reader : PayloadReader)
    (row : DependencyClosureRow) (support : VerifiedReview) :
    Except ScientificInputError (Option String) :=
  if support.finding ≠ .support || support.tier == .T0 then .ok none
  else match input.rows.find? fun source =>
      source.type == .reviewCreated && source.objectId == support.reviewId with
  | none => .ok none
  | some review =>
      match (input.contents review.eventId).bind (·.verification.toOption) with
      | none => .ok none
      | some verification =>
          match input.evidence.find? fun source =>
              source.objectId == verification.evidence.evidenceId
                && payloadDigestText source.payloadSha256 == verification.evidence.digest
                && source.seq < review.seq with
          | none => .ok none
          | some material =>
              match input.contents material.eventId with
              | none => .ok none
              | some body =>
                  (assessScientificVerification reader (input.claim row) (materialOf material body)
                    verification review.fellowId review.sponsorId).map fun assessment =>
                      if assessment.certifiedArtifact then some material.objectId else none

/-- `certified`. -/
def PremiseInput.certified (input : PremiseInput) (reader : PayloadReader)
    (row : DependencyClosureRow) (context : ClaimTransitionContext) :
    Except ScientificInputError (List String) :=
  if context.hasCertifiedArtifact then
    (context.verifiedReviews.mapM (input.certifiedBy reader row)).map (·.filterMap id)
  else .ok []

/-- The grade one piece of evidence gives, if any. A recorded
certificate-shaped label alone never establishes certification. -/
def gradeOf (certified : List String) (row : DependencyScientificRow) (payload : Payload) :
    Except ScientificInputError (Option EvidenceClass) :=
  if payload.mode ≠ some "confirmatory" || payload.selectedHypothesis
      || (!certified.contains row.objectId && payload.direction ≠ some "supports"
        && payload.direction ≠ some "reproduces" && payload.direction ≠ some "bounds") then
    .ok none
  else match payload.computedClass.bind EvidenceClass.ofText with
  | none => .error ⟨"Evidence class is unavailable."⟩
  | some recorded =>
      .ok (some (if certified.contains row.objectId then .certified
        else if recorded = .certified then .computation else recorded))

def weakerClass (a b : EvidenceClass) : EvidenceClass := if a.rank ≤ b.rank then a else b

/-- `own`: the weakest grade, an assertion where there is none. -/
def weakestClass : List EvidenceClass → EvidenceClass
  | [] => .assertion
  | grade :: grades => grades.foldl weakerClass grade

def PremiseInput.ownCeiling (input : PremiseInput) (reader : PayloadReader)
    (row : DependencyClosureRow) (context : ClaimTransitionContext) :
    Except ScientificInputError EvidenceClass := do
  let certified ← input.certified reader row context
  let grades ← input.evidence.mapM fun source =>
    match input.contents source.eventId with
    | none => .ok none
    | some payload => gradeOf certified source payload
  .ok (weakestClass (grades.filterMap id))

/-! ## The standing of a premise -/

/-- `reviewStateFromRecordedReviews`: every recorded review is completed,
and no request is on the public ledger. -/
def reviewStateFromRecordedReviews (reviews : List RecordedReviewFacet) : ReviewStateFacet :=
  let support := fun review : RecordedReviewFacet =>
    review.verdict == "confirm" || review.verdict == "reproduces"
  let dispute := fun review : RecordedReviewFacet => isRefutingVerdict (some review.verdict)
  if reviews.any dispute then .contested
  else if reviews.any fun review =>
      (support review || dispute review) && review.carriesWeight && tierAtLeast review.tier .T1 then
    .independentlyChecked
  else .unreviewed

def premiseRows (sources : List DependencyScientificRow) (row : DependencyClosureRow) :
    List DependencyScientificRow :=
  sources.filter fun source => source.claimId == row.claimId && source.targetVersion ≤ row.version

/-- The scan of the rows and the publication the node is pinned to. -/
def readPremise (reader : PayloadReader) (problem : String) (cursor : Int)
    (sources : List DependencyScientificRow) (row : DependencyClosureRow) :
    Except ScientificInputError (SourceScan × DependencyScientificRow) :=
  let rows := premiseRows sources row
  if dependencyScienceRowLimit < sources.length || rows.isEmpty
      || sources.any (!·.scanComplete) then
    .error ⟨"The scientific timeline is incomplete."⟩
  else do
    let scan ← rows.foldlM (SourceScan.readSource reader problem cursor row.claimId) {}
    match rows.find? (·.eventId == row.eventId) with
    | none => .error ⟨"Scientific input does not match the publication pin."⟩
    | some publication =>
        if publication.payloadSha256 ≠ row.payloadSha256
            || publication.contentDigest ≠ row.contentDigest
            || rows.any (·.latestVersion != publication.latestVersion) then
          .error ⟨"Scientific input does not match the publication pin."⟩
        else .ok (scan, publication)

def standingOf (reader : PayloadReader) (rows : List DependencyScientificRow)
    (row : DependencyClosureRow) (scan : SourceScan) (publication : DependencyScientificRow)
    (folded : ScientificDisposition) : Except ScientificInputError PremiseStanding :=
  if folded.stale || folded.fold.currentVersion ≠ some row.version then
    .error ⟨"Scientific standing is incomplete or stale."⟩
  else do
    let timeline := rows.map scan.timelineRow
    let evidence := rows.filter fun source =>
      source.type == .evidenceCreated && source.targetVersion == row.version
        && !(invalidatedEvidence timeline scan.contentOf).contains source.objectId
        && !(withdrawnEvents timeline scan.contentOf).contains source.eventId
    let input : PremiseInput := { rows, contents := scan.contentOf, publication, evidence }
    let own ← input.ownCeiling reader row folded.fold.context
    .ok { complete := true
          disposition := some folded.disposition
          reviewState := some (reviewStateFromRecordedReviews
            (folded.reviewFacets.filter (·.targetVersion == row.version)))
          stale := false
          latestVersion := some publication.latestVersion
          ownCeiling := some own }

/-- The `try` block and its `catch`. -/
def premiseStanding (reader : ScientificReader) (problem : String) (cursor : Int)
    (sources : List DependencyScientificRow) (row : DependencyClosureRow) :
    Except TypeError PremiseStanding :=
  match readPremise reader.toPayloadReader problem cursor sources row with
  | .error _ => .ok unavailableStanding
  | .ok (scan, publication) =>
      (foldScientificRows reader ((premiseRows sources row).map scan.timelineRow)).map fun folded =>
        match standingOf reader.toPayloadReader (premiseRows sources row) row scan publication
            folded with
        | .error _ => unavailableStanding
        | .ok standing => standing

/-! ## The assessment -/

def premiseNodes (root : DependencyClosureRow) (rootPayload : Payload)
    (closure : DependencyClosure) (target : String) : List PremiseNode :=
  { target, row := root, pins := rootPayload.dependencyPins.toOption }
    :: closure.nodes.map fun node => { target := node.target, row := node.row, pins := node.pins }

/-- The dependencies the chain may follow: the recorded pins, unless one of
them is broken or the closure of the root is incomplete. -/
def chainDependencies (closure : DependencyClosure) (target : String) (node : PremiseNode) :
    Option (List String) :=
  match node.pins with
  | none => none
  | some pins =>
      if (closure.edges.any fun edge => edge.source == node.target && !edge.available)
          || (node.target == target && !closure.complete) then none
      else some (pins.map (·.target))

/-- `inputs`. -/
def assessmentInputs (reader : ScientificReader) (closure : DependencyClosure)
    (sources : List DependencyScientificRow) (problem target : String) (cursor : Int)
    (nodes : List PremiseNode) : Except TypeError (List CeilingNode) :=
  nodes.mapM fun node =>
    (premiseStanding reader problem cursor sources node.row).map fun standing =>
      { target := node.target, dependencies := chainDependencies closure target node, standing }

/-- The entries of the returned map in the order they are set. Every listed
target has a ceiling. -/
def assessments (problem : String) (cursor : Int) (inputs : List CeilingNode) :
    List PremiseAssessment :=
  inputs.map fun node =>
    { problem, target := node.target, through := cursor, standing := node.standing
      chain := (ceilingOf inputs node.target).getD (unknown node.target .sourceUnavailable) }

def composeDependencyAssessment (reader : ScientificReader)
    (publications : List DependencyClosureRow) (closure : DependencyClosure)
    (sources : List DependencyScientificRow) (problem target : String) (cursor : Int) :
    Except AssessmentError (List PremiseAssessment) :=
  match publications.head? with
  | none => .ok []
  | some root =>
      if !closure.rootAvailable || exactVersion root.claimId root.version ≠ target then .ok []
      else
        match checkedScientificPayload reader.toPayloadReader root.payloadSha256
            (root.payloadJson.getD "") with
        | .error error => .error (.input error)
        | .ok rootPayload =>
            match assessmentInputs reader closure sources problem target cursor
                (premiseNodes root rootPayload closure target) with
            | .error error => .error (.type error)
            | .ok inputs => .ok (assessments problem cursor inputs)

/-- `assessments.get(target)`: a later entry replaces an earlier one. -/
def assessmentOf (assessed : List PremiseAssessment) (target : String) :
    Option PremiseAssessment :=
  (assessed.filter (·.target == target)).getLast?

def withPremiseStaleness (folded : ScientificDisposition) (pins : Option (List ClaimDependencyPin))
    (assessed : List PremiseAssessment) (complete : Bool) : ScientificDisposition :=
  match pins with
  | none => folded
  | some pins =>
      if folded.stale || pins.isEmpty then folded
      else if !complete || pins.any fun pin =>
          !(assessmentOf assessed pin.target).any (·.chain.complete) then
        { folded with stale := true }
      else folded

end Asimposium
