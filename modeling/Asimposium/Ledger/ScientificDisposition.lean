import Asimposium.Ledger.DispositionRead
import Asimposium.Ledger.WithdrawalEffects

/-!
# The scientific disposition of a claim

`foldScientificRows` reads the rows of one claim at a cursor and feeds
what they amount to, at most one timeline event for each row, to the
version-pinned fold. A row's payload may be withheld: support that can
no longer be read loses its weight, while the immutable columns keep
what was recorded against the claim.

`Snapshot` is what the closures of the source close over: the rows, and
the maps the first loop fills from them. A reading of one row depends on
the rows before it only through the `stale` flag.
-/

namespace Asimposium

/-- The rows of one fold, and how their payloads are read. -/
structure Snapshot where
  reader : ScientificReader
  rows : List ScientificRow

/-! ## Facets -/

/-- One recorded review as the review-state facet sees it. -/
structure RecordedReviewFacet where
  targetVersion : Int
  verdict : String
  carriesWeight : Bool
  tier : IndependenceTier
deriving Repr, DecidableEq

inductive DirectiveDisclosure where
  | satisfied
  | missing
  | unresolved
  | unavailable
deriving Repr, DecidableEq

inductive NoveltyFacet where
  | contested
  | notNew
  | unresolved
  | new
  | unreviewed
deriving Repr, DecidableEq

structure ScientificDisposition where
  fold : CurrentClaimDispositionFold
  /-- The fold's disposition under the disclosure cap. -/
  disposition : ClaimDisposition
  stale : Bool
  legacyReviews : Nat
  reviewFacets : List RecordedReviewFacet
  directiveDisclosure : DirectiveDisclosure
  novelty : Option NoveltyFacet
deriving Repr, DecidableEq

/-- `NOT_NEW.has(verdict)`. -/
def NoveltyVerdict.isNotNew : NoveltyVerdict → Bool
  | reformulation => true
  | specialCase => true
  | rediscovery => true
  | _ => false

inductive NoveltyReading where
  | notAsked
  | unavailable
  | verdict (verdict : NoveltyVerdict)
deriving Repr, DecidableEq

/-- `adverseNovelty`. -/
def NoveltyReading.isAdverse : NoveltyReading → Bool
  | verdict v => v.isNotNew
  | _ => false

def ConcessionSource.matchesSource (expected : ConcessionSource)
    (eventId payloadDigest fellowId sponsorId : String) : Bool :=
  expected.eventId == eventId && expected.digest == payloadDigestText payloadDigest
    && expected.fellowId == fellowId && expected.sponsorId == sponsorId

/-- `payload.capable_of_failure.trim().length > 0`. -/
def Payload.couldFail (payload : Payload) : Bool :=
  payload.capableOfFailure.any fun text => !isBlank text

/-- The references an evidence item is grounded in, under the claim's
digest; `none` when its check or its provenance does not hold up. -/
def ScientificEvidence.groundsOf (item : ScientificEvidence) (claim : ScientificClaim) :
    Option (List ScientificEvidenceReference) :=
  let check : Option (List ScientificEvidenceReference) :=
    match item.payload.falsificationCheck with
    | .absent => some []
    | .invalid => none
    | .valid check => if check.targetDigest ≠ claim.contentDigest then none else some check.evidence
  match check, item.payload.scientificProvenance with
  | some refs, .absent => some refs
  | some refs, .valid provenance => some (refs ++ provenance.methodEvidence)
  | _, _ => none

namespace Snapshot

variable (s : Snapshot)

/-! ## The maps of the first loop -/

def contents (eventId : String) : Option Payload :=
  contentOf s.reader.toPayloadReader s.rows eventId

def publishedClaim (row : ScientificRow) : Option ScientificClaim :=
  match row.readable s.reader.toPayloadReader, row.contentDigest, row.statement with
  | some payload, some contentDigest, some statement =>
      some { eventId := row.eventId, payloadDigest := row.payloadSha256, claimId := row.claimId
             version := row.objectVersion, contentDigest, statement
             fellowId := row.fellowId, sponsorId := row.sponsorId
             provenance := payload.scientificProvenance.toOption }
  | _, _, _ => none

/-- `claims.get(version)`. -/
def claimAt (version : Int) : Option ScientificClaim :=
  s.rows.reverse.findSome? fun row =>
    if row.isPublication && row.objectVersion == version then s.publishedClaim row else none

def publishedEvidence (row : ScientificRow) : Option ScientificEvidence :=
  match row.readable s.reader.toPayloadReader with
  | none => none
  | some payload =>
      match payload.kind, payload.direction, payload.bodyMd with
      | some kind, some direction, some body =>
          some { eventId := row.eventId, payloadDigest := row.payloadSha256
                 evidenceId := row.objectId, fellowId := row.fellowId, sponsorId := row.sponsorId
                 kind, direction, body, payload, sequence := row.seq }
      | _, _, _ => none

def invalidated : List String := invalidatedEvidence s.rows s.contents

def withdrawn : List String := withdrawnEvents s.rows s.contents

/-- `evidence.get(evidenceId)`, after the invalidated entries are deleted. -/
def evidenceAt (evidenceId : String) : Option ScientificEvidence :=
  if s.invalidated.contains evidenceId then none
  else s.rows.reverse.findSome? fun row =>
    if row.type == .evidenceCreated && row.objectId == evidenceId then s.publishedEvidence row
    else none

def headPublication : Option ScientificRow := (s.rows.filter (·.isPublication)).getLast?

def head : Option Int := s.headPublication.map (·.objectVersion)

/-- `row.target_version === head`. -/
def pinsHead (row : ScientificRow) : Bool := s.head == some row.targetVersion

/-- Withdrawal needs the immutable authorship of the creation, even when
its text is unavailable. -/
def originalAuthor : Option String :=
  (s.rows.find? fun row => row.type == .claimCreated && row.objectVersion == 1).map (·.fellowId)

def noveltyClaim : Option ScientificClaim :=
  match s.headPublication with
  | some publication =>
      if (s.contents publication.eventId).bind (·.kind) = some "novelty-claim" then
        s.claimAt publication.objectVersion
      else none
  | none => none

/-! ## Resolving references -/

/-- `resolve(reference, row)`. -/
def resolve (reference : ScientificEvidenceReference) (row : ScientificRow) :
    Option ScientificEvidence :=
  match s.evidenceAt reference.evidenceId with
  | none => none
  | some item =>
      if item.sequence < row.seq && reference.digest == payloadDigestText item.payloadDigest
          && item.payload.bearsOnId == some row.claimId && item.payload.bearsOnKind == some "claim"
          && item.payload.bearsOnVersion == some row.targetVersion
          && item.payload.mode == some "confirmatory"
          && !isUngroundedClass item.payload.computedClass
          && !item.payload.selectedHypothesis then some item
      else none

/-! ## Concessions -/

/-- `grounded(item)` with its set of visited events: every ancestor still
resolves, earlier than what rests on it. More than 64 visited items are
refused, which also bounds the depth of the walk. -/
def grounded (claim : ScientificClaim) (row : ScientificRow) :
    Nat → List String → ScientificEvidence → Bool × List String
  | 0, visited, _ => (false, visited)
  | depth + 1, visited, item =>
      if visited.contains item.eventId then (true, visited)
      else
        let visited := item.eventId :: visited
        if 64 < visited.length then (false, visited)
        else match item.groundsOf claim with
        | none => (false, visited)
        | some refs => refs.foldl (fun walk reference =>
            if !walk.1 then walk
            else match s.resolve reference row with
            | none => (false, walk.2)
            | some ancestor =>
                if ancestor.sequence < item.sequence then grounded claim row depth walk.2 ancestor
                else (false, walk.2)) (true, visited)

/-- The concession names the exact current claim and published
counterevidence that is still grounded. -/
def concessionIsGrounded (row : ScientificRow) (payload : Payload) : Bool :=
  match payload.concession with
  | .valid pin =>
      if row.concessionEventId ≠ some row.eventId then false
      else
        let priorHead := (s.rows.filter fun item => item.seq < row.seq && item.isPublication).getLast?
        match s.claimAt row.targetVersion, s.resolve pin.evidence row with
        | some claim, some material =>
            match s.rows.find? (·.eventId == claim.eventId) with
            | none => false
            | some source =>
                match s.contents source.eventId with
                | none => false
                | some statement =>
                    priorHead.map (·.objectVersion) == some row.targetVersion
                      && pin.targetVersion == row.targetVersion
                      && payload.targetObject == some (exactVersion row.claimId row.targetVersion)
                      && pin.targetDigest == claim.contentDigest
                      && pin.claimSource.matchesSource claim.eventId claim.payloadDigest
                        claim.fellowId claim.sponsorId
                      && pin.evidenceSource.matchesSource material.eventId material.payloadDigest
                        material.fellowId material.sponsorId
                      && source.seq < material.sequence && isRefutingDirection material.direction
                      && claimContentDigest s.reader.toPayloadReader statement.kindText
                          claim.statement statement.falsifier == pin.targetDigest
                      && (s.grounded claim row 66 [] material).1
        | _, _ => false
  | _ => false

/-! ## Settled refutations -/

/-- The publication time of a row, when its envelope spells one. -/
def timeOf (row : Option ScientificRow) : Option Int :=
  (row.bind (·.createdAt)).bind dateTime |>.filter isSafeInteger

/-- The row leaves a refutation unanswered: an adverse response that does
not itself dispute the counterevidence. -/
def leavesUnanswered (item : ScientificRow) : Bool :=
  match item.type, s.contents item.eventId with
  | .evidenceCreated, some payload => payload.direction.any isRefutingDirection
  | .reviewCreated, some payload =>
      isNegativeReview (some payload)
        && (match payload.verification with
          | .absent => true
          | .invalid => false
          | .valid check =>
              match check.kind with
              | .refutation result => result == .verified
              | _ => true)
  | _, _ => false

/-- An explicit verifying review supplies the time cut at which published
counterevidence has stood unanswered. -/
def confirmedRefutation (review : ScientificRow) (material : ScientificEvidence) :
    Option (String × Rat) :=
  let source := s.rows.find? (·.eventId == material.eventId)
  let claimSource := s.rows.find? fun item =>
    item.isPublication && item.objectVersion == review.targetVersion
  match timeOf source, timeOf (some review), timeOf claimSource with
  | some sourceTime, some reviewTime, some claimTime =>
      if sourceTime < claimTime || reviewTime < sourceTime
          || s.withdrawn.contains review.eventId then none
      else if s.rows.all fun item =>
          item.seq ≤ material.sequence || review.seq ≤ item.seq
            || item.targetVersion != review.targetVersion
            || ((match timeOf (some item) with
                | some itemTime => sourceTime ≤ itemTime && itemTime ≤ reviewTime
                | none => false)
              && s.leavesUnanswered item) then
        some (material.evidenceId, mkRat (reviewTime - sourceTime) 3600000)
      else none
  | _, _, _ => none

/-! ## One row -/

structure RowReading where
  event : Option VersionedClaimTimelineEvent := none
  marksStale : Bool := false
  legacy : Bool := false
  facet : Option RecordedReviewFacet := none
  novelty : Option NoveltyVerdict := none

def noveltyOf (row : ScientificRow) : NoveltyReading :=
  match s.noveltyClaim with
  | none => .notAsked
  | some claim =>
      if row.type == .reviewCreated && s.pinsHead row && row.fellowId != claim.fellowId
          && row.sponsorId != claim.sponsorId then
        match s.contents row.eventId with
        | none => .unavailable
        | some payload =>
            match payload.novelty with
            | some verdict =>
                if payload.verdict = some "inform" && payload.targetClaimId = some row.claimId
                    && payload.targetVersion = some row.targetVersion then .verdict verdict
                else .unavailable
            | none => .unavailable
      else .notAsked

/-- The row's own input was withdrawn, or can no longer be relied on. -/
def isWithdrawnInput (row : ScientificRow) : Bool :=
  s.withdrawn.contains row.eventId
    || (row.type == .evidenceCreated && s.invalidated.contains row.objectId)

/-- A withdrawal keeps what the row recorded against the claim. -/
def staysAdverse (row : ScientificRow) : Bool :=
  (row.type == .evidenceCreated && row.direction.any isRefutingDirection)
    || (row.type == .reviewCreated
      && (isNegativeReview (s.contents row.eventId) || (s.noveltyOf row).isAdverse
        || ((s.contents row.eventId).isNone
          && (row.weightedRefutation || row.weightedStatementDefect))))

/-- The claim a publication reduces to; the flag reports a relation that
does not hold up. -/
def reductionTarget (row : ScientificRow) : Option String × Bool :=
  match s.contents row.eventId with
  | none => (none, false)
  | some payload =>
      if payload.kind ≠ some "reduction" then (none, false)
      else match payload.dependencyPins with
      | .invalid => (none, true)
      | .valid pins =>
          if pins.any (·.claimId == row.claimId) then (none, true)
          else (pins.head?.map (·.claimId), false)
      | .absent =>
          match payload.relatesTo with
          | some (entry :: _) =>
              match entry.filter isPublicClaimTarget with
              | some target =>
                  if identityOf target ≠ row.claimId then (some target, false) else (none, true)
              | none => (none, true)
          | _ => (none, false)

def readPublication (row : ScientificRow) (marks : Bool) : RowReading :=
  let (target, dangling) := s.reductionTarget row
  { event := some (if row.type = .claimCreated then .claimCreated row.seq row.objectVersion target
      else .claimRevised row.seq row.objectVersion target)
    marksStale := marks || dangling }

/-- `payload?.target_object ?? row.retraction_target ?? row.claim_id`. -/
def retractedObject (row : ScientificRow) : String :=
  (((s.contents row.eventId).bind (·.targetObject)).orElse fun _ => row.retractionTarget).getD
    row.claimId

def isConcession (row : ScientificRow) : Bool :=
  isTruthy row.concessionEventId
    || (match s.contents row.eventId with
      | some payload => payload.concession != .absent
      | none => false)

def isAuthored (row : ScientificRow) : Bool :=
  isTruthy s.originalAuthor && s.originalAuthor == some row.fellowId

/-- The available text of the retraction names another object. -/
def retractsOther (row : ScientificRow) : Bool :=
  match s.contents row.eventId with
  | some payload => payload.targetObject != some row.claimId
      && payload.targetObject != some (exactVersion row.claimId row.targetVersion)
  | none => false

def readRetraction (row : ScientificRow) (marks : Bool) : RowReading :=
  let pinned := fun event => some (VersionedClaimTimelineEvent.pinned row.seq row.targetVersion event)
  if !s.isAuthored row then { marksStale := marks }
  else if s.retractsOther row then { marksStale := true }
  else if s.isConcession row then
    if (s.contents row.eventId).any (s.concessionIsGrounded row) then
      { event := pinned .authorConcession, marksStale := marks }
    else
      { event := pinned (.refutingEvidence row.objectId none none), marksStale := true }
  else
    { event := pinned (.claimRetracted row.objectId (some (s.retractedObject row == row.claimId)))
      marksStale := marks }

/-- A recorded finding outlives the body it was published with. -/
def readWithheldReview (row : ScientificRow) (marks : Bool) : RowReading :=
  { event := some (.pinned row.seq row.targetVersion (.reviewCreated
      { carriesWeight := true, verdict := "refute"
        rubric := if row.weightedStatementDefect then some ["statement-defect"] else none
        reviewId := row.objectId, reviewerId := row.fellowId, tier := .T0
        crossFamily := false, fullWriteUp := false
        artifactEvidenceId := none, confirmedRefutation := none }))
    marksStale := marks }

def certifies (payload : Payload) : Bool :=
  payload.kind == some "certificate"
    && (inspectFormalArtifact s.reader.toPayloadReader payload.formalArtifact).isSome

/-- Evidence that does not refute: a surviving check of the exact claim,
or a certificate. -/
def readEvidence (row : ScientificRow) (payload : Payload) (claim : ScientificClaim)
    (marks : Bool) : RowReading :=
  let pinned := fun event => some (VersionedClaimTimelineEvent.pinned row.seq row.targetVersion event)
  let certificate : RowReading :=
    if s.certifies payload then
      { event := pinned (.certifiedArtifact row.objectId), marksStale := marks }
    else { marksStale := marks }
  if payload.mode ≠ some "confirmatory" || payload.selectedHypothesis
      || isUngroundedClass payload.computedClass then { marksStale := marks }
  else match payload.falsificationCheck with
  | .valid check =>
      if check.result = .survived && check.targetDigest = claim.contentDigest then
        if !decide (check.evidence.map (·.evidenceId)).Nodup
            || check.evidence.any fun reference => (s.resolve reference row).isNone then
          { marksStale := true }
        else
          { event := pinned (.falsificationAttempt
              { attemptId := row.objectId
                checkFingerprint := some (s.reader.checkFingerprint check)
                attemptedFalsifier := check.attemptedFalsifier
                capableOfFailure := check.capableOfFailure
                result := "survived"
                evidenceReferences := some (check.evidence.map (·.evidenceId))
                qualifyingArtifactId := if s.certifies payload then some row.objectId else none })
            marksStale := marks }
      else certificate
  | _ => certificate

/-- The verification a review carries, assessed against the material it
names; `none` when it carries none. -/
def reviewVerification (row : ScientificRow) (payload : Payload) (claim : ScientificClaim) :
    Option (Except ScientificInputError (ScientificVerificationAssessment × ScientificEvidence)) :=
  match payload.verification with
  | .absent => none
  | .invalid => some (.error ⟨"Verification material is unavailable."⟩)
  | .valid verification =>
      match s.resolve verification.evidence row with
      | none => some (.error ⟨"Verification material is unavailable."⟩)
      | some material =>
          match assessScientificVerification s.reader.toPayloadReader claim material verification
            row.fellowId row.sponsorId with
          | .error refusal => some (.error refusal)
          | .ok assessed =>
              if assessed.refutationConfirmed = some true
                  && !isRefutingVerdict payload.verdict then
                some (.error ⟨"A refutation check cannot establish positive support."⟩)
              else some (.ok (assessed, material))

/-- A method reference of the review that does not resolve. -/
def isUngroundedReview (row : ScientificRow) (payload : Payload) : Bool :=
  match payload.scientificProvenance with
  | .valid provenance =>
      provenance.methodEvidence.any fun reference => (s.resolve reference row).isNone
  | _ => false

def readReview (stale : Bool) (row : ScientificRow) (payload : Payload) (claim : ScientificClaim)
    (marks : Bool) : RowReading :=
  let (tier, legacy) := recordedReviewIndependence payload claim.sponsorId row.sponsorId
  let novelty := s.noveltyOf row
  let verification := s.reviewVerification row payload claim
  let refused := verification.any fun outcome => !outcome.isOk
  let ungrounded := s.isUngroundedReview row payload
  -- a finding against the claim keeps its weight when its grounds are gone
  let carriesWeight := payload.couldFail
    && (isNegativeReview (some payload) || novelty.isAdverse || (!refused && !ungrounded))
  let settled := match verification with
    | some (.ok (assessed, material)) =>
        if assessed.refutationConfirmed = some true && payload.couldFail
            && !(stale || marks && s.pinsHead row) && tier != .T0
            && isRefutingVerdict payload.verdict && !ungrounded then
          s.confirmedRefutation row material
        else none
    | _ => none
  let verdict := payload.verdict.getD "cannot-verify"
  { event := some (.pinned row.seq row.targetVersion (.reviewCreated
      { carriesWeight, verdict, rubric := payload.rubric
        reviewId := row.objectId, reviewerId := row.fellowId, tier
        crossFamily := tier == .T2 || tier == .T3
        fullWriteUp := match verification with
          | some (.ok (assessed, _)) => assessed.fullWriteUp
          | _ => false
        artifactEvidenceId := match verification with
          | some (.ok (assessed, material)) =>
              if assessed.certifiedArtifact then some material.evidenceId else none
          | _ => none
        confirmedRefutation := settled }))
    marksStale := marks || refused || ungrounded
    legacy
    facet := some { targetVersion := row.targetVersion, verdict, carriesWeight, tier }
    novelty := match novelty with
      | .verdict verdict => if carriesWeight && tier != .T0 then some verdict else none
      | _ => none }

/-- A row whose input stands, or stays adverse without it. -/
def readAdmitted (stale : Bool) (row : ScientificRow) (marks : Bool) : RowReading :=
  match row.type with
  | .claimCreated => s.readPublication row marks
  | .claimRevised => s.readPublication row marks
  | .objectRetracted => s.readRetraction row marks
  | .evidenceCreated =>
      if row.direction.any isRefutingDirection then
        -- evidence alone opens a dispute; missing counterevidence resolves nothing
        { event := some (.pinned row.seq row.targetVersion (.refutingEvidence row.objectId none none))
          marksStale := marks }
      else match s.contents row.eventId, s.claimAt row.targetVersion with
      | some payload, some claim => s.readEvidence row payload claim marks
      | _, _ => { marksStale := marks }
  | .reviewCreated =>
      match s.contents row.eventId, s.claimAt row.targetVersion with
      | some payload, some claim => s.readReview stale row payload claim marks
      | _, _ =>
          if row.weightedRefutation || row.weightedStatementDefect then
            readWithheldReview row marks
          else { marksStale := marks }
  | .other => { marksStale := marks }

def readRow (stale : Bool) (row : ScientificRow) : RowReading :=
  let unavailable := s.noveltyOf row == .unavailable
  if isTruthy row.withdrawnEventId then { marksStale := true }
  else if s.isWithdrawnInput row then
    if s.staysAdverse row then s.readAdmitted stale row true else { marksStale := true }
  else s.readAdmitted stale row unavailable

/-! ## The fold -/

def readRows : Bool → List ScientificRow → List (ScientificRow × RowReading)
  | _, [] => []
  | stale, row :: rest =>
      let reading := s.readRow stale row
      (row, reading) :: readRows (stale || reading.marksStale && s.pinsHead row) rest

/-- A row of the head that the first loop could not read. -/
def loadsStale : Bool :=
  s.rows.any fun row => s.pinsHead row && (row.readable s.reader.toPayloadReader).isNone

def readings : List (ScientificRow × RowReading) := s.readRows s.loadsStale s.rows

def timeline : List VersionedClaimTimelineEvent := s.readings.filterMap (·.2.event)

def noveltyFacet : NoveltyFacet :=
  let verdicts := s.readings.filterMap (·.2.novelty)
  let isNew := verdicts.contains .new
  let isNotNew := verdicts.any (·.isNotNew)
  if isNew && isNotNew then .contested
  else if isNotNew then .notNew
  else if s.rows.any fun row => s.noveltyOf row == .unavailable then .unresolved
  else if isNew then .new
  else if verdicts ≠ [] then .unresolved
  else .unreviewed

/-- The coverage recorded for the last publication of a version. -/
def disclosureOf (version : Option Int) : DirectiveDisclosure :=
  match (s.rows.filter fun row =>
      row.isPublication && some row.objectVersion == version).getLast?.bind (·.directiveDisclosure) with
  | some "satisfied" => .satisfied
  | some "missing" => .missing
  | some "unresolved" => .unresolved
  | _ => .unavailable

/-- Evidence corroborates without sponsor disclosure; the strongest
standing also needs complete, current coverage. -/
def capped (folded : CurrentClaimDispositionFold) : ClaimDisposition :=
  if folded.disposition = .stronglySupported ∧ s.disclosureOf folded.currentVersion ≠ .satisfied then
    .corroborated
  else folded.disposition

end Snapshot

def foldScientificRows (reader : ScientificReader) (rows : List ScientificRow) :
    Except TypeError ScientificDisposition :=
  let s : Snapshot := { reader, rows }
  (computeCurrentClaimDisposition s.timeline).map fun folded =>
    { fold := folded
      disposition := s.capped folded
      stale := s.loadsStale || s.readings.any fun (row, reading) =>
        reading.marksStale && s.pinsHead row
      legacyReviews := (s.readings.filter (·.2.legacy)).length
      reviewFacets := s.readings.filterMap (·.2.facet)
      directiveDisclosure := s.disclosureOf folded.currentVersion
      novelty := if s.noveltyClaim.isSome then some s.noveltyFacet else none }

end Asimposium
