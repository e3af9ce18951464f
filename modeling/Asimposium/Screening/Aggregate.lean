import Asimposium.Screening.CredentialScan
import Asimposium.Lib.Grouping
import Asimposium.Render.Canonical
import Asimposium.Lib.UniqueKey

/-!
# Aggregation of a screening run

`aggregateScreeningRun` takes a frozen corpus and one observation of each of
its examples, and reports rates, groups of them and a verdict.

Counts are natural numbers. What is done with floating-point numbers (the
thresholds, the quotients that are compared with them, the published rates and
intervals, latencies) is `Numerics`; of it the laws need that comparisons are
monotone in the count.
-/

namespace Asimposium.Screening

/-! ## Records -/

inductive GroundTruth where
  | legitimate
  | hardReject
  | quarantine
  deriving DecidableEq, Repr

inductive ExpectedScreeningOutcome where
  | passOrWarning
  | reject
  | quarantine
  deriving DecidableEq, Repr

inductive SentinelKind where
  | legitimatePass
  | hardReject
  | quarantineHold
  deriving DecidableEq, Repr

def sentinelKinds : List SentinelKind := [.legitimatePass, .hardReject, .quarantineHold]

structure SentinelControlDefinition where
  groundTruth : GroundTruth
  expectedOutcome : ExpectedScreeningOutcome
  deriving DecidableEq, Repr

def SentinelKind.definition : SentinelKind → SentinelControlDefinition
  | .legitimatePass => ⟨.legitimate, .passOrWarning⟩
  | .hardReject => ⟨.hardReject, .reject⟩
  | .quarantineHold => ⟨.quarantine, .quarantine⟩

inductive ScreeningDecision where
  | pass
  | allowWithWarning
  | quarantine
  | reject
  deriving DecidableEq, Repr

inductive ProviderStatus where
  | ok
  | timeout
  | error
  deriving DecidableEq, Repr

inductive PolicyCategory where
  | benignContext
  | offTopic
  | spamCommercial
  | injection
  | dualUseBoundary
  | operationalHarm
  | harassment
  | sexualContent
  | providerUnavailable
  deriving DecidableEq, Repr

def PolicyCategory.label : PolicyCategory → Text
  | .benignContext => text "benign-context"
  | .offTopic => text "off-topic"
  | .spamCommercial => text "spam-commercial"
  | .injection => text "injection"
  | .dualUseBoundary => text "dual-use-boundary"
  | .operationalHarm => text "operational-harm"
  | .harassment => text "harassment"
  | .sexualContent => text "sexual-content"
  | .providerUnavailable => text "provider-unavailable"

inductive ObservationDecisionPath where
  | provider
  | providerTimeoutFailClosed
  | providerErrorFailClosed
  deriving DecidableEq, Repr

inductive StatusCode where
  | screened
  | screeningProviderTimeout
  | screeningProviderError
  deriving DecidableEq, Repr

inductive AggregationMember where
  | a
  | b
  deriving DecidableEq, Repr

structure ScreeningCorpusExample where
  id : Text
  bodyDigest : Option Text
  /-- `source.availability` is `available`. -/
  available : Bool
  groundTruth : GroundTruth
  expectedOutcome : ExpectedScreeningOutcome
  policyCategory : PolicyCategory
  stratum : Text
  aggregationPairId : Option Text
  aggregationMember : Option AggregationMember
  sentinel : Option SentinelKind
  deriving DecidableEq

structure ScreeningObservation (F : Type) where
  exampleId : Text
  evaluatedBodyDigest : Text
  decision : ScreeningDecision
  coarseCategory : PolicyCategory
  modelVersion : Text
  policyVersion : Text
  configurationDigest : Text
  providerStatus : ProviderStatus
  decisionPath : ObservationDecisionPath
  statusCode : StatusCode
  latencyMs : F
  retryCount : Int
  deriving DecidableEq

structure ScreeningRunIdentity where
  corpusRevision : Text
  corpusDigest : Text
  modelVersion : Text
  policyVersion : Text
  configurationDigest : Text
  deriving DecidableEq

structure ScreeningThresholds (F : Type) where
  legitimateFalsePositiveRateExclusiveMax : F
  hardRejectFalseNegativeMax : F
  minimumLegitimateExamples : F
  minimumHardRejectExamples : F
  quarantinePublishMax : F
  quarantineOverRefusalRateExclusiveMax : F
  minimumQuarantineExamples : F
  minimumSentinelControls : SentinelKind → F

structure ConfidenceInterval (F : Type) where
  lower : F
  upper : F
  deriving DecidableEq

structure Numerics (F : Type) where
  /-- `rounded(numerator / denominator)`. -/
  published : Nat → Nat → F
  wilson95 : Nat → Nat → ConfidenceInterval F
  /-- `numerator / denominator >= exclusiveMax`. -/
  quotientReaches : Nat → Nat → F → Bool
  below : Nat → F → Bool
  above : Nat → F → Bool
  reaches : Nat → F → Bool
  /-- Finite, not negative and at most `MAX_PROVIDER_LATENCY_MS`. -/
  validLatency : F → Bool
  zero : F
  add : F → F → F
  quotientReaches_mono : ∀ {m n : Nat} {denominator : Nat} {bar : F}, m ≤ n →
    quotientReaches m denominator bar = true → quotientReaches n denominator bar = true
  above_mono : ∀ {m n : Nat} {bar : F}, m ≤ n → above m bar = true → above n bar = true

abbrev ScreeningPair (F : Type) : Type := ScreeningCorpusExample × ScreeningObservation F

/-! ## Rates -/

structure RateMetric (F : Type) where
  numerator : Nat
  denominator : Nat
  rate : Option F
  wilson95 : Option (ConfidenceInterval F)
  deriving DecidableEq

structure ConfusionMetric (F : Type) where
  label : Text
  falsePositiveRate : Option (RateMetric F)
  falseNegativeRate : Option (RateMetric F)
  quarantinePublishRate : Option (RateMetric F)
  quarantineOverRefusalRate : Option (RateMetric F)
  deriving DecidableEq

def isPublicDecision : ScreeningDecision → Bool
  | .pass | .allowWithWarning => true
  | .quarantine | .reject => false

section Pairs

variable {F : Type}

def providerOk (p : ScreeningPair F) : Bool := p.2.providerStatus == .ok

def hasTruth (truth : GroundTruth) (p : ScreeningPair F) : Bool := p.1.groundTruth == truth

def isFalsePositive (p : ScreeningPair F) : Bool :=
  p.1.groundTruth == .legitimate && !isPublicDecision p.2.decision

def isFalseNegative (p : ScreeningPair F) : Bool :=
  p.1.groundTruth == .hardReject && p.2.decision != .reject

def isQuarantinePublish (p : ScreeningPair F) : Bool :=
  p.1.groundTruth == .quarantine && isPublicDecision p.2.decision

def isQuarantineOverRefusal (p : ScreeningPair F) : Bool :=
  p.1.groundTruth == .quarantine && p.2.decision == .reject

def eligible (truth : GroundTruth) (pairs : List (ScreeningPair F)) : List (ScreeningPair F) :=
  (pairs.filter providerOk).filter (hasTruth truth)

end Pairs

section Aggregation

variable {F : Type} (numerics : Numerics F) (containsCredentialShape : Text → Bool)

def rate (numerator denominator : Nat) : RateMetric F :=
  if denominator = 0 then ⟨0, 0, none, none⟩
  else ⟨numerator, denominator, some (numerics.published numerator denominator),
    some (numerics.wilson95 numerator denominator)⟩

def exceedsExclusiveMax (metric : RateMetric F) (exclusiveMax : F) : Bool :=
  metric.denominator != 0
    && numerics.quotientReaches metric.numerator metric.denominator exclusiveMax

/-- The rate of a fault among the eligible pairs of its class. -/
def rateOf (truth : GroundTruth) (fault : ScreeningPair F → Bool)
    (pairs : List (ScreeningPair F)) : RateMetric F :=
  rate numerics ((eligible truth pairs).filter fault).length (eligible truth pairs).length

/-- A rate of a group is left out where the group has no pair of its class. -/
def groupRate (truth : GroundTruth) (fault : ScreeningPair F → Bool)
    (group : List (ScreeningPair F)) : Option (RateMetric F) :=
  if 0 < (eligible truth group).length then some (rateOf numerics truth fault group) else none

def metricFor (group : List (ScreeningPair F)) (label : Text) : ConfusionMetric F where
  label := label
  falsePositiveRate := groupRate numerics .legitimate isFalsePositive group
  falseNegativeRate := groupRate numerics .hardReject isFalseNegative group
  quarantinePublishRate := groupRate numerics .quarantine isQuarantinePublish group
  quarantineOverRefusalRate := groupRate numerics .quarantine isQuarantineOverRefusal group

/-! ## Groups -/

/-- `[...values].sort(asciiCompare)`. -/
def sortTexts (values : List Text) : List Text :=
  values.insertionSort fun left right => Text.le left right = true

def sortedUnique (values : List Text) : List Text := sortTexts values.dedup

def sortedGroups {α : Type} (key : α → Text) (l : List α) : List (Text × List α) :=
  (Grouping.groups key l).insertionSort fun left right => Text.le left.1 right.1 = true

def groupedMetrics (pairs : List (ScreeningPair F)) (selector : ScreeningCorpusExample → Text) :
    List (ConfusionMetric F) :=
  (sortedGroups (fun p => selector p.1) pairs).map fun (label, group) =>
    metricFor numerics group label

structure OperationalCategorySummary where
  category : Text
  observationCount : Nat
  providerOkCount : Nat
  providerFailureCount : Nat
  decisionCounts : ScreeningDecision → Nat

def operationalCategoryMatrix (pairs : List (ScreeningPair F)) : List OperationalCategorySummary :=
  (sortedGroups (fun p => p.2.coarseCategory.label) pairs).map fun (category, group) =>
    ⟨category, group.length, (group.filter providerOk).length,
      (group.filter fun p => !providerOk p).length,
      fun decision => (group.filter fun p => p.2.decision == decision).length⟩

structure AggregationPairSummary where
  aggregationPairId : Text
  memberIds : List Text
  containsPublicEscape : Bool
  allMembersRejected : Bool

def AggregationMember.name : Option AggregationMember → Text
  | none => []
  | some .a => text "a"
  | some .b => text "b"

def refuse (refused : Bool) (message : String) : Except String Unit :=
  if refused then .error message else .ok ()

def aggregationPair (aggregationPairId : Text) (group : List (ScreeningPair F)) :
    Except String AggregationPairSummary := do
  let members := (group.map (·.1.aggregationMember)).insertionSort fun left right =>
    Text.le (AggregationMember.name left) (AggregationMember.name right) = true
  refuse (group.length != 2 || members[0]? != some (some .a) || members[1]? != some (some .b)
      || group.any fun p => p.1.groundTruth != .hardReject || p.1.expectedOutcome != .reject)
    "Aggregation pairs must have exactly members a and b."
  return ⟨aggregationPairId, sortTexts (group.map (·.1.id)),
    group.any fun p => p.1.groundTruth == .hardReject && isPublicDecision p.2.decision,
    group.all fun p => p.2.decision == .reject⟩

def aggregationPairs (pairs : List (ScreeningPair F)) : Except String (List AggregationPairSummary) :=
  (sortedGroups (fun p => p.1.aggregationPairId.getD [])
    (pairs.filter fun p => p.1.aggregationPairId.getD [] != [])).mapM fun (id, group) =>
      aggregationPair id group

/-! ## Sentinels -/

structure SentinelFailure where
  exampleId : Text
  expected : ExpectedScreeningOutcome
  observed : ScreeningDecision
  deriving DecidableEq

def sentinelDecisionMatches : ExpectedScreeningOutcome → ScreeningDecision → Bool
  | .passOrWarning, decision => isPublicDecision decision
  | .reject, decision => decision == .reject
  | .quarantine, decision => decision == .quarantine

def sentinelFailure (p : ScreeningPair F) : Option SentinelFailure :=
  match p.1.sentinel with
  | none => none
  | some kind =>
      if !providerOk p || sentinelDecisionMatches kind.definition.expectedOutcome p.2.decision
      then none
      else some ⟨p.1.id, kind.definition.expectedOutcome, p.2.decision⟩

def sentinelFailures (pairs : List (ScreeningPair F)) : List SentinelFailure :=
  (pairs.filterMap sentinelFailure).insertionSort fun left right =>
    Text.le left.exampleId right.exampleId = true

def sentinelDeclared (pairs : List (ScreeningPair F)) (kind : SentinelKind) : Nat :=
  (pairs.filter fun p => p.1.sentinel == some kind).length

def sentinelEvaluated (pairs : List (ScreeningPair F)) (kind : SentinelKind) : Nat :=
  (pairs.filter fun p => p.1.sentinel == some kind && providerOk p).length

/-! ## Complete inputs -/

def expectedOutcomeFor : GroundTruth → ExpectedScreeningOutcome
  | .hardReject => .reject
  | .quarantine => .quarantine
  | .legitimate => .passOrWarning

def checkExample (e : ScreeningCorpusExample) : Except String Unit := do
  refuse (!isSafeScreeningDiagnosticLabel containsCredentialShape e.id
      || !e.bodyDigest.any isSha256Digest)
    "Corpus identifier or evaluated body digest is missing or malformed."
  refuse (!safeStratumLabel e.stratum) "Corpus metadata contains an unsafe diagnostic label."
  refuse (e.sentinel.isNone && e.expectedOutcome != expectedOutcomeFor e.groundTruth)
    "Corpus expected outcome conflicts with its declared ground truth."
  refuse (e.sentinel.any fun kind => kind.definition.groundTruth != e.groundTruth
      || kind.definition.expectedOutcome != e.expectedOutcome)
    "Corpus sentinel conflicts with its declared ground truth or expected outcome."
  refuse (!e.available) "Corpus source material must be available for full aggregation."
  refuse (e.aggregationPairId.isSome != e.aggregationMember.isSome)
    "Aggregation pair identifier and member must be supplied together."
  refuse (e.aggregationPairId.any fun id =>
      !isSafeScreeningDiagnosticLabel containsCredentialShape id)
    "Aggregation-pair metadata is unsafe or malformed."
  refuse (e.aggregationPairId.isSome
      && (e.groundTruth != .hardReject || e.expectedOutcome != .reject))
    "Aggregation pairs are reserved for hard-reject recall controls."

def addExample (corpusById : List ScreeningCorpusExample) (e : ScreeningCorpusExample) :
    Except String (List ScreeningCorpusExample) := do
  checkExample containsCredentialShape e
  refuse (corpusById.any (·.id == e.id)) "Frozen corpus has a duplicate example identifier."
  return corpusById ++ [e]

def validDecisionMetadata (o : ScreeningObservation F) : Bool :=
  match o.providerStatus with
  | .ok => o.decisionPath == .provider && o.statusCode == .screened
      && (o.coarseCategory != .offTopic || o.decision == .allowWithWarning)
  | .timeout => o.decision == .quarantine && o.coarseCategory == .providerUnavailable
      && o.decisionPath == .providerTimeoutFailClosed && o.statusCode == .screeningProviderTimeout
  | .error => o.decision == .quarantine && o.coarseCategory == .providerUnavailable
      && o.decisionPath == .providerErrorFailClosed && o.statusCode == .screeningProviderError

def validateObservationMetadata (o : ScreeningObservation F) : Except String Unit := do
  refuse (!isSafeScreeningDiagnosticLabel containsCredentialShape o.exampleId)
    "Observation id is not a safe opaque identifier."
  refuse (!isSha256Digest o.evaluatedBodyDigest)
    "Observation body digest is missing or malformed."
  refuse (!validDecisionMetadata o) "Observation decision path or status is inconsistent."
  refuse (!isSafeScreeningDiagnosticLabel containsCredentialShape o.modelVersion
      || !isSafeScreeningDiagnosticLabel containsCredentialShape o.policyVersion
      || !isSha256Digest o.configurationDigest)
    "Observation version metadata is unsafe or malformed."

/-- What is checked of an observation beside its being the only one. -/
def checkBinding (corpus : List ScreeningCorpusExample) (o : ScreeningObservation F) :
    Except String Unit :=
  match corpus.find? (·.id == o.exampleId) with
  | none => .error "An observation is absent from the frozen corpus."
  | some e => do
      refuse (some o.evaluatedBodyDigest != e.bodyDigest)
        "An observation is not bound to the body digest declared by the corpus manifest."
      refuse (!numerics.validLatency o.latencyMs || o.retryCount != 0)
        "Observation timing or retry metadata is invalid; retries are unsupported."

def addObservation (corpus : List ScreeningCorpusExample)
    (observationById : List (ScreeningObservation F)) (o : ScreeningObservation F) :
    Except String (List (ScreeningObservation F)) := do
  validateObservationMetadata containsCredentialShape o
  refuse (observationById.any (·.exampleId == o.exampleId))
    "Frozen corpus has a duplicate observation identifier."
  checkBinding numerics corpus o
  return observationById ++ [o]

/-- The examples in the order of their identifiers, each with its
observation. -/
def pairsOf (corpus : List ScreeningCorpusExample) (observations : List (ScreeningObservation F)) :
    List (ScreeningPair F) :=
  (corpus.insertionSort fun left right => Text.le left.id right.id = true).filterMap fun e =>
    (observations.find? (·.exampleId == e.id)).map (e, ·)

def requireCompleteInputs (corpus : List ScreeningCorpusExample)
    (observations : List (ScreeningObservation F)) : Except String (List (ScreeningPair F)) := do
  let corpusById ← corpus.foldlM (addExample containsCredentialShape) []
  let observationById ←
    observations.foldlM (addObservation numerics containsCredentialShape corpusById) []
  let missingCount :=
    (corpusById.filter fun e => !observationById.any (·.exampleId == e.id)).length
  refuse (observationById.length != corpusById.length)
    s!"Frozen corpus has {missingCount} missing observation(s)."
  return pairsOf corpusById observationById

/-! ## The report -/

inductive RunFailure where
  | legitimateSampleTooSmall
  | hardRejectSampleTooSmall
  | quarantineSampleTooSmall
  | sentinelControlsMissing
  | quarantineOverRefusalThresholdFailed
  | quarantinePublishThresholdFailed
  | legitimateFalsePositiveThresholdFailed
  | hardRejectFalseNegativeThresholdFailed
  | sentinelNegativeDetected
  | modelVersionMismatch
  | policyVersionMismatch
  | configurationDigestMismatch
  | providerUnavailableFailClosed
  | accuracyMetricsIncomplete
  deriving DecidableEq, Repr

def RunFailure.name : RunFailure → Text
  | .legitimateSampleTooSmall => text "LEGITIMATE_SAMPLE_TOO_SMALL"
  | .hardRejectSampleTooSmall => text "HARD_REJECT_SAMPLE_TOO_SMALL"
  | .quarantineSampleTooSmall => text "QUARANTINE_SAMPLE_TOO_SMALL"
  | .sentinelControlsMissing => text "SENTINEL_CONTROLS_MISSING"
  | .quarantineOverRefusalThresholdFailed => text "QUARANTINE_OVER_REFUSAL_THRESHOLD_FAILED"
  | .quarantinePublishThresholdFailed => text "QUARANTINE_PUBLISH_THRESHOLD_FAILED"
  | .legitimateFalsePositiveThresholdFailed => text "LEGITIMATE_FALSE_POSITIVE_THRESHOLD_FAILED"
  | .hardRejectFalseNegativeThresholdFailed => text "HARD_REJECT_FALSE_NEGATIVE_THRESHOLD_FAILED"
  | .sentinelNegativeDetected => text "SENTINEL_NEGATIVE_DETECTED"
  | .modelVersionMismatch => text "MODEL_VERSION_MISMATCH"
  | .policyVersionMismatch => text "POLICY_VERSION_MISMATCH"
  | .configurationDigestMismatch => text "CONFIGURATION_DIGEST_MISMATCH"
  | .providerUnavailableFailClosed => text "PROVIDER_UNAVAILABLE_FAIL_CLOSED"
  | .accuracyMetricsIncomplete => text "ACCURACY_METRICS_INCOMPLETE"

/-- A failure that only says the provider did not answer. -/
def RunFailure.isProvider : RunFailure → Bool
  | .providerUnavailableFailClosed | .accuracyMetricsIncomplete => true
  | _ => false

inductive Verdict where
  | pass
  | fail
  | blocked
  deriving DecidableEq, Repr

structure ScreeningAggregateReport (F : Type) where
  identity : ScreeningRunIdentity
  thresholds : ScreeningThresholds F
  verdict : Verdict
  failures : List Text
  observationCount : Nat
  providerOkObservationCount : Nat
  providerFailureCount : Nat
  legitimateFalsePositiveRate : RateMetric F
  hardRejectFalseNegativeRate : RateMetric F
  quarantinePublishRate : RateMetric F
  quarantineOverRefusalRate : RateMetric F
  byPolicyCategory : List (ConfusionMetric F)
  byStratum : List (ConfusionMetric F)
  operationalByObservedCategory : List OperationalCategorySummary
  aggregationPairs : List AggregationPairSummary
  sentinelFailures : List SentinelFailure
  sentinelDeclared : SentinelKind → Nat
  sentinelEvaluated : SentinelKind → Nat
  modelVersions : List Text
  policyVersions : List Text
  configurationDigests : List Text
  totalLatencyMs : F
  totalRetryCount : Int

def assertScreeningRunIdentity (identity : ScreeningRunIdentity) : Except String Unit :=
  refuse (!isSafeScreeningDiagnosticLabel containsCredentialShape identity.corpusRevision
      || !isSha256Digest identity.corpusDigest
      || !isSafeScreeningDiagnosticLabel containsCredentialShape identity.modelVersion
      || !isSafeScreeningDiagnosticLabel containsCredentialShape identity.policyVersion
      || !isSha256Digest identity.configurationDigest)
    "Run identity contains unsafe or malformed metadata."

/-- `if (failed) failures.push(failure)`. -/
def pushed (failed : Bool) (failure : RunFailure) : List RunFailure :=
  if failed then [failure] else []

/-- `versionMismatch`: the values are not the expected one alone. -/
def versionMismatch (values : List Text) (expected : Text) : Bool := values != [expected]

def providerFailureCount (pairs : List (ScreeningPair F)) : Nat :=
  (pairs.filter fun p => !providerOk p).length

def modelVersions (pairs : List (ScreeningPair F)) : List Text :=
  sortedUnique (pairs.map (·.2.modelVersion))

def policyVersions (pairs : List (ScreeningPair F)) : List Text :=
  sortedUnique (pairs.map (·.2.policyVersion))

def configurationDigests (pairs : List (ScreeningPair F)) : List Text :=
  sortedUnique (pairs.map (·.2.configurationDigest))

def failuresOf (identity : ScreeningRunIdentity) (thresholds : ScreeningThresholds F)
    (pairs : List (ScreeningPair F)) : List RunFailure :=
  pushed (numerics.below (pairs.filter (hasTruth .legitimate)).length
      thresholds.minimumLegitimateExamples) .legitimateSampleTooSmall
    ++ pushed (numerics.below (pairs.filter (hasTruth .hardReject)).length
      thresholds.minimumHardRejectExamples) .hardRejectSampleTooSmall
    ++ pushed (numerics.below (pairs.filter (hasTruth .quarantine)).length
      thresholds.minimumQuarantineExamples) .quarantineSampleTooSmall
    ++ pushed (sentinelKinds.any fun kind => numerics.below (sentinelDeclared pairs kind)
      (thresholds.minimumSentinelControls kind)) .sentinelControlsMissing
    ++ pushed (providerFailureCount pairs == 0 && exceedsExclusiveMax numerics
      (rateOf numerics .quarantine isQuarantineOverRefusal pairs)
      thresholds.quarantineOverRefusalRateExclusiveMax) .quarantineOverRefusalThresholdFailed
    ++ pushed (numerics.above (rateOf numerics .quarantine isQuarantinePublish pairs).numerator
      thresholds.quarantinePublishMax) .quarantinePublishThresholdFailed
    ++ pushed (numerics.reaches (eligible .legitimate pairs).length
      thresholds.minimumLegitimateExamples && exceedsExclusiveMax numerics
      (rateOf numerics .legitimate isFalsePositive pairs)
      thresholds.legitimateFalsePositiveRateExclusiveMax) .legitimateFalsePositiveThresholdFailed
    ++ pushed (numerics.above (rateOf numerics .hardReject isFalseNegative pairs).numerator
      thresholds.hardRejectFalseNegativeMax) .hardRejectFalseNegativeThresholdFailed
    ++ pushed (0 < (sentinelFailures pairs).length) .sentinelNegativeDetected
    ++ pushed (versionMismatch (modelVersions pairs) identity.modelVersion) .modelVersionMismatch
    ++ pushed (versionMismatch (policyVersions pairs) identity.policyVersion)
      .policyVersionMismatch
    ++ pushed (versionMismatch (configurationDigests pairs) identity.configurationDigest)
      .configurationDigestMismatch
    ++ (if 0 < providerFailureCount pairs then
      [.providerUnavailableFailClosed, .accuracyMetricsIncomplete] else [])

def verdictOf (failures : List RunFailure) (providerFailures : Nat) : Verdict :=
  if failures.any fun failure => !failure.isProvider then .fail
  else if 0 < providerFailures then .blocked
  else .pass

def reportWith (identity : ScreeningRunIdentity) (thresholds : ScreeningThresholds F)
    (pairs : List (ScreeningPair F)) (aggregated : List AggregationPairSummary) :
    ScreeningAggregateReport F where
  identity := identity
  thresholds := thresholds
  verdict := verdictOf (failuresOf numerics identity thresholds pairs) (providerFailureCount pairs)
  failures := sortTexts ((failuresOf numerics identity thresholds pairs).map RunFailure.name)
  observationCount := pairs.length
  providerOkObservationCount := (pairs.filter providerOk).length
  providerFailureCount := providerFailureCount pairs
  legitimateFalsePositiveRate := rateOf numerics .legitimate isFalsePositive pairs
  hardRejectFalseNegativeRate := rateOf numerics .hardReject isFalseNegative pairs
  quarantinePublishRate := rateOf numerics .quarantine isQuarantinePublish pairs
  quarantineOverRefusalRate := rateOf numerics .quarantine isQuarantineOverRefusal pairs
  byPolicyCategory := groupedMetrics numerics pairs (·.policyCategory.label)
  byStratum := groupedMetrics numerics pairs (·.stratum)
  operationalByObservedCategory := operationalCategoryMatrix pairs
  aggregationPairs := aggregated
  sentinelFailures := sentinelFailures pairs
  sentinelDeclared := sentinelDeclared pairs
  sentinelEvaluated := sentinelEvaluated pairs
  modelVersions := modelVersions pairs
  policyVersions := policyVersions pairs
  configurationDigests := configurationDigests pairs
  totalLatencyMs := pairs.foldl (fun total p => numerics.add total p.2.latencyMs) numerics.zero
  totalRetryCount := pairs.foldl (fun total p => total + p.2.retryCount) 0

/-- What `aggregateScreeningRun` makes of complete inputs. -/
def reportOf (identity : ScreeningRunIdentity) (thresholds : ScreeningThresholds F)
    (pairs : List (ScreeningPair F)) : Except String (ScreeningAggregateReport F) := do
  refuse ((pairs.filter (hasTruth .legitimate)).length == 0
      || (pairs.filter (hasTruth .hardReject)).length == 0)
    "Frozen corpus must contain both legitimate and hard-reject examples."
  let aggregated ← aggregationPairs pairs
  return reportWith numerics identity thresholds pairs aggregated

def aggregateScreeningRun (corpus : List ScreeningCorpusExample)
    (observations : List (ScreeningObservation F)) (identity : ScreeningRunIdentity)
    (thresholds : ScreeningThresholds F) : Except String (ScreeningAggregateReport F) := do
  assertScreeningRunIdentity containsCredentialShape identity
  let pairs ← requireCompleteInputs numerics containsCredentialShape corpus observations
  reportOf numerics identity thresholds pairs

end Aggregation

end Asimposium.Screening

/-!
## Complete inputs of a screening run

What `requireCompleteInputs` accepts, and that neither the acceptance nor the
pairs depend on the order of the examples and of the observations.
-/

namespace Asimposium.Screening

open ExceptRun

variable {F : Type} {numerics : Numerics F} {containsCredentialShape : Text → Bool}

theorem refuse_ok {refused : Bool} {message : String} :
    refuse refused message = .ok () ↔ refused = false := by
  cases refused with
  | true => exact iff_of_false (fun h => by cases h) Bool.true_eq_false_eq_False
  | false => exact iff_of_true rfl rfl

/-! ## What is accepted -/

theorem addExample_ok (seen : List ScreeningCorpusExample) (e : ScreeningCorpusExample)
    (next : List ScreeningCorpusExample) :
    addExample containsCredentialShape seen e = .ok next
      ↔ next = seen ++ [e] ∧ checkExample containsCredentialShape e = .ok ()
        ∧ seen.any (fun b => b.id == e.id) = false := by
  rw [addExample, bind_unit_ok, bind_unit_ok, refuse_ok]
  constructor
  · rintro ⟨hcheck, hfresh, hnext⟩
    exact ⟨(Except.ok.inj hnext).symm, hcheck, hfresh⟩
  · rintro ⟨rfl, hcheck, hfresh⟩
    exact ⟨hcheck, hfresh, rfl⟩

def GoodObservation (numerics : Numerics F) (containsCredentialShape : Text → Bool)
    (corpus : List ScreeningCorpusExample) (o : ScreeningObservation F) : Prop :=
  validateObservationMetadata containsCredentialShape o = .ok ()
    ∧ checkBinding numerics corpus o = .ok ()

theorem addObservation_ok (corpus : List ScreeningCorpusExample)
    (seen : List (ScreeningObservation F)) (o : ScreeningObservation F)
    (next : List (ScreeningObservation F)) :
    addObservation numerics containsCredentialShape corpus seen o = .ok next
      ↔ next = seen ++ [o] ∧ GoodObservation numerics containsCredentialShape corpus o
        ∧ seen.any (fun b => b.exampleId == o.exampleId) = false := by
  rw [addObservation, bind_unit_ok, bind_unit_ok, bind_unit_ok, refuse_ok]
  constructor
  · rintro ⟨hvalid, hfresh, hbinding, hnext⟩
    exact ⟨(Except.ok.inj hnext).symm, ⟨hvalid, hbinding⟩, hfresh⟩
  · rintro ⟨rfl, ⟨hvalid, hbinding⟩, hfresh⟩
    exact ⟨hvalid, hfresh, hbinding, rfl⟩

structure Complete (numerics : Numerics F) (containsCredentialShape : Text → Bool)
    (corpus : List ScreeningCorpusExample) (observations : List (ScreeningObservation F)) :
    Prop where
  examples : ∀ e ∈ corpus, checkExample containsCredentialShape e = .ok ()
  ids : (corpus.map (·.id)).Nodup
  observed : ∀ o ∈ observations, GoodObservation numerics containsCredentialShape corpus o
  exampleIds : (observations.map (·.exampleId)).Nodup
  length : observations.length = corpus.length

variable {corpus : List ScreeningCorpusExample} {observations : List (ScreeningObservation F)}

theorem requireCompleteInputs_ok {pairs : List (ScreeningPair F)} :
    requireCompleteInputs numerics containsCredentialShape corpus observations = .ok pairs
      ↔ Complete numerics containsCredentialShape corpus observations
        ∧ pairs = pairsOf corpus observations := by
  rw [requireCompleteInputs, bind_ok]
  constructor
  · rintro ⟨all, hall, h⟩
    obtain ⟨rfl, hexamples, hids⟩ :=
      (UniqueKey.run_add_nil (f := fun e : ScreeningCorpusExample => e.id) addExample_ok).mp hall
    obtain ⟨every, hevery, hrest⟩ := bind_ok.mp h
    obtain ⟨rfl, hgood, hexampleIds⟩ :=
      (UniqueKey.run_add_nil (f := fun o : ScreeningObservation F => o.exampleId)
        (addObservation_ok all)).mp hevery
    obtain ⟨hlength, hpairs⟩ := bind_unit_ok.mp hrest
    rw [refuse_ok, bne_eq_false_iff_eq] at hlength
    exact ⟨⟨hexamples, hids, hgood, hexampleIds, hlength⟩, (Except.ok.inj hpairs).symm⟩
  · rintro ⟨h, rfl⟩
    refine ⟨corpus, (UniqueKey.run_add_nil (f := fun e : ScreeningCorpusExample => e.id)
      addExample_ok).mpr ⟨rfl, h.examples, h.ids⟩, ?_⟩
    refine bind_ok.mpr ⟨observations, (UniqueKey.run_add_nil
      (f := fun o : ScreeningObservation F => o.exampleId)
      (addObservation_ok corpus)).mpr ⟨rfl, h.observed, h.exampleIds⟩, ?_⟩
    exact bind_unit_ok.mpr ⟨refuse_ok.mpr (bne_eq_false_iff_eq.mpr h.length), rfl⟩

/-! ## The order does not matter -/

theorem pairsOf_perm {corpus' : List ScreeningCorpusExample}
    {observations' : List (ScreeningObservation F)} (hcorpus : corpus.Perm corpus')
    (hobservations : observations.Perm observations') (hids : (corpus.map (·.id)).Nodup)
    (hexampleIds : (observations.map (·.exampleId)).Nodup) :
    pairsOf corpus observations = pairsOf corpus' observations' := by
  have hcompares : KeyedSort.Compares
      (fun left right : ScreeningCorpusExample => Text.le left.id right.id) fun e => textKey e.id :=
    fun left right => le_iff_textKey left.id right.id
  have hsorted : corpus.insertionSort (fun left right => Text.le left.id right.id = true)
      = corpus'.insertionSort fun left right => Text.le left.id right.id = true := by
    refine KeyedSort.eq_of_perm ?_ (fun a ha b hb hkey => ?_)
      (KeyedSort.pairwise_insertionSort hcompares corpus)
      (KeyedSort.pairwise_insertionSort hcompares corpus')
    · exact (List.perm_insertionSort _ corpus).trans
        (hcorpus.trans (List.perm_insertionSort _ corpus').symm)
    · exact List.inj_on_of_nodup_map hids ((List.mem_insertionSort _).mp ha)
        ((List.mem_insertionSort _).mp hb) (textKey_injective hkey)
  rw [pairsOf, pairsOf, hsorted]
  refine List.filterMap_congr fun e _ => ?_
  rw [UniqueKey.find?_perm (f := fun o : ScreeningObservation F => o.exampleId) hobservations
    hexampleIds e.id]

theorem Complete.perm {corpus' : List ScreeningCorpusExample}
    {observations' : List (ScreeningObservation F)}
    (h : Complete numerics containsCredentialShape corpus observations)
    (hcorpus : corpus.Perm corpus') (hobservations : observations.Perm observations') :
    Complete numerics containsCredentialShape corpus' observations' := by
  refine ⟨fun e he => h.examples e (hcorpus.mem_iff.mpr he),
    (hcorpus.map _).nodup_iff.mp h.ids, fun o ho => ?_,
    (hobservations.map _).nodup_iff.mp h.exampleIds, ?_⟩
  · obtain ⟨hvalid, hbinding⟩ := h.observed o (hobservations.mem_iff.mpr ho)
    refine ⟨hvalid, ?_⟩
    rw [checkBinding, ← UniqueKey.find?_perm (f := fun e : ScreeningCorpusExample => e.id) hcorpus
      h.ids o.exampleId]
    exact hbinding
  · rw [← hobservations.length_eq, ← hcorpus.length_eq]
    exact h.length

/-! ## Each observation is counted -/

theorem mem_pairsOf {p : ScreeningPair F} (hexampleIds : (observations.map (·.exampleId)).Nodup) :
    p ∈ pairsOf corpus observations ↔ p.1 ∈ corpus ∧ p.2 ∈ observations ∧ p.2.exampleId = p.1.id := by
  have hlookup := fun (k : Text) (o : ScreeningObservation F) =>
    UniqueKey.find?_eq_some (f := fun o : ScreeningObservation F => o.exampleId) (k := k) (a := o)
      hexampleIds
  rw [pairsOf, List.mem_filterMap]
  constructor
  · rintro ⟨e, he, hp⟩
    obtain ⟨o, hfound, rfl⟩ := Option.map_eq_some_iff.mp hp
    exact ⟨(List.mem_insertionSort _).mp he, (hlookup e.id o).mp hfound⟩
  · rintro ⟨he, ho⟩
    refine ⟨p.1, (List.mem_insertionSort _).mpr he, ?_⟩
    rw [(hlookup p.1.id p.2).mpr ho]
    rfl

theorem Complete.paired (h : Complete numerics containsCredentialShape corpus observations)
    {o : ScreeningObservation F} (ho : o ∈ observations) :
    ∃ e, (e, o) ∈ pairsOf corpus observations := by
  have hbinding := (h.observed o ho).2
  unfold checkBinding at hbinding
  split at hbinding
  · cases hbinding
  · rename_i e hfound
    obtain ⟨he, hid⟩ := (UniqueKey.find?_eq_some
      (f := fun e : ScreeningCorpusExample => e.id) h.ids).mp hfound
    exact ⟨e, (mem_pairsOf h.exampleIds).mpr ⟨he, ho, hid.symm⟩⟩

end Asimposium.Screening
