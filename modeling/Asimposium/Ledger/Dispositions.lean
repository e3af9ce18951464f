import Asimposium.Js

/-!
# The disposition state machine

A disposition is an output of evidence and review events, computed by
`evaluateClaimTransition` from the current disposition, one event and
the ledger facts the transition rests on. A refusal carries the exact
unmet conditions and moves nothing.

`UnmetCondition` is the refusal vocabulary as data: one constructor per
message of the source, carrying the values the message interpolates;
`UnmetCondition.text` prints it.
-/

namespace Asimposium

/-! ## Vocabularies -/

inductive ClaimDisposition where
  | draft
  | «open»
  | malformed
  | disputed
  | corroborated
  | stronglySupported
  | refuted
  | reducedTo
  | withdrawn
  | superseded
deriving Repr, DecidableEq

namespace ClaimDisposition

def text : ClaimDisposition → String
  | draft => "draft"
  | «open» => "open"
  | malformed => "malformed"
  | disputed => "disputed"
  | corroborated => "corroborated"
  | stronglySupported => "strongly-supported"
  | refuted => "refuted"
  | reducedTo => "reduced-to"
  | withdrawn => "withdrawn"
  | superseded => "superseded"

end ClaimDisposition

inductive IndependenceTier where
  | T0
  | T1
  | T2
  | T3
deriving Repr, DecidableEq

namespace IndependenceTier

/-- `TIER_RANK`. -/
def rank : IndependenceTier → Nat
  | T0 => 0
  | T1 => 1
  | T2 => 2
  | T3 => 3

end IndependenceTier

def tierAtLeast (tier floor : IndependenceTier) : Bool :=
  floor.rank ≤ tier.rank

/-- `REVIEW_STATE_FACETS`. -/
inductive ReviewStateFacet where
  | unreviewed
  | reviewRequested
  | underReview
  | contested
  | independentlyChecked
deriving Repr, DecidableEq

inductive Finding where
  | support
  | dispute
  | statementDefect
deriving Repr, DecidableEq

/-- A review whose independence was computed and pinned at review time. -/
structure VerifiedReview where
  reviewId : String
  reviewerId : String
  tier : IndependenceTier
  crossFamily : Bool
  fullWriteUp : Bool
  finding : Finding
deriving Repr, DecidableEq

/-! ## Events and context -/

structure RefutingEvidence where
  evidenceId : String
  confirmedByIndependentReview : Bool
  unansweredHours : Rat
deriving Repr, DecidableEq

inductive ClaimEvent where
  | promote
  | reviewVerified (review : VerifiedReview)
  | refutationAttemptRecorded (attemptId : String)
  | evidenceRefuted (evidence : RefutingEvidence)
  | authorConcession
  | authorWithdrawal
  | reducedTo (targetClaimId : String)
  | newVersion (newVersion : Int)
  | operatorRepair (reason : String) (target : ClaimDisposition)
deriving Repr, DecidableEq

structure ClaimTransitionContext where
  recordedRefutationAttempts : Nat
  verifiedReviews : List VerifiedReview
  hasCertifiedArtifact : Bool
deriving Repr, DecidableEq

inductive UnmetCondition where
  | independentReview
  | refutationAttempt
  | certifiedOrTwoReviews
  | bestTier (got : Option IndependenceTier)
  | confirmedRefutation
  | standsUnanswered (hours : Rat)
  | repairReason
  | terminal (current : ClaimDisposition)
  | malformedExit
  | draftNewVersion
  | promoteFrom (current : ClaimDisposition)
  | statementDefectFrom (current : ClaimDisposition)
  | disputeFrom (current : ClaimDisposition)
  | supportFrom (current : ClaimDisposition)
  | attemptFrom (current : ClaimDisposition)
  | refutingEvidenceFrom (current : ClaimDisposition)
  | concessionFrom (current : ClaimDisposition)
  | withdrawalFrom (current : ClaimDisposition)
  | reducedToFrom (current : ClaimDisposition)
  | reducedToTarget
deriving Repr, DecidableEq

inductive TransitionResult where
  | allow (next : ClaimDisposition)
  | refuse (unmet : List UnmetCondition)
deriving Repr, DecidableEq

/-! ## Support accounting -/

/-- `LIVE_STATES.includes(current)`. -/
def isLive (current : ClaimDisposition) : Bool :=
  [.open, .disputed, .corroborated, .stronglySupported, .reducedTo].contains current

/-- `TERMINAL_STATES.includes(current)`. -/
def isTerminal (current : ClaimDisposition) : Bool :=
  [.refuted, .withdrawn, .superseded].contains current

/-- One iteration of `bestTier`. -/
def betterTier (best : Option IndependenceTier) (review : VerifiedReview) :
    Option IndependenceTier :=
  match best with
  | none => some review.tier
  | some tier => if tier.rank < review.tier.rank then some review.tier else some tier

def bestTier (reviews : List VerifiedReview) : Option IndependenceTier :=
  reviews.foldl betterTier none

/-- One row of the `firstById`/`conflictedIds` scan. -/
def scanReview (acc : List VerifiedReview × List String) (review : VerifiedReview) :
    List VerifiedReview × List String :=
  match acc.1.find? (·.reviewId == review.reviewId) with
  | none => (acc.1 ++ [review], acc.2)
  | some first => if first = review then acc else (acc.1, review.reviewId :: acc.2)

/-- Identical replayed rows count once; conflicting rows with one review
id count zero. -/
def distinctSupportingReviews (reviews : List VerifiedReview) : List VerifiedReview :=
  let (firstById, conflictedIds) := reviews.foldl scanReview ([], [])
  firstById.filter fun review =>
    review.finding == .support && !conflictedIds.contains review.reviewId

def corroborationUnmet (reviews : List VerifiedReview) (context : ClaimTransitionContext) :
    List UnmetCondition :=
  (if (distinctSupportingReviews reviews).any (tierAtLeast ·.tier .T1) then []
    else [.independentReview])
  ++ (if context.recordedRefutationAttempts < 1 then [.refutationAttempt] else [])

/-- The distinct people behind the cross-family full-write-up support. -/
def crossFamilyFullWriteUpReviewers (reviews : List VerifiedReview) : List String :=
  (((distinctSupportingReviews reviews).filter fun review =>
    review.crossFamily && review.fullWriteUp && tierAtLeast review.tier .T2).map
      (·.reviewerId)).dedup

def strongSupportUnmet (reviews : List VerifiedReview) (context : ClaimTransitionContext) :
    List UnmetCondition :=
  let best := bestTier (distinctSupportingReviews reviews)
  (if !context.hasCertifiedArtifact && (crossFamilyFullWriteUpReviewers reviews).length < 2 then
    [.certifiedOrTwoReviews] else [])
  ++ (match best with
    | none => [.bestTier none]
    | some tier => if tierAtLeast tier .T2 then [] else [.bestTier (some tier)])

def refutedUnmet (evidence : RefutingEvidence) : List UnmetCondition :=
  (if evidence.confirmedByIndependentReview then [] else [.confirmedRefutation])
  ++ (if evidence.unansweredHours < 72 then [.standsUnanswered evidence.unansweredHours] else [])

/-! ## The evaluator -/

/-- The routing of a verified review that has landed on a live claim. -/
def evaluateReview (current : ClaimDisposition) (review : VerifiedReview)
    (context : ClaimTransitionContext) : TransitionResult :=
  let reviews := context.verifiedReviews ++ [review]
  match review.finding with
  | .statementDefect =>
      if isLive current then .allow .malformed else .refuse [.statementDefectFrom current]
  | .dispute =>
      if isLive current then .allow .disputed else .refuse [.disputeFrom current]
  | .support =>
      if current = .open then
        let unmet := corroborationUnmet reviews context
        if unmet.isEmpty then .allow .corroborated else .refuse unmet
      else if current = .corroborated then
        let unmet := strongSupportUnmet reviews context
        if unmet.isEmpty then .allow .stronglySupported else .refuse unmet
      else .refuse [.supportFrom current]

def evaluateClaimTransition (current : ClaimDisposition) (event : ClaimEvent)
    (context : ClaimTransitionContext) : TransitionResult :=
  match event with
  | .operatorRepair reason target =>
      if isBlank reason then .refuse [.repairReason] else .allow target
  | event =>
    if isTerminal current then .refuse [.terminal current]
    else if current = .malformed then
      -- the only exit from malformed is a new claim version
      match event with
      | .newVersion _ => .allow .open
      | _ => .refuse [.malformedExit]
    else match event with
      | .operatorRepair _ target => .allow target
      | .newVersion _ =>
          if current = .draft then .refuse [.draftNewVersion] else .allow .open
      | .promote =>
          if current = .draft then .allow .open else .refuse [.promoteFrom current]
      | .reviewVerified review => evaluateReview current review context
      | .refutationAttemptRecorded _ =>
          if isLive current then .allow current else .refuse [.attemptFrom current]
      | .evidenceRefuted evidence =>
          if isLive current && current != .disputed then
            if (refutedUnmet evidence).isEmpty then .allow .refuted else .allow .disputed
          else if current = .disputed then
            let unmet := refutedUnmet evidence
            if unmet.isEmpty then .allow .refuted else .refuse unmet
          else .refuse [.refutingEvidenceFrom current]
      | .authorConcession =>
          if isLive current then .allow .refuted else .refuse [.concessionFrom current]
      | .authorWithdrawal =>
          if isLive current then .allow .withdrawn else .refuse [.withdrawalFrom current]
      | .reducedTo targetClaimId =>
          if !isLive current then .refuse [.reducedToFrom current]
          else if isBlank targetClaimId then .refuse [.reducedToTarget]
          -- reduction is bookkeeping: it never resolves a standing contest
          else .allow (if current = .disputed then .disputed else .reducedTo)

end Asimposium
