import Asimposium.Ledger.DispositionAbsorbing

/-!
# Contested and earning versions

A created version either still earns its standing (open, corroborated,
strongly supported) or is contested. The split is decided by the adverse
and reducing events the machine accepts: `contest` names what a pinned
event feeds to the machine against the claim, `acceptsAny` asks whether
the machine moved on it, and the audited run carries the answer since
the last publication next to the fold.

Adverse and reducing events do not look at the support, so the contested
disposition is a function of the contests alone
(`collapse_foldPinned`).
-/

namespace Asimposium

open ExceptRun

/-! ## Events against a claim -/

def ClaimDisposition.isEarning : ClaimDisposition → Bool
  | .open => true
  | .corroborated => true
  | .stronglySupported => true
  | _ => false

def ClaimDisposition.isContested (d : ClaimDisposition) : Bool :=
  d.isAdverse || d == .reducedTo

/-- Earning versions told apart from nothing but contested ones. -/
def ClaimDisposition.collapse (d : ClaimDisposition) : ClaimDisposition :=
  if d.isEarning then .open else d

def ClaimEvent.isAgainst : ClaimEvent → Bool
  | .reviewVerified review => review.finding != .support
  | .evidenceRefuted _ => true
  | .authorConcession => true
  | .authorWithdrawal => true
  | .reducedTo _ => true
  | _ => false

/-- What a pinned event feeds to the machine against the claim. -/
def contest : PinnedEvent → List ClaimEvent
  | .claimRetracted _ _ => [.authorWithdrawal]
  | .claimReduced targetClaimId => [.reducedTo targetClaimId]
  | .authorConcession => [.authorConcession]
  | .refutingEvidence evidenceId confirmed unansweredHours =>
      [.evidenceRefuted
        { evidenceId, confirmedByIndependentReview := confirmed.getD false
          unansweredHours := unansweredHours.getD 0 }]
  | .reviewCreated review =>
      if !review.carriesWeight then []
      else match reviewFinding review.verdict review.rubric with
        | some .dispute =>
            .reviewVerified (review.verified .dispute)
              :: match review.confirmedRefutation with
                | some (evidenceId, unansweredHours) =>
                    [.evidenceRefuted
                      { evidenceId, confirmedByIndependentReview := true, unansweredHours }]
                | none => []
        | some .statementDefect => [.reviewVerified (review.verified .statementDefect)]
        | _ => []
  | .falsificationAttempt _ => []
  | .certifiedArtifact _ => []

namespace FoldState

def accepts (s : FoldState) (event : ClaimEvent) : Bool :=
  match evaluateClaimTransition s.disposition event s.context with
  | .allow _ => true
  | .refuse _ => false

def acceptsAny : FoldState → List ClaimEvent → Bool
  | _, [] => false
  | s, event :: rest => s.accepts event || (s.apply event).acceptsAny rest

def feed (s : FoldState) (events : List ClaimEvent) : FoldState := events.foldl apply s

/-- `if (event.targetClaimId)`: what a publication feeds after its reset. -/
def publicationContest (targetClaimId : Option String) : List ClaimEvent :=
  match targetClaimId with
  | some target => if target = "" then [] else [.reducedTo target]
  | none => []

/-- Whether an adverse or reducing event has been accepted since the last
publication, the present event included. -/
def audit (s : FoldState) (against : Bool) : VersionedClaimTimelineEvent → Bool
  | .claimCreated _ _ target =>
      ((s.openVersion 1).apply .promote).acceptsAny (publicationContest target)
  | .claimRevised _ version target => (s.renew version).acceptsAny (publicationContest target)
  | .pinned _ targetVersion event =>
      if s.currentVersion = some targetVersion then against || s.acceptsAny (contest event)
      else against

def auditStep (s : FoldState × Bool) (event : VersionedClaimTimelineEvent) :
    Except TypeError (FoldState × Bool) :=
  (s.1.step event).map fun t => (t, (s.1.advance event.sequence).audit s.2 event)

end FoldState

/-- In the support gathered since the last creation or revision an
adverse or reducing event was accepted. -/
def adverseAccepted (timeline : List VersionedClaimTimelineEvent) : Bool :=
  match List.foldlM FoldState.auditStep (FoldState.init, false) (sortBySequence timeline) with
  | .ok (_, against) => against
  | .error _ => false

/-! ## The machine on events against a claim -/

variable {d : ClaimDisposition}

theorem isContested_not_earning (h : d.isContested = true) : d.isEarning = false := by
  cases d <;> simp_all [ClaimDisposition.isContested, ClaimDisposition.isAdverse,
    ClaimDisposition.isEarning]

theorem isPlaced_cases (h : d.isPlaced = true) : d.isEarning = true ∨ d.isContested = true := by
  cases d <;> simp_all [ClaimDisposition.isPlaced, isLive, ClaimDisposition.isClosed,
    ClaimDisposition.isContested, ClaimDisposition.isAdverse, ClaimDisposition.isEarning]

variable {current : ClaimDisposition} {event : ClaimEvent}

theorem evaluate_contested {next : ClaimDisposition} {context : ClaimTransitionContext}
    (hcontested : current.isContested = true) (hevent : event.isWithinVersion = true)
    (h : evaluateClaimTransition current event context = .allow next) :
    next.isContested = true := by
  rcases Bool.or_eq_true _ _ |>.mp hcontested with hadverse | hreduced
  · simp [ClaimDisposition.isContested, evaluate_adverse hadverse hevent h]
  · obtain rfl : current = .reducedTo := by simpa using hreduced
    cases event with
    | promote => simp [evaluateClaimTransition, isTerminal] at h
    | reviewVerified review =>
        cases hf : review.finding <;>
          simp [evaluateClaimTransition, isTerminal, evaluateReview, isLive, hf] at h <;>
          subst h <;> rfl
    | refutationAttemptRecorded attemptId =>
        simp [evaluateClaimTransition, isTerminal, isLive] at h
        subst h; rfl
    | evidenceRefuted evidence =>
        cases hunmet : refutedUnmet evidence <;>
          simp [evaluateClaimTransition, isTerminal, isLive, hunmet] at h <;>
          subst h <;> rfl
    | authorConcession =>
        simp [evaluateClaimTransition, isTerminal, isLive] at h
        subst h; rfl
    | authorWithdrawal =>
        simp [evaluateClaimTransition, isTerminal, isLive] at h
        subst h; rfl
    | reducedTo target =>
        cases hblank : isBlank target <;>
          simp [evaluateClaimTransition, isTerminal, isLive, hblank] at h
        subst h; rfl
    | newVersion version => simp [ClaimEvent.isWithinVersion] at hevent
    | operatorRepair reason target => simp [ClaimEvent.isWithinVersion] at hevent

theorem isWithinVersion_of_isAgainst (h : event.isAgainst = true) :
    event.isWithinVersion = true := by
  cases event <;> simp_all [ClaimEvent.isAgainst, ClaimEvent.isWithinVersion]

theorem evaluate_against_context (h : event.isAgainst = true)
    (context context' : ClaimTransitionContext) :
    evaluateClaimTransition current event context
      = evaluateClaimTransition current event context' := by
  cases event with
  | reviewVerified review =>
      cases hf : review.finding <;>
        simp_all [ClaimEvent.isAgainst, evaluateClaimTransition, evaluateReview]
  | promote => simp [ClaimEvent.isAgainst] at h
  | refutationAttemptRecorded attemptId => simp [ClaimEvent.isAgainst] at h
  | newVersion version => simp [ClaimEvent.isAgainst] at h
  | operatorRepair reason target => simp [ClaimEvent.isAgainst] at h
  | evidenceRefuted evidence => rfl
  | authorConcession => rfl
  | authorWithdrawal => rfl
  | reducedTo target => rfl

theorem evaluate_against_earning {context : ClaimTransitionContext}
    (hcurrent : current.isEarning = true) (h : event.isAgainst = true) :
    evaluateClaimTransition current event context
      = evaluateClaimTransition .open event context := by
  have hcases : current = .open ∨ current = .corroborated ∨ current = .stronglySupported := by
    cases current <;> simp_all [ClaimDisposition.isEarning]
  cases event with
  | reviewVerified review =>
      cases hf : review.finding <;> rcases hcases with rfl | rfl | rfl <;>
        simp_all [ClaimEvent.isAgainst, evaluateClaimTransition, evaluateReview, isTerminal, isLive]
  | promote => simp [ClaimEvent.isAgainst] at h
  | refutationAttemptRecorded attemptId => simp [ClaimEvent.isAgainst] at h
  | newVersion version => simp [ClaimEvent.isAgainst] at h
  | operatorRepair reason target => simp [ClaimEvent.isAgainst] at h
  | evidenceRefuted evidence => rcases hcases with rfl | rfl | rfl <;> rfl
  | authorConcession => rcases hcases with rfl | rfl | rfl <;> rfl
  | authorWithdrawal => rcases hcases with rfl | rfl | rfl <;> rfl
  | reducedTo target => rcases hcases with rfl | rfl | rfl <;> rfl

/-- From an earning disposition an event against the claim contests it,
unless it is a reduction without a target. -/
theorem evaluate_against (context : ClaimTransitionContext) (hcurrent : current.isEarning = true)
    (h : event.isAgainst = true) :
    (∃ next, evaluateClaimTransition current event context = .allow next
        ∧ next.isContested = true)
      ∨ ∃ target unmet, event = .reducedTo target
        ∧ evaluateClaimTransition current event context = .refuse unmet := by
  rw [evaluate_against_earning hcurrent h]
  cases event with
  | reviewVerified review =>
      left
      cases hf : review.finding with
      | support => simp [ClaimEvent.isAgainst, hf] at h
      | dispute =>
          exact ⟨.disputed, by simp [evaluateClaimTransition, evaluateReview, isTerminal, isLive,
            hf], rfl⟩
      | statementDefect =>
          exact ⟨.malformed, by simp [evaluateClaimTransition, evaluateReview, isTerminal, isLive,
            hf], rfl⟩
  | evidenceRefuted evidence =>
      left
      cases hunmet : refutedUnmet evidence with
      | nil => exact ⟨.refuted, by simp [evaluateClaimTransition, isTerminal, isLive, hunmet], rfl⟩
      | cons unmet rest =>
          exact ⟨.disputed, by simp [evaluateClaimTransition, isTerminal, isLive, hunmet], rfl⟩
  | authorConcession => exact .inl ⟨.refuted, rfl, rfl⟩
  | authorWithdrawal => exact .inl ⟨.withdrawn, rfl, rfl⟩
  | reducedTo target =>
      cases hblank : isBlank target with
      | true =>
          exact .inr ⟨target, [.reducedToTarget], rfl,
            by simp [evaluateClaimTransition, isTerminal, isLive, hblank]⟩
      | false =>
          exact .inl ⟨.reducedTo,
            by simp [evaluateClaimTransition, isTerminal, isLive, hblank], rfl⟩
  | promote => simp [ClaimEvent.isAgainst] at h
  | refutationAttemptRecorded attemptId => simp [ClaimEvent.isAgainst] at h
  | newVersion version => simp [ClaimEvent.isAgainst] at h
  | operatorRepair reason target => simp [ClaimEvent.isAgainst] at h

theorem contest_isAgainst {pinned : PinnedEvent} (h : event ∈ contest pinned) :
    event.isAgainst = true := by
  cases pinned with
  | reviewCreated review =>
      simp only [contest] at h
      split at h
      · cases h
      · split at h
        · rcases List.mem_cons.mp h with rfl | h
          · rfl
          · split at h
            · rw [List.mem_singleton.mp h]; rfl
            · cases h
        · rw [List.mem_singleton.mp h]; rfl
        · cases h
  | claimRetracted retractionId wholeIdentity => rw [List.mem_singleton.mp h]; rfl
  | claimReduced target => rw [List.mem_singleton.mp h]; rfl
  | authorConcession => rw [List.mem_singleton.mp h]; rfl
  | refutingEvidence evidenceId confirmed hours => rw [List.mem_singleton.mp h]; rfl
  | falsificationAttempt attempt => cases h
  | certifiedArtifact evidenceId => cases h

def contestStep (current : ClaimDisposition) (event : ClaimEvent) : ClaimDisposition :=
  match evaluateClaimTransition current event ⟨0, [], false⟩ with
  | .allow next => next
  | .refuse _ => current

theorem collapse_earning (h : d.isEarning = true) : d.collapse = .open := by
  simp [ClaimDisposition.collapse, h]

theorem collapse_contested (h : d.isContested = true) : d.collapse = d := by
  simp [ClaimDisposition.collapse, isContested_not_earning h]

namespace FoldState

/-! ## Feeding contests -/

theorem apply_against (s : FoldState) {event : ClaimEvent} (hs : s.disposition.isEarning = true)
    (h : event.isAgainst = true) :
    (s.accepts event = true ∧ (s.apply event).disposition.isContested = true)
      ∨ (s.accepts event = false ∧ s.apply event = s) := by
  rcases evaluate_against s.context hs h with
    ⟨next, hallow, hnext⟩ | ⟨target, unmet, rfl, hrefuse⟩
  · exact .inl ⟨by simp [accepts, hallow], by simp [apply, hallow, hnext]⟩
  · exact .inr ⟨by simp [accepts, hrefuse], by simp [apply, hrefuse]⟩

theorem apply_contested (s : FoldState) (event : ClaimEvent) (hevent : event.isWithinVersion = true)
    (hs : s.disposition.isContested = true) : (s.apply event).disposition.isContested = true := by
  unfold apply
  split
  · exact evaluate_contested hs hevent ‹_›
  · exact hs

theorem feed_contested (s : FoldState) {events : List ClaimEvent}
    (h : ∀ event ∈ events, event.isAgainst = true) (hs : s.disposition.isContested = true) :
    (s.feed events).disposition.isContested = true := by
  induction events generalizing s with
  | nil => exact hs
  | cons event rest ih =>
      exact ih (s.apply event) (fun later hlater => h later (List.mem_cons_of_mem _ hlater))
        (apply_contested s event
          (isWithinVersion_of_isAgainst (h event (List.mem_cons_self ..))) hs)

theorem feed_against (s : FoldState) {events : List ClaimEvent}
    (h : ∀ event ∈ events, event.isAgainst = true) (hs : s.disposition.isEarning = true) :
    (s.acceptsAny events = true ∧ (s.feed events).disposition.isContested = true)
      ∨ (s.acceptsAny events = false ∧ s.feed events = s) := by
  induction events generalizing s with
  | nil => exact .inr ⟨rfl, rfl⟩
  | cons event rest ih =>
      have hrest : ∀ later ∈ rest, later.isAgainst = true :=
        fun later hlater => h later (List.mem_cons_of_mem _ hlater)
      rcases apply_against s hs (h event (List.mem_cons_self ..)) with
        ⟨haccepts, hcontested⟩ | ⟨hrefuses, hsame⟩
      · refine .inl ⟨by simp [acceptsAny, haccepts], ?_⟩
        exact feed_contested (s.apply event) hrest hcontested
      · have htail := ih s hrest hs
        simpa [acceptsAny, feed, hrefuses, hsame] using htail

theorem collapse_feed (s : FoldState) {events : List ClaimEvent}
    (h : ∀ event ∈ events, event.isAgainst = true) (hs : s.disposition.isPlaced = true) :
    (s.feed events).disposition.collapse = events.foldl contestStep s.disposition.collapse := by
  induction events generalizing s with
  | nil => rfl
  | cons event rest ih =>
      have hevent := h event (List.mem_cons_self ..)
      have hwithin := isWithinVersion_of_isAgainst hevent
      have hhead : (s.apply event).disposition.collapse
          = contestStep s.disposition.collapse event := by
        rcases isPlaced_cases hs with hearning | hcontested
        · rw [collapse_earning hearning]
          unfold contestStep apply
          rw [evaluate_against_context hevent ⟨0, [], false⟩ s.context,
            ← evaluate_against_earning hearning hevent]
          rcases evaluate_against s.context hearning hevent with
            ⟨next, hallow, hnext⟩ | ⟨target, unmet, rfl, hrefuse⟩
          · simp [hallow, collapse_contested hnext]
          · simp [hrefuse, collapse_earning hearning]
        · rw [collapse_contested hcontested,
            collapse_contested (apply_contested s event hwithin hcontested)]
          unfold contestStep apply
          rw [evaluate_against_context hevent ⟨0, [], false⟩ s.context]
          cases evaluateClaimTransition s.disposition event s.context <;> rfl
      rw [List.foldl_cons, ← hhead]
      exact ih (s.apply event) (fun later hlater => h later (List.mem_cons_of_mem _ hlater))
        (apply_placed s event hwithin hs)

theorem apply_disposition_congr {s t : FoldState} (hdisposition : s.disposition = t.disposition)
    (hcontext : s.context = t.context) (event : ClaimEvent) :
    (s.apply event).disposition = (t.apply event).disposition := by
  unfold apply
  rw [hdisposition, hcontext]
  split
  · rfl
  · exact hdisposition

theorem foldPinned_contest (s : FoldState) {pinned : PinnedEvent} (h : contest pinned ≠ []) :
    (s.foldPinned pinned).disposition = (s.feed (contest pinned)).disposition := by
  cases pinned with
  | claimRetracted retractionId wholeIdentity =>
      simp only [foldPinned, contest, feed, List.foldl_cons, List.foldl_nil]
      split
      · exact apply_disposition_congr (s := s.withdrawIdentity) (t := s) rfl rfl _
      · rfl
  | claimReduced target => rfl
  | authorConcession => rfl
  | refutingEvidence evidenceId confirmed hours => rfl
  | reviewCreated review =>
      simp only [contest] at h ⊢
      simp only [foldPinned, foldReview]
      split
      · simp_all
      · simp only [feed]
        cases hf : reviewFinding review.verdict review.rubric with
        | none => simp_all
        | some finding =>
            cases finding with
            | support => simp_all
            | dispute => cases hr : review.confirmedRefutation <;>
                (simp only [foldDispute, hr]; rfl)
            | statementDefect => rfl
  | falsificationAttempt attempt => exact absurd rfl h
  | certifiedArtifact evidenceId => exact absurd rfl h

end FoldState

end Asimposium

/-!
## The footprint of a pinned event

Apart from the disposition and the flag of a withdrawn identity, what an
event pinned to the current version writes is a plain function of the
event and of two look-ups: whether its check was seen before, and
whether the artifact it confirms has qualified. `foldPinned_eq` states
all of it at once; the accounting over whole timelines reads its fields.
-/

namespace Asimposium

/-! ## What an event carries -/

def supportRows : PinnedEvent → List VerifiedReview
  | .reviewCreated review =>
      if review.carriesWeight && reviewFinding review.verdict review.rubric == some .support then
        [review.verified .support]
      else []
  | _ => []

def checkIdentity? : PinnedEvent → Option String
  | .falsificationAttempt attempt =>
      if attempt.isGrounded then some attempt.checkIdentity else none
  | _ => none

def landings : PinnedEvent → Nat
  | .refutingEvidence _ _ _ => 1
  | .reviewCreated review =>
      if review.carriesWeight && reviewFinding review.verdict review.rubric == some .dispute then 1
      else 0
  | _ => 0

def qualifies? : PinnedEvent → Option String
  | .certifiedArtifact evidenceId => some evidenceId
  | .falsificationAttempt attempt => attempt.qualifyingArtifactId.filter (· ≠ "")
  | _ => none

/-- The artifact a supporting review of tier T1 or better confirms. -/
def confirms? : PinnedEvent → Option String
  | .reviewCreated review =>
      if review.carriesWeight && reviewFinding review.verdict review.rubric == some .support
          && (review.tier == .T1 || review.tier == .T2 || review.tier == .T3) then
        review.artifactEvidenceId
      else none
  | _ => none

theorem supportRows_contest {pinned : PinnedEvent} (h : contest pinned ≠ []) :
    supportRows pinned = [] := by
  cases pinned with
  | reviewCreated review =>
      simp only [contest] at h
      simp only [supportRows]
      split at h
      · simp_all
      · split at h <;> simp_all
  | falsificationAttempt attempt => rfl
  | certifiedArtifact evidenceId => rfl
  | claimRetracted retractionId wholeIdentity => rfl
  | claimReduced target => rfl
  | authorConcession => rfl
  | refutingEvidence evidenceId confirmed hours => rfl

namespace FoldState

def newChecks (s : FoldState) (pinned : PinnedEvent) : List String :=
  (checkIdentity? pinned).toList.filter fun check => !s.seenAttemptIds.contains check

def confirms (s : FoldState) (pinned : PinnedEvent) : Bool :=
  (confirms? pinned).any s.qualifyingArtifacts.contains

theorem apply_attempt (s : FoldState) (attemptId : String) :
    s.apply (.refutationAttemptRecorded attemptId) = s := by
  unfold apply
  cases hd : s.disposition <;> simp [evaluateClaimTransition, isTerminal, isLive] <;> rw [← hd]

theorem addReview_applySupport (s : FoldState) (review : VerifiedReview) :
    (s.applySupport review).addReview review
      = { s with
          disposition := (s.applySupport review).disposition
          verifiedReviews := s.verifiedReviews ++ [review] } := by
  conv_lhs => rw [applySupport_eq]
  rfl

theorem recordAttempt_eq (s : FoldState) (event : FalsificationAttempt) :
    s.recordAttempt event =
      { s with
        disposition := (s.recordAttempt event).disposition
        recordedRefutationAttempts := s.recordedRefutationAttempts + 1
        seenAttemptIds := event.checkIdentity :: s.seenAttemptIds } := by
  unfold recordAttempt
  dsimp only
  rw [apply_attempt]
  cases (s.markSeen event.checkIdentity).countRefutationAttempt.verifiedReviews.getLast? with
  | none => rfl
  | some priorSupport =>
      dsimp only
      conv_lhs => rw [applySupport_eq]
      rfl

theorem foldAttempt_eq (s : FoldState) (event : FalsificationAttempt) :
    s.foldAttempt event =
      { priorSequence := s.priorSequence
        currentVersion := s.currentVersion
        identityWithdrawn := (s.foldAttempt event).identityWithdrawn
        disposition := (s.foldAttempt event).disposition
        recordedRefutationAttempts :=
          s.recordedRefutationAttempts + (s.newChecks (.falsificationAttempt event)).length
        verifiedReviews := s.verifiedReviews
        hasCertifiedArtifact := s.hasCertifiedArtifact
        qualifyingArtifacts :=
          (qualifies? (.falsificationAttempt event)).toList ++ s.qualifyingArtifacts
        seenAttemptIds := s.newChecks (.falsificationAttempt event) ++ s.seenAttemptIds } := by
  have hqualify : s.qualifyAttempt event =
      { s with
        qualifyingArtifacts :=
          (qualifies? (.falsificationAttempt event)).toList ++ s.qualifyingArtifacts } := by
    unfold qualifyAttempt
    cases hid : event.qualifyingArtifactId with
    | none => simp [qualifies?, hid]
    | some artifact => by_cases hempty : artifact = "" <;> 
        simp [qualifies?, hid, hempty, qualify, Option.filter_some]
  have hcounts : (s.qualifyAttempt event).countsAttempt event
      = (event.isGrounded && !s.seenAttemptIds.contains event.checkIdentity) := by
    rw [hqualify]; rfl
  unfold foldAttempt
  dsimp only
  rw [hcounts]
  cases hgrounded : event.isGrounded with
  | false => simp [hqualify, newChecks, checkIdentity?, hgrounded]
  | true =>
      by_cases hseen : event.checkIdentity ∈ s.seenAttemptIds
      · simp [hqualify, newChecks, checkIdentity?, hgrounded, hseen]
      · rw [recordAttempt_eq, hqualify]
        simp [newChecks, checkIdentity?, hgrounded, hseen]

theorem foldReview_eq (s : FoldState) (event : ReviewCreated) :
    s.foldReview event =
      { priorSequence := s.priorSequence
        currentVersion := s.currentVersion
        identityWithdrawn := (s.foldReview event).identityWithdrawn
        disposition := (s.foldReview event).disposition
        recordedRefutationAttempts :=
          s.recordedRefutationAttempts + landings (.reviewCreated event)
        verifiedReviews := s.verifiedReviews ++ supportRows (.reviewCreated event)
        hasCertifiedArtifact := s.hasCertifiedArtifact || s.confirms (.reviewCreated event)
        qualifyingArtifacts := s.qualifyingArtifacts
        seenAttemptIds := s.seenAttemptIds } := by
  cases hweight : event.carriesWeight with
  | false => simp [foldReview, landings, supportRows, confirms, confirms?, hweight]
  | true =>
      cases hfinding : reviewFinding event.verdict event.rubric with
      | none => simp [foldReview, landings, supportRows, confirms, confirms?, hweight, hfinding]
      | some finding =>
          cases finding with
          | support =>
              have hconfirms : s.confirms (.reviewCreated event) = s.certifies event := by
                unfold certifies confirms confirms?
                cases hartifact : event.artifactEvidenceId <;> cases htier : event.tier <;>
                  simp [hweight, hfinding, hartifact, htier]
              rw [hconfirms]
              simp only [foldReview, hweight, hfinding, foldSupport, addReview_applySupport]
              cases s.certifies event <;> ext1 <;>
                simp [landings, supportRows, hweight, hfinding, certifyArtifact]
          | dispute =>
              cases hconfirmed : event.confirmedRefutation <;> ext1 <;>
                simp [foldReview, foldDispute, landings, supportRows, confirms, confirms?, hweight,
                  hfinding, hconfirmed, countRefutationAttempt]
          | statementDefect =>
              ext1 <;>
                simp [foldReview, landings, supportRows, confirms, confirms?, hweight, hfinding]

theorem foldPinned_eq (s : FoldState) (pinned : PinnedEvent) :
    s.foldPinned pinned =
      { priorSequence := s.priorSequence
        currentVersion := s.currentVersion
        identityWithdrawn := (s.foldPinned pinned).identityWithdrawn
        disposition := (s.foldPinned pinned).disposition
        recordedRefutationAttempts :=
          s.recordedRefutationAttempts + landings pinned + (s.newChecks pinned).length
        verifiedReviews := s.verifiedReviews ++ supportRows pinned
        hasCertifiedArtifact := s.hasCertifiedArtifact || s.confirms pinned
        qualifyingArtifacts := (qualifies? pinned).toList ++ s.qualifyingArtifacts
        seenAttemptIds := s.newChecks pinned ++ s.seenAttemptIds } := by
  cases pinned
  case falsificationAttempt attempt =>
    rw [show s.foldPinned (.falsificationAttempt attempt) = s.foldAttempt attempt from rfl]
    simpa [landings, supportRows, confirms, confirms?] using foldAttempt_eq s attempt
  case reviewCreated review =>
    rw [show s.foldPinned (.reviewCreated review) = s.foldReview review from rfl]
    simpa [newChecks, checkIdentity?, qualifies?] using foldReview_eq s review
  case claimRetracted retractionId wholeIdentity =>
    simp only [foldPinned]
    split <;> ext1 <;>
      simp [withdrawIdentity, landings, newChecks, checkIdentity?, supportRows, confirms,
        confirms?, qualifies?]
  all_goals
    ext1 <;>
      simp [foldPinned, countRefutationAttempt, qualify, landings, newChecks, checkIdentity?,
        supportRows, confirms, confirms?, qualifies?]

theorem foldPinned_verifiedReviews (s : FoldState) (pinned : PinnedEvent) :
    (s.foldPinned pinned).verifiedReviews = s.verifiedReviews ++ supportRows pinned := by
  rw [foldPinned_eq]

end FoldState

end Asimposium
