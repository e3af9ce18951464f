import Mathlib.Data.List.Sort
import Asimposium.Ledger.Dispositions
import Asimposium.Lib.ExceptRun

/-!
# The version-pinned claim fold

`computeCurrentClaimDisposition` folds the ledger timeline of one claim
through the state machine. Publications (creation, revision) open a
version and reset its support; every other event is pinned to a version
and is skipped unless that version is current. The closed-over variables
of the source are the fields of `FoldState`; its `Map`s and `Set`s are
lists used only through membership.
-/

namespace Asimposium

/-! ## Timeline events -/

/-- A `review-created` event; the finding is computed, not recorded. -/
structure ReviewCreated where
  carriesWeight : Bool
  verdict : String
  rubric : Option (List String)
  reviewId : String
  reviewerId : String
  tier : IndependenceTier
  crossFamily : Bool
  fullWriteUp : Bool
  artifactEvidenceId : Option String
  /-- Evidence id and unanswered hours. -/
  confirmedRefutation : Option (String × Rat)
deriving Repr, DecidableEq

/-- A `falsification-attempt` event. -/
structure FalsificationAttempt where
  attemptId : String
  checkFingerprint : Option String
  attemptedFalsifier : String
  capableOfFailure : String
  result : String
  evidenceReferences : Option (List String)
  qualifyingArtifactId : Option String
deriving Repr, DecidableEq

/-- The events that carry a `targetVersion`. -/
inductive PinnedEvent where
  | claimRetracted (retractionId : String) (wholeIdentity : Option Bool)
  | claimReduced (targetClaimId : String)
  | authorConcession
  | reviewCreated (review : ReviewCreated)
  | refutingEvidence (evidenceId : String) (confirmedByIndependentReview : Option Bool)
      (unansweredHours : Option Rat)
  | falsificationAttempt (attempt : FalsificationAttempt)
  | certifiedArtifact (evidenceId : String)
deriving Repr, DecidableEq

inductive VersionedClaimTimelineEvent where
  | claimCreated (sequence version : Int) (targetClaimId : Option String)
  | claimRevised (sequence version : Int) (targetClaimId : Option String)
  | pinned (sequence targetVersion : Int) (event : PinnedEvent)
deriving Repr, DecidableEq

namespace VersionedClaimTimelineEvent

def sequence : VersionedClaimTimelineEvent → Int
  | claimCreated sequence .. => sequence
  | claimRevised sequence .. => sequence
  | pinned sequence .. => sequence

/-- `event.version` of a publication, `event.targetVersion` of the rest. -/
def version : VersionedClaimTimelineEvent → Int
  | claimCreated _ version _ => version
  | claimRevised _ version _ => version
  | pinned _ targetVersion _ => targetVersion

end VersionedClaimTimelineEvent

structure TypeError where
  message : String
deriving Repr, DecidableEq

/-! ## The fold state -/

@[ext] structure FoldState where
  priorSequence : Int
  currentVersion : Option Int
  identityWithdrawn : Bool
  disposition : ClaimDisposition
  recordedRefutationAttempts : Nat
  verifiedReviews : List VerifiedReview
  hasCertifiedArtifact : Bool
  qualifyingArtifacts : List String
  seenAttemptIds : List String
deriving Repr, DecidableEq

def FoldState.init : FoldState where
  priorSequence := 0
  currentVersion := none
  identityWithdrawn := false
  disposition := .draft
  recordedRefutationAttempts := 0
  verifiedReviews := []
  hasCertifiedArtifact := false
  qualifyingArtifacts := []
  seenAttemptIds := []

namespace FoldState

def context (s : FoldState) : ClaimTransitionContext where
  recordedRefutationAttempts := s.recordedRefutationAttempts
  verifiedReviews := s.verifiedReviews
  hasCertifiedArtifact := s.hasCertifiedArtifact

/-- Feed one event to the machine; a refused transition is not a move. -/
def apply (s : FoldState) (event : ClaimEvent) : FoldState :=
  match evaluateClaimTransition s.disposition event s.context with
  | .allow next => { s with disposition := next }
  | .refuse _ => s

/-- One landing can satisfy both gates, so it is evaluated to the fixed
point. -/
def applySupport (s : FoldState) (review : VerifiedReview) : FoldState :=
  let s := s.apply (.reviewVerified review)
  if s.disposition = .corroborated then s.apply (.reviewVerified review) else s

/-- `if (event.targetClaimId) apply({ kind: "reduced-to", … })`. -/
def applyReduction (s : FoldState) (targetClaimId : Option String) : FoldState :=
  match targetClaimId with
  | some target => if target = "" then s else s.apply (.reducedTo target)
  | none => s

/-- The reset both publications make of the support of the old version. -/
def openVersion (s : FoldState) (version : Int) : FoldState :=
  { s with
    currentVersion := some version
    recordedRefutationAttempts := 0
    verifiedReviews := []
    hasCertifiedArtifact := false
    qualifyingArtifacts := []
    seenAttemptIds := [] }

end FoldState

def reviewFinding (verdict : String) (rubric : Option (List String)) : Option Finding :=
  let defective : Bool := match rubric with
    | some entries =>
        entries.contains "statement-defect" || entries.contains "statement-fails-review"
    | none => false
  if defective then some .statementDefect
  else if verdict = "confirm" || verdict = "reproduces" then some .support
  else if verdict = "refute" || verdict = "fails-to-reproduce" then some .dispute
  else none

/-- `{ ...event.review, finding }`. -/
def ReviewCreated.verified (event : ReviewCreated) (finding : Finding) : VerifiedReview where
  reviewId := event.reviewId
  reviewerId := event.reviewerId
  tier := event.tier
  crossFamily := event.crossFamily
  fullWriteUp := event.fullWriteUp
  finding := finding

/-- The attempt names a falsifier, could have failed and survived on
evidence it refers to. -/
def FalsificationAttempt.isGrounded (event : FalsificationAttempt) : Bool :=
  !isBlank event.attemptedFalsifier && !isBlank event.capableOfFailure
    && event.result == "survived"
    && (match event.evidenceReferences with | some refs => !refs.isEmpty | none => false)

/-- `event.checkFingerprint ?? event.attemptId`. -/
def FalsificationAttempt.checkIdentity (event : FalsificationAttempt) : String :=
  event.checkFingerprint.getD event.attemptId

/-! ## One event -/

namespace FoldState

def withdrawIdentity (s : FoldState) : FoldState := { s with identityWithdrawn := true }

def countRefutationAttempt (s : FoldState) : FoldState :=
  { s with recordedRefutationAttempts := s.recordedRefutationAttempts + 1 }

def addReview (s : FoldState) (review : VerifiedReview) : FoldState :=
  { s with verifiedReviews := s.verifiedReviews ++ [review] }

def certifyArtifact (s : FoldState) : FoldState := { s with hasCertifiedArtifact := true }

def qualify (s : FoldState) (artifact : String) : FoldState :=
  { s with qualifyingArtifacts := artifact :: s.qualifyingArtifacts }

def markSeen (s : FoldState) (checkIdentity : String) : FoldState :=
  { s with seenAttemptIds := checkIdentity :: s.seenAttemptIds }

/-- The review confirms an artifact that already qualified. -/
def certifies (s : FoldState) (event : ReviewCreated) : Bool :=
  match event.artifactEvidenceId with
  | some artifact =>
      s.qualifyingArtifacts.contains artifact
        && (event.tier == .T1 || event.tier == .T2 || event.tier == .T3)
  | none => false

/-- A supporting review: the certificate it confirms counts before the
support is evaluated, its own row only afterwards. -/
def foldSupport (s : FoldState) (event : ReviewCreated) : FoldState :=
  let s := if s.certifies event then s.certifyArtifact else s
  (s.applySupport (event.verified .support)).addReview (event.verified .support)

def foldDispute (s : FoldState) (event : ReviewCreated) : FoldState :=
  let s := s.apply (.reviewVerified (event.verified .dispute))
  let s := match event.confirmedRefutation with
    | some (evidenceId, unansweredHours) =>
        s.apply (.evidenceRefuted
          { evidenceId, confirmedByIndependentReview := true, unansweredHours })
    | none => s
  s.countRefutationAttempt

def foldReview (s : FoldState) (event : ReviewCreated) : FoldState :=
  if !event.carriesWeight then s
  else match reviewFinding event.verdict event.rubric with
    | none => s
    | some .support => s.foldSupport event
    | some .dispute => s.foldDispute event
    | some .statementDefect =>
        s.apply (.reviewVerified (event.verified .statementDefect))

/-- The attempt can advance standing, unless it repeats a check. -/
def countsAttempt (s : FoldState) (event : FalsificationAttempt) : Bool :=
  event.isGrounded && !s.seenAttemptIds.contains event.checkIdentity

/-- A grounded surviving check. It can arrive after the reviews, so the
standing support is evaluated again; no review is invented for it. -/
def recordAttempt (s : FoldState) (event : FalsificationAttempt) : FoldState :=
  let s := s.markSeen event.checkIdentity
  let s := (s.apply (.refutationAttemptRecorded event.attemptId)).countRefutationAttempt
  match s.verifiedReviews.getLast? with
  | some priorSupport => s.applySupport priorSupport
  | none => s

/-- `if (event.qualifyingArtifactId) qualifyingArtifacts.add(…)`. -/
def qualifyAttempt (s : FoldState) (event : FalsificationAttempt) : FoldState :=
  match event.qualifyingArtifactId with
  | some artifact => if artifact = "" then s else s.qualify artifact
  | none => s

def foldAttempt (s : FoldState) (event : FalsificationAttempt) : FoldState :=
  let s := s.qualifyAttempt event
  if s.countsAttempt event then s.recordAttempt event else s

def foldPinned (s : FoldState) (event : PinnedEvent) : FoldState :=
  match event with
  | .claimRetracted _ wholeIdentity =>
      let s := if wholeIdentity ≠ some false then s.withdrawIdentity else s
      s.apply .authorWithdrawal
  | .claimReduced targetClaimId => s.apply (.reducedTo targetClaimId)
  | .authorConcession => s.apply .authorConcession
  | .certifiedArtifact evidenceId => s.qualify evidenceId
  | .falsificationAttempt attempt => s.foldAttempt attempt
  | .refutingEvidence evidenceId confirmed unansweredHours =>
      (s.apply (.evidenceRefuted
        { evidenceId, confirmedByIndependentReview := confirmed.getD false
          unansweredHours := unansweredHours.getD 0 })).countRefutationAttempt
  | .reviewCreated review => s.foldReview review

def create (s : FoldState) (targetClaimId : Option String) : FoldState :=
  ((s.openVersion 1).apply .promote).applyReduction targetClaimId

/-- A revision gives fresh standing: refutation settles an exact
statement, only the withdrawal of the whole identity outlives it. -/
def renew (s : FoldState) (version : Int) : FoldState :=
  if s.identityWithdrawn then { s with disposition := .withdrawn }
  else if s.disposition = .refuted || s.disposition = .withdrawn then
    { s with disposition := .open }
  else s.apply (.newVersion version)

def revise (s : FoldState) (version : Int) (targetClaimId : Option String) : FoldState :=
  ((s.renew version).applyReduction targetClaimId).openVersion version

/-- The strict safe-integer order every event is checked for. -/
def admits (s : FoldState) (event : VersionedClaimTimelineEvent) : Bool :=
  isSafeInteger event.sequence && s.priorSequence < event.sequence
    && isSafeInteger event.version && 1 ≤ event.version

def advance (s : FoldState) (sequence : Int) : FoldState :=
  { s with priorSequence := sequence }

def step (s : FoldState) (event : VersionedClaimTimelineEvent) : Except TypeError FoldState :=
  if !s.admits event then
    .error ⟨"claim disposition timeline is not a strict safe-integer sequence"⟩
  else
    let s := s.advance event.sequence
    match event with
    | .claimCreated _ version targetClaimId =>
        if s.currentVersion.isSome || version ≠ 1 then
          .error ⟨"claim disposition timeline has an invalid creation version"⟩
        else .ok (s.create targetClaimId)
    | .claimRevised _ version targetClaimId =>
        if s.currentVersion.map (· + 1) ≠ some version then
          .error ⟨"claim disposition timeline has a non-contiguous revision"⟩
        else .ok (s.revise version targetClaimId)
    | .pinned _ targetVersion event =>
        -- old and future pins never move the current head
        if s.currentVersion = some targetVersion then .ok (s.foldPinned event) else .ok s

def run : FoldState → List VersionedClaimTimelineEvent → Except TypeError FoldState :=
  List.foldlM step

end FoldState

structure CurrentClaimDispositionFold where
  disposition : ClaimDisposition
  currentVersion : Option Int
  context : ClaimTransitionContext
deriving Repr, DecidableEq

def FoldState.result (s : FoldState) : CurrentClaimDispositionFold where
  disposition := s.disposition
  currentVersion := s.currentVersion
  context := s.context

/-- `[...timeline].sort((left, right) => left.sequence - right.sequence)`,
a stable sort. -/
def sortBySequence (timeline : List VersionedClaimTimelineEvent) :
    List VersionedClaimTimelineEvent :=
  timeline.insertionSort fun left right => left.sequence ≤ right.sequence

def computeCurrentClaimDisposition (timeline : List VersionedClaimTimelineEvent) :
    Except TypeError CurrentClaimDispositionFold :=
  (FoldState.init.run (sortBySequence timeline)).map FoldState.result

/-- The events a pinned timeline event feeds to the machine: neither a new
version nor an operator repair. -/
def ClaimEvent.isWithinVersion : ClaimEvent → Bool
  | .newVersion _ => false
  | .operatorRepair _ _ => false
  | _ => true

/-! ## What each move leaves untouched -/

namespace FoldState

theorem apply_eq (s : FoldState) (event : ClaimEvent) :
    s.apply event = { s with disposition := (s.apply event).disposition } := by
  unfold apply; split <;> rfl

theorem applySupport_eq (s : FoldState) (review : VerifiedReview) :
    s.applySupport review = { s with disposition := (s.applySupport review).disposition } := by
  unfold applySupport
  dsimp only
  split
  · rw [apply_eq, apply_eq s]
  · exact apply_eq s _

theorem applyReduction_eq (s : FoldState) (targetClaimId : Option String) :
    s.applyReduction targetClaimId
      = { s with disposition := (s.applyReduction targetClaimId).disposition } := by
  unfold applyReduction
  split
  · split
    · rfl
    · exact apply_eq s _
  · rfl

section Fields

variable (s : FoldState) (event : ClaimEvent) (review : VerifiedReview)

@[simp] theorem apply_priorSequence : (s.apply event).priorSequence = s.priorSequence := by
  rw [apply_eq]

@[simp] theorem apply_currentVersion : (s.apply event).currentVersion = s.currentVersion := by
  rw [apply_eq]

@[simp] theorem apply_identityWithdrawn :
    (s.apply event).identityWithdrawn = s.identityWithdrawn := by rw [apply_eq]

@[simp] theorem apply_recordedRefutationAttempts :
    (s.apply event).recordedRefutationAttempts = s.recordedRefutationAttempts := by rw [apply_eq]

@[simp] theorem apply_verifiedReviews : (s.apply event).verifiedReviews = s.verifiedReviews := by
  rw [apply_eq]

@[simp] theorem apply_hasCertifiedArtifact :
    (s.apply event).hasCertifiedArtifact = s.hasCertifiedArtifact := by rw [apply_eq]

@[simp] theorem apply_qualifyingArtifacts :
    (s.apply event).qualifyingArtifacts = s.qualifyingArtifacts := by rw [apply_eq]

@[simp] theorem apply_seenAttemptIds : (s.apply event).seenAttemptIds = s.seenAttemptIds := by
  rw [apply_eq]

@[simp] theorem apply_context : (s.apply event).context = s.context := by rw [apply_eq]; rfl

@[simp] theorem applySupport_priorSequence :
    (s.applySupport review).priorSequence = s.priorSequence := by rw [applySupport_eq]

@[simp] theorem applySupport_currentVersion :
    (s.applySupport review).currentVersion = s.currentVersion := by rw [applySupport_eq]

@[simp] theorem applySupport_identityWithdrawn :
    (s.applySupport review).identityWithdrawn = s.identityWithdrawn := by rw [applySupport_eq]

@[simp] theorem applySupport_recordedRefutationAttempts :
    (s.applySupport review).recordedRefutationAttempts = s.recordedRefutationAttempts := by
  rw [applySupport_eq]

@[simp] theorem applySupport_verifiedReviews :
    (s.applySupport review).verifiedReviews = s.verifiedReviews := by rw [applySupport_eq]

@[simp] theorem applySupport_hasCertifiedArtifact :
    (s.applySupport review).hasCertifiedArtifact = s.hasCertifiedArtifact := by
  rw [applySupport_eq]

@[simp] theorem applySupport_qualifyingArtifacts :
    (s.applySupport review).qualifyingArtifacts = s.qualifyingArtifacts := by
  rw [applySupport_eq]

@[simp] theorem applySupport_seenAttemptIds :
    (s.applySupport review).seenAttemptIds = s.seenAttemptIds := by rw [applySupport_eq]

end Fields

/-- A property of the fold state that survives each primitive write a
pinned event is made of. -/
structure Stable (P : FoldState → Prop) : Prop where
  apply : ∀ s event, event.isWithinVersion = true → P s → P (s.apply event)
  withdrawIdentity : ∀ s, P s → P s.withdrawIdentity
  countRefutationAttempt : ∀ s, P s → P s.countRefutationAttempt
  addReview : ∀ s review, P s → P (s.addReview review)
  certifyArtifact : ∀ s, P s → P s.certifyArtifact
  qualify : ∀ s artifact, P s → P (s.qualify artifact)
  markSeen : ∀ s checkIdentity, P s → P (s.markSeen checkIdentity)

namespace Stable

variable {P : FoldState → Prop} (hP : Stable P)
include hP

theorem applySupport (s : FoldState) (review : VerifiedReview) (hs : P s) :
    P (s.applySupport review) := by
  unfold FoldState.applySupport
  have hfirst := hP.apply s (.reviewVerified review) rfl hs
  dsimp only
  split
  · exact hP.apply _ _ rfl hfirst
  · exact hfirst

theorem foldReview (s : FoldState) (event : ReviewCreated) (hs : P s) :
    P (s.foldReview event) := by
  unfold FoldState.foldReview
  split
  · exact hs
  split
  · exact hs
  · refine hP.addReview _ _ (hP.applySupport _ _ ?_)
    split
    · exact hP.certifyArtifact s hs
    · exact hs
  · refine hP.countRefutationAttempt _ ?_
    have hdispute := hP.apply s (.reviewVerified (event.verified .dispute)) rfl hs
    cases event.confirmedRefutation with
    | none => exact hdispute
    | some refutation => exact hP.apply _ _ rfl hdispute
  · exact hP.apply s _ rfl hs

theorem foldAttempt (s : FoldState) (event : FalsificationAttempt) (hs : P s) :
    P (s.foldAttempt event) := by
  have hqualify : P (s.qualifyAttempt event) := by
    unfold FoldState.qualifyAttempt
    split
    · split
      · exact hs
      · exact hP.qualify s _ hs
    · exact hs
  unfold FoldState.foldAttempt
  dsimp only
  split
  · unfold FoldState.recordAttempt
    have hrecord := hP.countRefutationAttempt _
      (hP.apply _ (.refutationAttemptRecorded event.attemptId) rfl
        (hP.markSeen _ event.checkIdentity hqualify))
    dsimp only
    split
    · exact hP.applySupport _ _ hrecord
    · exact hrecord
  · exact hqualify

theorem foldPinned (s : FoldState) (event : PinnedEvent) (hs : P s) :
    P (s.foldPinned event) := by
  cases event with
  | claimRetracted retractionId wholeIdentity =>
      refine hP.apply _ .authorWithdrawal rfl ?_
      split
      · exact hP.withdrawIdentity s hs
      · exact hs
  | claimReduced target => exact hP.apply s (.reducedTo target) rfl hs
  | authorConcession => exact hP.apply s .authorConcession rfl hs
  | reviewCreated review => exact hP.foldReview s review hs
  | refutingEvidence evidenceId confirmed hours =>
      exact hP.countRefutationAttempt _ (hP.apply s (.evidenceRefuted _) rfl hs)
  | falsificationAttempt attempt => exact hP.foldAttempt s attempt hs
  | certifiedArtifact evidenceId => exact hP.qualify s evidenceId hs

end Stable

/-- What an event pinned to the current version leaves alone. -/
structure Frame (s t : FoldState) : Prop where
  priorSequence : t.priorSequence = s.priorSequence
  currentVersion : t.currentVersion = s.currentVersion

theorem frame_stable (s : FoldState) : Stable (Frame s) where
  apply t event _ h := by rw [apply_eq]; exact ⟨h.1, h.2⟩
  withdrawIdentity _ h := ⟨h.1, h.2⟩
  countRefutationAttempt _ h := ⟨h.1, h.2⟩
  addReview _ _ h := ⟨h.1, h.2⟩
  certifyArtifact _ h := ⟨h.1, h.2⟩
  qualify _ _ h := ⟨h.1, h.2⟩
  markSeen _ _ h := ⟨h.1, h.2⟩

theorem frame_foldPinned (s : FoldState) (event : PinnedEvent) :
    Frame s (s.foldPinned event) :=
  (frame_stable s).foldPinned s event ⟨rfl, rfl⟩

/-! ## Inversion of one iteration -/

theorem step_created_ok {s t : FoldState} {sequence version : Int} {target : Option String} :
    s.step (.claimCreated sequence version target) = .ok t ↔
      s.admits (.claimCreated sequence version target) = true ∧ s.currentVersion = none
        ∧ version = 1 ∧ t = (s.advance sequence).create target := by
  unfold step
  cases s.admits (.claimCreated sequence version target) with
  | false => simp
  | true =>
      cases hcur : s.currentVersion <;>
        by_cases hver : version = 1 <;>
        simp [advance, hcur, hver, VersionedClaimTimelineEvent.sequence, eq_comm]

theorem step_revised_ok {s t : FoldState} {sequence version : Int} {target : Option String} :
    s.step (.claimRevised sequence version target) = .ok t ↔
      s.admits (.claimRevised sequence version target) = true
        ∧ s.currentVersion.map (· + 1) = some version
        ∧ t = (s.advance sequence).revise version target := by
  unfold step
  cases s.admits (.claimRevised sequence version target) with
  | false => simp
  | true =>
      by_cases hver : s.currentVersion.map (· + 1) = some version <;>
        simp [advance, hver, VersionedClaimTimelineEvent.sequence, eq_comm]

theorem step_pinned_ok {s t : FoldState} {sequence version : Int} {event : PinnedEvent} :
    s.step (.pinned sequence version event) = .ok t ↔
      s.admits (.pinned sequence version event) = true
        ∧ t = if s.currentVersion = some version then (s.advance sequence).foldPinned event
            else s.advance sequence := by
  unfold step
  cases s.admits (.pinned sequence version event) with
  | false => simp
  | true =>
      by_cases hver : s.currentVersion = some version <;>
        simp [advance, hver, VersionedClaimTimelineEvent.sequence, eq_comm]

end FoldState

/-! ## A timeline and its continuation -/

/-- Every event of the continuation is later than every event before it. -/
def Continues (past future : List VersionedClaimTimelineEvent) : Prop :=
  ∀ earlier ∈ past, ∀ later ∈ future, earlier.sequence < later.sequence

theorem mem_sortBySequence {event : VersionedClaimTimelineEvent}
    {timeline : List VersionedClaimTimelineEvent} :
    event ∈ sortBySequence timeline ↔ event ∈ timeline :=
  (List.perm_insertionSort _ timeline).mem_iff

theorem orderedInsert_append (event : VersionedClaimTimelineEvent)
    (past future : List VersionedClaimTimelineEvent)
    (h : ∀ later ∈ future, event.sequence < later.sequence) :
    List.orderedInsert (·.sequence ≤ ·.sequence) event (past ++ future)
      = List.orderedInsert (·.sequence ≤ ·.sequence) event past ++ future := by
  induction past with
  | nil =>
      cases future with
      | nil => rfl
      | cons later rest =>
          exact if_pos (h later (List.mem_cons_self ..)).le
  | cons first past ih =>
      by_cases hle : event.sequence ≤ first.sequence
      · simp [List.orderedInsert, hle]
      · simp [List.orderedInsert, hle, ih]

theorem sortBySequence_append {past future : List VersionedClaimTimelineEvent}
    (h : Continues past future) :
    sortBySequence (past ++ future) = sortBySequence past ++ sortBySequence future := by
  induction past with
  | nil => rfl
  | cons event past ih =>
      have hrest := ih fun earlier hearlier => h earlier (List.mem_cons_of_mem _ hearlier)
      unfold sortBySequence at hrest ⊢
      rw [List.cons_append, List.insertionSort_cons, hrest, orderedInsert_append]
      · rfl
      · intro later hlater
        exact h event (List.mem_cons_self ..) later (mem_sortBySequence.mp hlater)

theorem compute_ok {timeline : List VersionedClaimTimelineEvent}
    {f : CurrentClaimDispositionFold} :
    computeCurrentClaimDisposition timeline = .ok f ↔
      ∃ s, FoldState.init.run (sortBySequence timeline) = .ok s ∧ s.result = f := by
  unfold computeCurrentClaimDisposition
  cases FoldState.init.run (sortBySequence timeline) <;> simp [Except.map]

theorem compute_append_ok {past future : List VersionedClaimTimelineEvent}
    {f g : CurrentClaimDispositionFold} (hcont : Continues past future)
    (hpast : computeCurrentClaimDisposition past = .ok f)
    (hall : computeCurrentClaimDisposition (past ++ future) = .ok g) :
    ∃ s t, FoldState.init.run (sortBySequence past) = .ok s ∧ s.result = f
      ∧ s.run (sortBySequence future) = .ok t ∧ t.result = g := by
  obtain ⟨s, hs, hf⟩ := compute_ok.mp hpast
  obtain ⟨t, ht, hg⟩ := compute_ok.mp hall
  rw [sortBySequence_append hcont] at ht
  obtain ⟨s', hs', ht⟩ := ExceptRun.run_append_ok.mp ht
  have hsame : s' = s := Except.ok.inj (hs'.symm.trans hs)
  exact ⟨s, t, hs, hf, hsame ▸ ht, hg⟩

end Asimposium
