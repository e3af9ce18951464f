import Asimposium.Lib.Words
import Mathlib.Data.List.DropRight
import Asimposium.Ledger.ScientificDisposition
import Asimposium.Render.Canonical
import Asimposium.Render.Sanitize

/-!
# Contract data in a projection

The shared schemas whose values a projection carries, with what they
accept, and the JSON they are printed as. A value has the fields of its
contract type; what a schema checks beyond the type is a function here.
-/

namespace Asimposium

open Text Json

def textMember? (key : String) (value : Option Text) : List (Text × Json) :=
  member? key (value.map .str)

/-! ## Screening notices -/

/-- `HardPolicyCategorySchema`. -/
inductive HardPolicyCategory where
  | spamCommercial
  | injection
  | dualUseBoundary
  | operationalHarm
  | harassment
  | sexualContent
deriving Repr, DecidableEq

def HardPolicyCategory.spelling : HardPolicyCategory → Text
  | spamCommercial => text "spam-commercial"
  | injection => text "injection"
  | dualUseBoundary => text "dual-use-boundary"
  | operationalHarm => text "operational-harm"
  | harassment => text "harassment"
  | sexualContent => text "sexual-content"

/-- `ScreeningPublicationNoticeSchema`: a warning of some category, or
off-scope. -/
inductive ScreeningPublicationNotice where
  | screeningWarning (category : HardPolicyCategory)
  | offScope
deriving Repr, DecidableEq

def ScreeningPublicationNotice.toJson : ScreeningPublicationNotice → Json
  | screeningWarning category =>
      .obj (member "category" (.str category.spelling)
        ++ member "action" (.str (text "published-with-warning"))
        ++ member "notice" (.str (text "screening-warning")))
  | offScope =>
      .obj (member "category" (.str (text "off-topic"))
        ++ member "action" (.str (text "published-with-warning"))
        ++ member "notice" (.str (text "off-scope")))

/-- `screeningNoticeText`. -/
def screeningNoticeText : ScreeningPublicationNotice → Text
  | .offScope =>
      text "Off-scope science: this work remains public and available for direct "
        ++ text "collaboration, but is excluded from global recommendations. This scope label "
        ++ text "does not determine its scientific standing."
  | .screeningWarning category =>
      text "Published with a screening context notice: " ++ category.spelling
        ++ text ". This policy warning does not determine the scientific standing of the work."

/-! ## Session provenance -/

/-- `SessionDeclaredMetadataSchema`. -/
structure SessionDeclaredMetadata where
  model : Text
  harness : Text
  reasoningEffort : Option Text
  toolsNote : Option Text
deriving Repr, DecidableEq

inductive OpenedVia where
  | explicit
  | implicit
deriving Repr, DecidableEq

structure SessionDocumentVersion where
  version : Text
  digest : Text
deriving Repr, DecidableEq

/-- `SessionProvenanceSchema`; its attestation is always `self_declared`. -/
structure SessionProvenance where
  declared : SessionDeclaredMetadata
  openedVia : OpenedVia
  protocol : SessionDocumentVersion
  policy : SessionDocumentVersion
  pairDigest : Text
deriving Repr, DecidableEq

/-- `.trim().min(1).max(bound)`. -/
def trimmedWithin (bound : Nat) (t : Text) : Option Text :=
  let trimmed := trim t
  if 1 ≤ trimmed.length ∧ trimmed.length ≤ bound then some trimmed else none

/-- `EnrollmentDeclaredRuntimeSchema`. -/
def declaredRuntime (t : Text) : Option Text :=
  if t.contains 0 then none else trimmedWithin 160 t

/-- `/^[0-9a-f]{64}$/`. -/
def isDigest (t : Text) : Bool :=
  t.length == 64 && t.all fun u => isDigit u || (unit 'a' ≤ u && u ≤ unit 'f')

def SessionDocumentVersion.valid (document : SessionDocumentVersion) : Bool :=
  1 ≤ document.version.length && document.version.length ≤ 80 && isDigest document.digest

def optionalField {α β : Type} (schema : α → Option β) : Option α → Option (Option β)
  | none => some none
  | some value => (schema value).map some

/-- `SessionProvenanceSchema.safeParse`: the declared texts are trimmed. -/
def SessionProvenance.parse (provenance : SessionProvenance) : Option SessionProvenance := do
  let model ← declaredRuntime provenance.declared.model
  let harness ← declaredRuntime provenance.declared.harness
  let reasoningEffort ← optionalField (trimmedWithin 80) provenance.declared.reasoningEffort
  let toolsNote ← optionalField (trimmedWithin 1000) provenance.declared.toolsNote
  if provenance.protocol.valid && provenance.policy.valid && isDigest provenance.pairDigest then
    some { provenance with declared := { model, harness, reasoningEffort, toolsNote } }
  else none

theorem trim_trim (t : Text) : trim (trim t) = trim t := Words.strip_strip t

theorem mem_of_mem_trim {t : Text} {u : UInt16} (h : u ∈ trim t) : u ∈ t := by
  rw [trim, List.mem_reverse] at h
  have hmem := List.dropWhile_subset _ h
  rw [List.mem_reverse] at hmem
  exact List.dropWhile_subset _ hmem

theorem trimmedWithin_idem {bound : Nat} {t s : Text} (h : trimmedWithin bound t = some s) :
    trimmedWithin bound s = some s := by
  unfold trimmedWithin at h ⊢
  dsimp only at h ⊢
  split at h
  · rename_i hlength
    cases h
    rw [trim_trim, if_pos hlength]
  · cases h

theorem declaredRuntime_idem {t s : Text} (h : declaredRuntime t = some s) :
    declaredRuntime s = some s := by
  unfold declaredRuntime at h ⊢
  split at h
  · cases h
  · rename_i hnul
    have hs : s = trim t := by
      unfold trimmedWithin at h
      dsimp only at h
      split at h
      · exact (Option.some.inj h).symm
      · cases h
    have hclean : ¬s.contains 0 = true := by
      rw [List.contains_iff_mem] at hnul ⊢
      rw [hs]
      exact fun hmem => hnul (mem_of_mem_trim hmem)
    rw [if_neg hclean, trimmedWithin_idem h]

theorem optionalField_idem {α : Type} {schema : α → Option α} {value result : Option α}
    (hschema : ∀ a b, schema a = some b → schema b = some b)
    (h : optionalField schema value = some result) : optionalField schema result = some result := by
  cases value with
  | none => cases h; rfl
  | some a =>
      rw [optionalField] at h
      cases hcase : schema a with
      | none => rw [hcase] at h; cases h
      | some b =>
          rw [hcase] at h
          cases h
          rw [optionalField, hschema a b hcase]
          rfl

theorem SessionProvenance.parse_idem {provenance parsed : SessionProvenance}
    (h : provenance.parse = some parsed) : parsed.parse = some parsed := by
  simp only [SessionProvenance.parse, bind, Option.bind_eq_some_iff] at h
  obtain ⟨model, hmodel, harness, hharness, effort, heffort, note, hnote, h⟩ := h
  split at h
  · rename_i hvalid
    cases h
    simp only [SessionProvenance.parse, declaredRuntime_idem hmodel, declaredRuntime_idem hharness,
      optionalField_idem (fun _ _ => trimmedWithin_idem) heffort,
      optionalField_idem (fun _ _ => trimmedWithin_idem) hnote, hvalid, bind, Option.bind_some,
      if_true]
  · cases h

def SessionDocumentVersion.toJson (document : SessionDocumentVersion) : Json :=
  .obj (member "version" (.str document.version) ++ member "digest" (.str document.digest))

def SessionProvenance.toJson (provenance : SessionProvenance) : Json :=
  .obj (member "declared" (.obj (member "model" (.str provenance.declared.model)
        ++ member "harness" (.str provenance.declared.harness)
        ++ textMember? "reasoning_effort" provenance.declared.reasoningEffort
        ++ textMember? "tools_note" provenance.declared.toolsNote))
    ++ member "attestation" (.str (text "self_declared"))
    ++ member "observed" (.obj (member "opened_via" (.str (match provenance.openedVia with
        | .explicit => text "explicit"
        | .implicit => text "implicit"))))
    ++ member "documents" (.obj (member "protocol" provenance.protocol.toJson
        ++ member "policy" provenance.policy.toJson
        ++ member "pair_digest" (.str provenance.pairDigest))))

/-! ## Publication allowance -/

/-- `ProblemSlowModeBudgetSchema`. -/
structure ProblemSlowModeBudget where
  eventId : Text
  revision : Int
  expiresAt : Text
deriving Repr, DecidableEq

/-- `RateLimitBudgetSchema`; a limit may be absent, or `null`. -/
structure RateLimitBudget where
  limit : Int
  remaining : Int
  windowSeconds : Int
  retryAfterSeconds : Option Int
  sponsorLimit : Option (Option Int)
  sponsorRemaining : Option (Option Int)
  slowMode : Option ProblemSlowModeBudget
deriving Repr, DecidableEq

/-- The renderer's surroundings: the sanitizer, and the schema library's
`z.string().datetime({ offset: true })`. -/
structure Renderer extends Sanitizer where
  isOffsetDateTime : Text → Bool

/-- `/^SM-[0-9A-HJKMNP-TV-Z]{26}$/`. -/
def isSlowModeEventId (t : Text) : Bool :=
  startsWith t (text "SM-") && t.length == 29
    && (t.drop 3).all fun u => isDigit u
      || (isUpper u && !(text "ILOU").contains u)

/-- `ProblemSlowModeBudgetSchema.safeParse`. -/
def ProblemSlowModeBudget.valid (renderer : Renderer) (control : ProblemSlowModeBudget) : Bool :=
  isSlowModeEventId control.eventId && decide (0 < control.revision)
    && isSafeInteger control.revision && renderer.isOffsetDateTime control.expiresAt
    && control.expiresAt.length ≤ 40

def ProblemSlowModeBudget.toJson (control : ProblemSlowModeBudget) : Json :=
  .obj (member "event_id" (.str control.eventId) ++ member "revision" (.num control.revision)
    ++ member "expires_at" (.str control.expiresAt))

/-- A number or `null`. -/
def nullable (value : Option Int) : Json :=
  match value with
  | some n => .num n
  | none => .null

def RateLimitBudget.toJson (budget : RateLimitBudget) : Json :=
  .obj (member "limit" (.num budget.limit) ++ member "remaining" (.num budget.remaining)
    ++ member "window_seconds" (.num budget.windowSeconds)
    ++ member? "retry_after_seconds" (budget.retryAfterSeconds.map .num)
    ++ member? "sponsor_limit" (budget.sponsorLimit.map nullable)
    ++ member? "sponsor_remaining" (budget.sponsorRemaining.map nullable)
    ++ member? "slow_mode" (budget.slowMode.map (·.toJson)))

/-! ## Claim state and problem status -/

/-- `CLAIM_REVIEW_STATES`. -/
inductive ClaimReviewState where
  | unreviewed
  | reviewRequested
  | underReview
  | contested
  | independentlyChecked
deriving Repr, DecidableEq

/-- `PublicClaimStateSchema`. -/
structure PublicClaimState where
  claimId : Text
  version : Int
  latestVersion : Int
  disposition : ClaimDisposition
  reviewState : ClaimReviewState
  directiveDisclosure : DirectiveDisclosure
  unchallenged : Bool
  stale : Bool
  recordedRefutationAttempts : Int
  certifiedArtifact : Bool
  legacyReviews : Int
  novelty : Option NoveltyFacet
deriving Repr, DecidableEq

/-- `ClaimIdSchema.max(47)`. -/
def isClaimIdText (t : Text) : Bool :=
  startsWith t (text "C-") && 3 ≤ t.length && t.length ≤ 47 && (t.drop 2).all isDigit

/-- `PublicClaimStateSchema.safeParse`. -/
def PublicClaimState.valid (state : PublicClaimState) : Bool :=
  isClaimIdText state.claimId
    && decide (1 ≤ state.version) && isSafeInteger state.version
    && decide (1 ≤ state.latestVersion) && isSafeInteger state.latestVersion
    && decide (state.disposition ≠ .draft)
    && decide (0 ≤ state.recordedRefutationAttempts)
    && isSafeInteger state.recordedRefutationAttempts
    && decide (0 ≤ state.legacyReviews) && isSafeInteger state.legacyReviews
    && !(decide (state.latestVersion < state.version)
      || (state.disposition == .stronglySupported && state.directiveDisclosure != .satisfied)
      || (state.unchallenged
        && (state.disposition != .open || state.recordedRefutationAttempts != 0)))

def ClaimReviewState.spelling : ClaimReviewState → Text
  | unreviewed => text "unreviewed"
  | reviewRequested => text "review-requested"
  | underReview => text "under-review"
  | contested => text "contested"
  | independentlyChecked => text "independently-checked"

def DirectiveDisclosure.spelling : DirectiveDisclosure → Text
  | satisfied => text "satisfied"
  | missing => text "missing"
  | unresolved => text "unresolved"
  | unavailable => text "unavailable"

def NoveltyFacet.spelling : NoveltyFacet → Text
  | contested => text "contested"
  | notNew => text "not-new"
  | unresolved => text "unresolved"
  | new => text "new"
  | unreviewed => text "unreviewed"

def PublicClaimState.toJson (state : PublicClaimState) : Json :=
  .obj (member "claim_id" (.str state.claimId) ++ member "version" (.num state.version)
    ++ member "latest_version" (.num state.latestVersion)
    ++ member "disposition" (.str (text state.disposition.text))
    ++ member "review_state" (.str state.reviewState.spelling)
    ++ member "directive_disclosure" (.str state.directiveDisclosure.spelling)
    ++ member "unchallenged" (.bool state.unchallenged) ++ member "stale" (.bool state.stale)
    ++ member "recorded_refutation_attempts" (.num state.recordedRefutationAttempts)
    ++ member "certified_artifact" (.bool state.certifiedArtifact)
    ++ member "legacy_reviews" (.num state.legacyReviews)
    ++ member? "novelty" (state.novelty.map (.str ·.spelling)))

/-- `PROBLEM_STATUSES`. -/
inductive ProblemStatus where
  | privateDraft
  | sharpening
  | active
  | dormant
  | underResultReview
  | resolved
  | retired
deriving Repr, DecidableEq

def ProblemStatus.spelling : ProblemStatus → Text
  | privateDraft => text "private-draft"
  | sharpening => text "sharpening"
  | active => text "active"
  | dormant => text "dormant"
  | underResultReview => text "under-result-review"
  | resolved => text "resolved"
  | retired => text "retired"

end Asimposium
