import Asimposium.Ledger.DispositionAudit
import Asimposium.Ledger.SupportAccounting
import Asimposium.Ledger.VersionIsolation

/-!
# Positive dispositions are exactly earned

While a version still earns its standing, its disposition is the fixed
point of the two support gates over the support gathered so far
(`FoldState.Earned`). The machine is fed incrementally, so the fixed
point has to be kept by every event that changes the support: a review
is evaluated with its own row before the row is stored, and an attempt
re-evaluates a replay of the last stored row. Monotonicity of the gates
is what makes the incremental evaluation complete.

The one fact that is not re-evaluated is the qualification of an
artifact: a certificate only counts through a review that arrives after
the artifact has qualified. Within that order the arrival order of
reviews, attempts and artifact checks is immaterial
(`SupportOrder`).
-/

namespace Asimposium

open ExceptRun

namespace FoldState

/-! ## Evaluating support -/

/-- The version's support is a set of supporting reviews, and an earning
version stands at the fixed point of the gates over it. -/
structure Earned (s : FoldState) : Prop where
  supporting : Supporting s.verifiedReviews
  settled : s.disposition.isEarning = true → s.disposition = settle s.verifiedReviews s.context

theorem settle_earning (rows : List VerifiedReview) (context : ClaimTransitionContext) :
    (settle rows context).isEarning = true := by
  unfold settle
  split
  · split <;> rfl
  · rfl

theorem applySupport_contested (s : FoldState) {review : VerifiedReview}
    (hfinding : review.finding = .support) (hs : s.disposition.isContested = true) :
    s.applySupport review = s := by
  have hfirst : s.apply (.reviewVerified review) = s := by
    unfold apply
    cases hd : s.disposition <;>
      simp_all [ClaimDisposition.isContested, ClaimDisposition.isAdverse, evaluateClaimTransition,
        evaluateReview, isTerminal]
  unfold applySupport
  simp only [hfirst]
  split <;> rfl

section Gates

variable (s : FoldState) {review : VerifiedReview} (hfinding : review.finding = .support)
include hfinding

theorem apply_support_open (hs : s.disposition = .open) :
    (s.apply (.reviewVerified review)).disposition
      = if corroborationUnmet (s.verifiedReviews ++ [review]) s.context = [] then .corroborated
        else .open := by
  by_cases hgate : corroborationUnmet (s.verifiedReviews ++ [review]) s.context = [] <;>
    simp [apply, hs, evaluateClaimTransition, evaluateReview, isTerminal, hfinding,
      show s.context.verifiedReviews = s.verifiedReviews from rfl, hgate]

theorem apply_support_corroborated (hs : s.disposition = .corroborated) :
    (s.apply (.reviewVerified review)).disposition
      = if strongSupportUnmet (s.verifiedReviews ++ [review]) s.context = [] then
          .stronglySupported
        else .corroborated := by
  by_cases hgate : strongSupportUnmet (s.verifiedReviews ++ [review]) s.context = [] <;>
    simp [apply, hs, evaluateClaimTransition, evaluateReview, isTerminal, hfinding,
      show s.context.verifiedReviews = s.verifiedReviews from rfl, hgate]

theorem apply_support_strong (hs : s.disposition = .stronglySupported) :
    (s.apply (.reviewVerified review)).disposition = .stronglySupported := by
  simp [apply, hs, evaluateClaimTransition, evaluateReview, isTerminal, hfinding]

/-- Two evaluations of a supporting review reach the fixed point of the
gates over the rows with that review, provided what was earned before
is earned over these rows. -/
theorem applySupport_settle (hs : s.disposition.isEarning = true)
    (hcorroborated : s.disposition ≠ .open →
      corroborationUnmet (s.verifiedReviews ++ [review]) s.context = [])
    (hstrong : s.disposition = .stronglySupported →
      strongSupportUnmet (s.verifiedReviews ++ [review]) s.context = []) :
    (s.applySupport review).disposition = settle (s.verifiedReviews ++ [review]) s.context := by
  have hsecond := apply_support_corroborated (s.apply (.reviewVerified review)) hfinding
  rw [show (s.apply (.reviewVerified review)).verifiedReviews = s.verifiedReviews by
    rw [apply_eq], apply_context] at hsecond
  unfold applySupport settle
  dsimp only
  cases hd : s.disposition with
  | «open» =>
      have hfirst := apply_support_open s hfinding hd
      by_cases hgate : corroborationUnmet (s.verifiedReviews ++ [review]) s.context = []
      · rw [if_pos hgate] at hfirst ⊢
        rw [if_pos hfirst, hsecond hfirst]
      · rw [if_neg hgate] at hfirst ⊢
        rw [if_neg (by rw [hfirst]; simp), hfirst]
  | corroborated =>
      have hfirst := apply_support_corroborated s hfinding hd
      rw [if_pos (hcorroborated (by simp [hd]))]
      by_cases hgate : strongSupportUnmet (s.verifiedReviews ++ [review]) s.context = []
      · rw [if_pos hgate] at hfirst ⊢
        rw [if_neg (by rw [hfirst]; simp), hfirst]
      · rw [if_neg hgate] at hfirst ⊢
        rw [if_pos hfirst, hsecond hfirst, if_neg hgate]
  | stronglySupported =>
      have hfirst := apply_support_strong s hfinding hd
      rw [if_pos (hcorroborated (by simp [hd])), if_pos (hstrong hd),
        if_neg (by rw [hfirst]; simp), hfirst]
  | draft => simp [hd, ClaimDisposition.isEarning] at hs
  | malformed => simp [hd, ClaimDisposition.isEarning] at hs
  | disputed => simp [hd, ClaimDisposition.isEarning] at hs
  | refuted => simp [hd, ClaimDisposition.isEarning] at hs
  | reducedTo => simp [hd, ClaimDisposition.isEarning] at hs
  | withdrawn => simp [hd, ClaimDisposition.isEarning] at hs
  | superseded => simp [hd, ClaimDisposition.isEarning] at hs

end Gates

/-- The same, from a version that stood at the fixed point over smaller
support: the gates are monotone. -/
theorem applySupport_earned {s t : FoldState} {review : VerifiedReview}
    {reviews : List VerifiedReview} (hfinding : review.finding = .support) (hs : s.Earned)
    (hearning : s.disposition.isEarning = true) (hsame : t.disposition = s.disposition)
    (hrows : distinctSupportingReviews (t.verifiedReviews ++ [review]) = reviews)
    (hle : SupportLe s.verifiedReviews reviews s.context t.context) :
    (t.applySupport review).disposition = settle (t.verifiedReviews ++ [review]) t.context := by
  have hsettled := hs.settled hearning
  have hdistinct := distinctSupportingReviews_eq hs.supporting
  refine applySupport_settle t hfinding (hsame ▸ hearning) (fun hne => ?_) (fun hstrong => ?_)
  · refine corroborationUnmet_mono hdistinct hrows hle ?_
    by_contra hgate
    rw [hsame, hsettled] at hne
    simp [settle, hgate] at hne
  · refine strongSupportUnmet_mono hdistinct hrows hle ?_
    by_contra hgate
    rw [hsame, hsettled] at hstrong
    unfold settle at hstrong
    rw [if_neg hgate] at hstrong
    split at hstrong <;> cases hstrong

/-! ## Events that only gather support -/

theorem settle_context_congr {rows : List VerifiedReview} {context context' : ClaimTransitionContext}
    (hattempts : context.recordedRefutationAttempts = context'.recordedRefutationAttempts)
    (hcertified : context.hasCertifiedArtifact = context'.hasCertifiedArtifact) :
    settle rows context = settle rows context' := by
  unfold settle corroborationUnmet strongSupportUnmet
  rw [hattempts, hcertified]

/-- What an event without contests does: it may gather support, and the
version goes on earning, or stays contested as it is. -/
structure Gathers (s t : FoldState) : Prop where
  earned : t.Earned
  collapse : t.disposition.collapse = s.disposition.collapse
  identityWithdrawn : t.identityWithdrawn = s.identityWithdrawn

theorem gathers_of_settle {s t : FoldState} (hearning : s.disposition.isEarning = true)
    (hsupporting : Supporting t.verifiedReviews)
    (hsettled : t.disposition = settle t.verifiedReviews t.context)
    (hidentity : t.identityWithdrawn = s.identityWithdrawn) : Gathers s t := by
  refine ⟨⟨hsupporting, fun _ => hsettled⟩, ?_, hidentity⟩
  rw [collapse_earning hearning, hsettled, collapse_earning (settle_earning _ _)]

theorem gathers_of_contested {s t : FoldState} (hcontested : s.disposition.isContested = true)
    (hsupporting : Supporting t.verifiedReviews) (hsame : t.disposition = s.disposition)
    (hidentity : t.identityWithdrawn = s.identityWithdrawn) : Gathers s t := by
  refine ⟨⟨hsupporting, fun hearning => ?_⟩, by rw [hsame], hidentity⟩
  rw [hsame, isContested_not_earning hcontested] at hearning
  cases hearning

theorem foldSupport_gathers {s : FoldState} {event : ReviewCreated} (hs : s.Earned)
    (hplaced : s.disposition.isPlaced = true)
    (hfresh : event.reviewId ∉ s.verifiedReviews.map (·.reviewId)) :
    Gathers s (s.foldSupport event) := by
  obtain ⟨t, ht, hdisposition, hreviews, hattempts, hcertified, hidentity⟩ :
      ∃ t, (if s.certifies event then s.certifyArtifact else s) = t
        ∧ t.disposition = s.disposition ∧ t.verifiedReviews = s.verifiedReviews
        ∧ t.recordedRefutationAttempts = s.recordedRefutationAttempts
        ∧ (s.hasCertifiedArtifact = true → t.hasCertifiedArtifact = true)
        ∧ t.identityWithdrawn = s.identityWithdrawn := by
    refine ⟨_, rfl, ?_⟩
    split
    · exact ⟨rfl, rfl, rfl, fun _ => rfl, rfl⟩
    · exact ⟨rfl, rfl, rfl, id, rfl⟩
  have hrows : Supporting (t.verifiedReviews ++ [event.verified .support]) := by
    rw [hreviews]
    refine ⟨fun review hmem => ?_, ?_⟩
    · rcases List.mem_append.mp hmem with hmem | hmem
      · exact hs.supporting.support review hmem
      · rw [List.mem_singleton.mp hmem]; rfl
    · rw [List.map_append, List.nodup_append]
      refine ⟨hs.supporting.distinct, List.nodup_singleton _, ?_⟩
      intro left hleft right hright heq
      have hid : right = event.reviewId := List.mem_singleton.mp hright
      rw [← hid, ← heq] at hfresh
      exact hfresh hleft
  unfold foldSupport
  dsimp only
  rw [ht, addReview_applySupport]
  rcases isPlaced_cases hplaced with hearning | hcontested
  · refine gathers_of_settle hearning hrows ?_ hidentity
    have hevaluated := applySupport_earned (t := t)
      (show (event.verified .support).finding = .support from rfl) hs hearning hdisposition (distinctSupportingReviews_eq hrows)
      ⟨by rw [hreviews]; exact List.subset_append_left _ _, fun h => h.trans (le_of_eq hattempts.symm),
        hcertified⟩
    exact hevaluated.trans (settle_context_congr rfl rfl)
  · refine gathers_of_contested hcontested hrows ?_ hidentity
    rw [applySupport_contested t rfl (hdisposition ▸ hcontested)]
    exact hdisposition

/-- A counted attempt re-evaluates a replay of the last stored row, which
changes nothing but the number of attempts. -/
theorem recordAttempt_gathers {s : FoldState} (event : FalsificationAttempt) (hs : s.Earned)
    (hplaced : s.disposition.isPlaced = true) : Gathers s (s.recordAttempt event) := by
  unfold recordAttempt
  dsimp only
  rw [apply_attempt]
  generalize ht : (s.markSeen event.checkIdentity).countRefutationAttempt = t
  have hdisposition : t.disposition = s.disposition := by rw [← ht]; rfl
  have hreviews : t.verifiedReviews = s.verifiedReviews := by rw [← ht]; rfl
  have hidentity : t.identityWithdrawn = s.identityWithdrawn := by rw [← ht]; rfl
  have hle : SupportLe s.verifiedReviews s.verifiedReviews s.context t.context :=
    ⟨List.Subset.refl _, fun _ => by rw [← ht]; exact Nat.le_add_left 1 _, by rw [← ht]; exact id⟩
  have hrows : Supporting t.verifiedReviews := hreviews ▸ hs.supporting
  cases hlast : t.verifiedReviews.getLast? with
  | none =>
      have hnil : t.verifiedReviews = [] := List.getLast?_eq_none_iff.mp hlast
      rcases isPlaced_cases hplaced with hearning | hcontested
      · refine gathers_of_settle hearning hrows ?_ hidentity
        rw [hdisposition, hs.settled hearning, ← hreviews, hnil]
        rfl
      · exact gathers_of_contested hcontested hrows hdisposition hidentity
  | some priorSupport =>
      have hmem : priorSupport ∈ t.verifiedReviews := List.mem_of_getLast? hlast
      have hsupport := hrows.support priorSupport hmem
      rcases isPlaced_cases hplaced with hearning | hcontested
      · have hreplay := distinctSupportingReviews_replay hrows hmem
        have hevaluated := applySupport_earned hsupport hs hearning hdisposition
          (hreplay.trans hreviews) hle
        dsimp only
        rw [applySupport_eq]
        refine gathers_of_settle hearning hrows ?_ hidentity
        refine hevaluated.trans (settle_congr hreplay (distinctSupportingReviews_eq hrows) ?_ ?_)
        · exact ⟨List.Subset.refl _, id, id⟩
        · exact ⟨List.Subset.refl _, id, id⟩
      · dsimp only
        rw [applySupport_contested t hsupport (hdisposition ▸ hcontested)]
        exact gathers_of_contested hcontested hrows hdisposition hidentity

theorem gathers_self {s : FoldState} (hs : s.Earned) : Gathers s s := ⟨hs, rfl, rfl⟩

theorem foldPinned_gathers {s : FoldState} {pinned : PinnedEvent} (hs : s.Earned)
    (hplaced : s.disposition.isPlaced = true) (hquiet : contest pinned = [])
    (hfresh : ∀ review, pinned = .reviewCreated review →
      review.reviewId ∉ s.verifiedReviews.map (·.reviewId)) :
    Gathers s (s.foldPinned pinned) := by
  cases pinned with
  | reviewCreated review =>
      simp only [contest] at hquiet
      simp only [foldPinned, foldReview]
      split
      · exact gathers_self hs
      · rename_i hweight
        rw [if_neg hweight] at hquiet
        cases hf : reviewFinding review.verdict review.rubric with
        | none => exact gathers_self hs
        | some finding =>
            cases finding with
            | support => exact foldSupport_gathers hs hplaced (hfresh review rfl)
            | dispute => simp [hf] at hquiet
            | statementDefect => simp [hf] at hquiet
  | falsificationAttempt attempt =>
      have hqualify : Gathers s (s.qualifyAttempt attempt) := by
        unfold qualifyAttempt
        split
        · split
          · exact gathers_self hs
          · exact ⟨⟨hs.supporting, hs.settled⟩, rfl, rfl⟩
        · exact gathers_self hs
      have hsame : (s.qualifyAttempt attempt).disposition = s.disposition := by
        unfold qualifyAttempt
        split
        · split <;> rfl
        · rfl
      simp only [foldPinned, foldAttempt]
      split
      · have hrecord := recordAttempt_gathers attempt hqualify.earned
          (hsame ▸ hplaced)
        exact ⟨hrecord.earned, hrecord.collapse.trans hqualify.collapse,
          hrecord.identityWithdrawn.trans hqualify.identityWithdrawn⟩
      · exact hqualify
  | certifiedArtifact evidenceId => exact ⟨⟨hs.supporting, hs.settled⟩, rfl, rfl⟩
  | claimRetracted retractionId wholeIdentity => cases hquiet
  | claimReduced target => cases hquiet
  | authorConcession => cases hquiet
  | refutingEvidence evidenceId confirmed hours => cases hquiet

/-! ## Events that contest -/

theorem foldPinned_refused {s : FoldState} {pinned : PinnedEvent} (h : contest pinned ≠ [])
    (hs : s.disposition.isEarning = true) (hrefused : s.acceptsAny (contest pinned) = false) :
    s.foldPinned pinned = s := by
  have haccepts : ∀ event, (∀ target, event ≠ .reducedTo target) → event.isAgainst = true →
      s.accepts event = true := by
    intro event hkind hagainst
    rcases evaluate_against s.context hs hagainst with
      ⟨next, hallow, -⟩ | ⟨target, unmet, hreduced, -⟩
    · simp [accepts, hallow]
    · exact absurd hreduced (hkind target)
  cases pinned with
  | claimReduced target =>
      have hagainst : (ClaimEvent.reducedTo target).isAgainst = true := rfl
      rcases apply_against s hs hagainst with ⟨hyes, -⟩ | ⟨-, hsame⟩
      · simp [contest, acceptsAny, hyes] at hrefused
      · exact hsame
  | claimRetracted retractionId wholeIdentity =>
      simp [contest, acceptsAny, haccepts .authorWithdrawal (by simp) rfl] at hrefused
  | authorConcession =>
      simp [contest, acceptsAny, haccepts .authorConcession (by simp) rfl] at hrefused
  | refutingEvidence evidenceId confirmed hours =>
      simp [contest, acceptsAny, haccepts (.evidenceRefuted _) (by simp) rfl] at hrefused
  | reviewCreated review =>
      exfalso
      simp only [contest] at h hrefused
      split at hrefused
      · simp_all
      · split at hrefused
        · simp [acceptsAny,
            haccepts (.reviewVerified (review.verified .dispute)) (by simp) rfl] at hrefused
        · simp [acceptsAny,
            haccepts (.reviewVerified (review.verified .statementDefect)) (by simp) rfl]
            at hrefused
        · simp_all
  | falsificationAttempt attempt => exact absurd rfl h
  | certifiedArtifact evidenceId => exact absurd rfl h

/-! ## One event of the audited run -/

/-- What the audit knows of the fold: an accepted contest left the
version contested; without one the version still earns its standing,
unless the whole identity was withdrawn before it was opened. -/
structure Audited (s : FoldState) (against : Bool) : Prop where
  placed : s.Placed
  unborn : s.currentVersion = none → s.verifiedReviews = []
  earned : s.Earned
  contested : against = true → s.disposition.isContested = true
  uncontested : against = false → s.identityWithdrawn = false →
    s.currentVersion.isSome = true → s.disposition.isEarning = true

/-- The event, pinned to the current version, keeps the support earned
and collapses to its contests. -/
theorem foldPinned_earned {s : FoldState} (pinned : PinnedEvent) (hs : s.Earned)
    (hplaced : s.disposition.isPlaced = true)
    (hfresh : ∀ review, pinned = .reviewCreated review →
      review.reviewId ∉ s.verifiedReviews.map (·.reviewId)) :
    (s.foldPinned pinned).Earned
      ∧ (s.foldPinned pinned).disposition.collapse
        = (contest pinned).foldl contestStep s.disposition.collapse := by
  by_cases hquiet : contest pinned = []
  · have hgathers := foldPinned_gathers hs hplaced hquiet hfresh
    rw [hquiet]
    exact ⟨hgathers.earned, hgathers.collapse⟩
  · have hagainst : ∀ event ∈ contest pinned, event.isAgainst = true :=
      fun event hevent => contest_isAgainst hevent
    refine ⟨⟨?_, ?_⟩, ?_⟩
    · rw [foldPinned_verifiedReviews, supportRows_contest hquiet, List.append_nil]
      exact hs.supporting
    · intro hearning
      rw [foldPinned_contest s hquiet] at hearning
      rcases isPlaced_cases hplaced with hbefore | hcontested
      · rcases feed_against s hagainst hbefore with ⟨-, hafter⟩ | ⟨hrefused, -⟩
        · rw [isContested_not_earning hafter] at hearning; cases hearning
        · rw [foldPinned_refused hquiet hbefore hrefused]; exact hs.settled hbefore
      · rw [isContested_not_earning (feed_contested s hagainst hcontested)] at hearning
        cases hearning
    · rw [foldPinned_contest s hquiet]; exact collapse_feed s hagainst hplaced

theorem contested_stable : Stable (·.disposition.isContested = true) where
  apply := apply_contested
  withdrawIdentity _ h := h
  countRefutationAttempt _ h := h
  addReview _ _ h := h
  certifyArtifact _ h := h
  qualify _ _ h := h
  markSeen _ _ h := h

theorem withdrawn_stable : Stable (·.identityWithdrawn = true) where
  apply s event _ h := by rw [apply_eq]; exact h
  withdrawIdentity _ _ := rfl
  countRefutationAttempt _ h := h
  addReview _ _ h := h
  certifyArtifact _ h := h
  qualify _ _ h := h
  markSeen _ _ h := h

theorem earning_of_collapse {d : ClaimDisposition} (h : d.collapse = .open) :
    d.isEarning = true := by
  cases d <;> simp_all [ClaimDisposition.collapse, ClaimDisposition.isEarning]

theorem pinned_audited {s : FoldState} {against : Bool} {pinned : PinnedEvent}
    (hs : s.Audited against) (hcur : s.currentVersion.isSome = true)
    (hfresh : ∀ review, pinned = .reviewCreated review →
      review.reviewId ∉ s.verifiedReviews.map (·.reviewId))
    (hplaced : (s.foldPinned pinned).Placed) :
    (s.foldPinned pinned).Audited (against || s.acceptsAny (contest pinned)) := by
  have hbefore := hs.placed.born hcur
  have hagainst : ∀ event ∈ contest pinned, event.isAgainst = true :=
    fun event hevent => contest_isAgainst hevent
  obtain ⟨hearned, hcollapse⟩ := foldPinned_earned pinned hs.earned hbefore hfresh
  have hborn : (s.foldPinned pinned).currentVersion ≠ none := by
    rw [(frame_foldPinned s pinned).currentVersion]
    exact Option.isSome_iff_ne_none.mp hcur
  refine ⟨hplaced, fun hnone => absurd hnone hborn, hearned, fun hflag => ?_,
    fun hflag hidentity _ => ?_⟩
  · rcases isPlaced_cases hbefore with hearning | hcontested
    · have hnot : against = false := by
        by_contra hagainst
        rw [isContested_not_earning (hs.contested (by simpa using hagainst))] at hearning
        cases hearning
      rw [hnot, Bool.false_or] at hflag
      have hsome : contest pinned ≠ [] := by
        intro hnil
        rw [hnil] at hflag
        cases hflag
      rw [foldPinned_contest s hsome]
      rcases feed_against s hagainst hearning with ⟨-, hafter⟩ | ⟨hrefused, -⟩
      · exact hafter
      · rw [hrefused] at hflag; cases hflag
    · exact contested_stable.foldPinned s pinned hcontested
  · obtain ⟨hnot, hrefused⟩ := Bool.or_eq_false_iff.mp hflag
    have hkept : s.identityWithdrawn = false := by
      by_contra hwithdrawn
      rw [withdrawn_stable.foldPinned s pinned (by simpa using hwithdrawn)] at hidentity
      cases hidentity
    have hearning := hs.uncontested hnot hkept hcur
    apply earning_of_collapse
    rcases feed_against s hagainst hearning with ⟨haccepted, -⟩ | ⟨-, hsame⟩
    · rw [haccepted] at hrefused; cases hrefused
    · rw [hcollapse, ← collapse_feed s hagainst hbefore, hsame, collapse_earning hearning]

theorem applyReduction_feed (s : FoldState) (target : Option String) :
    s.applyReduction target = s.feed (publicationContest target) := by
  cases target with
  | none => rfl
  | some target =>
      by_cases hempty : target = "" <;> simp [applyReduction, publicationContest, feed, hempty]

theorem publicationContest_isAgainst {target : Option String} {event : ClaimEvent}
    (h : event ∈ publicationContest target) : event.isAgainst = true := by
  unfold publicationContest at h
  split at h
  · split at h
    · cases h
    · rw [List.mem_singleton.mp h]; rfl
  · cases h

theorem publication_audited {s t : FoldState} {target : Option String}
    (hopen : s.disposition = .open) (hplaced : t.Placed) (hreviews : t.verifiedReviews = [])
    (hdisposition : t.disposition = (s.feed (publicationContest target)).disposition) :
    t.Audited (s.acceptsAny (publicationContest target)) := by
  have hearning : s.disposition.isEarning = true := by rw [hopen]; rfl
  have hsupporting : Supporting t.verifiedReviews := by
    rw [hreviews]; exact ⟨fun _ hmem => (List.not_mem_nil hmem).elim, List.nodup_nil⟩
  rcases feed_against s (fun event hevent => publicationContest_isAgainst hevent) hearning with
    ⟨haccepted, hcontested⟩ | ⟨hrefused, hsame⟩
  · rw [← hdisposition] at hcontested
    refine ⟨hplaced, fun _ => hreviews, ⟨hsupporting, fun h => ?_⟩, fun _ => hcontested,
      fun h => ?_⟩
    · rw [isContested_not_earning hcontested] at h; cases h
    · rw [haccepted] at h; cases h
  · rw [hsame, hopen] at hdisposition
    refine ⟨hplaced, fun _ => hreviews, ⟨hsupporting, fun _ => ?_⟩, fun h => ?_,
      fun _ _ _ => ?_⟩
    · rw [hdisposition, hreviews]; rfl
    · rw [hrefused] at h; cases h
    · rw [hdisposition]; rfl

end FoldState

def VersionedClaimTimelineEvent.reviewId? : VersionedClaimTimelineEvent → Option String
  | .pinned _ _ (.reviewCreated review) => some review.reviewId
  | _ => none

def reviewIds (timeline : List VersionedClaimTimelineEvent) : List String :=
  timeline.filterMap (·.reviewId?)

theorem reviewIds_cons (event : VersionedClaimTimelineEvent)
    (rest : List VersionedClaimTimelineEvent) :
    reviewIds (event :: rest) = event.reviewId?.toList ++ reviewIds rest := by
  unfold reviewIds
  rw [List.filterMap_cons]
  cases event.reviewId? <;> rfl

namespace FoldState

theorem supportRows_reviewId (sequence version : Int) (pinned : PinnedEvent) :
    ((supportRows pinned).map (·.reviewId)).Sublist
      (VersionedClaimTimelineEvent.pinned sequence version pinned).reviewId?.toList := by
  cases pinned with
  | reviewCreated review =>
      simp only [supportRows]
      split
      · exact .refl _
      · exact List.nil_sublist _
  | falsificationAttempt attempt => exact .refl _
  | certifiedArtifact evidenceId => exact .refl _
  | claimRetracted retractionId wholeIdentity => exact .refl _
  | claimReduced target => exact .refl _
  | authorConcession => exact .refl _
  | refutingEvidence evidenceId confirmed hours => exact .refl _

theorem advance_audited {s : FoldState} {against : Bool} (sequence : Int) (hs : s.Audited against) :
    (s.advance sequence).Audited against :=
  ⟨⟨hs.placed.unborn, hs.placed.born⟩, hs.unborn, ⟨hs.earned.supporting, hs.earned.settled⟩, hs.contested,
    hs.uncontested⟩

/-- One step of the audited run; the ids of the stored rows and of the
reviews to come stay distinct. -/
theorem step_audited {s t : FoldState} {against : Bool} {event : VersionedClaimTimelineEvent}
    {rest : List VersionedClaimTimelineEvent} (hs : s.Audited against)
    (hids : (s.verifiedReviews.map (·.reviewId) ++ reviewIds (event :: rest)).Nodup)
    (h : s.step event = .ok t) :
    t.Audited ((s.advance event.sequence).audit against event)
      ∧ (t.verifiedReviews.map (·.reviewId) ++ reviewIds rest).Nodup := by
  have hplaced := step_placed hs.placed h
  rw [reviewIds_cons] at hids
  have hrest : (reviewIds rest).Nodup :=
    hids.sublist ((List.sublist_append_right _ _).trans (List.sublist_append_right _ _))
  cases event with
  | claimCreated sequence version target =>
      obtain ⟨-, hnone, -, rfl⟩ := step_created_ok.mp h
      have hdraft := hs.placed.unborn hnone
      have hreviews : ((s.advance sequence).create target).verifiedReviews = [] := by
        rw [create, applyReduction_eq, apply_eq]; rfl
      refine ⟨publication_audited ?_ hplaced hreviews ?_, by rw [hreviews]; exact hrest⟩
      · simp [apply, openVersion, advance, hdraft, evaluateClaimTransition, isTerminal]
      · rw [create, applyReduction_feed]; rfl
  | claimRevised sequence version target =>
      obtain ⟨-, hcur, rfl⟩ := step_revised_ok.mp h
      have hsome : s.currentVersion.isSome = true := by
        cases hv : s.currentVersion <;> simp [hv] at hcur ⊢
      have hbefore : (s.advance sequence).disposition.isPlaced = true := hs.placed.born hsome
      dsimp only [VersionedClaimTimelineEvent.sequence]
      refine ⟨?_, hrest⟩
      cases hflag : (s.advance sequence).identityWithdrawn with
      | false =>
          refine publication_audited ?_ hplaced rfl ?_
          · rw [renew_open _ _ hbefore hflag]
          · rw [revise, applyReduction_feed]; rfl
      | true =>
          have hwithdrawn := revise_withdrawn (s.advance sequence) version target hflag
          rw [hwithdrawn] at hplaced ⊢
          refine ⟨hplaced, fun _ => rfl, ⟨⟨fun _ hmem => (List.not_mem_nil hmem).elim, List.nodup_nil⟩,
            fun hearning => ?_⟩, fun _ => rfl, fun _ hidentity => ?_⟩
          · cases hearning
          · have hkept := hidentity.symm.trans hflag
            cases hkept
  | pinned sequence version pinned =>
      obtain ⟨-, rfl⟩ := step_pinned_ok.mp h
      dsimp only [VersionedClaimTimelineEvent.sequence]
      by_cases hcur : s.currentVersion = some version
      · have hcur' : (s.advance sequence).currentVersion = some version := hcur
        rw [if_pos hcur] at hplaced ⊢
        rw [audit, if_pos hcur']
        refine ⟨pinned_audited (advance_audited sequence hs) (by rw [hcur']; rfl) ?_ hplaced, ?_⟩
        · rintro review rfl hmem
          rw [List.nodup_append] at hids
          exact hids.2.2 _ hmem _ (List.mem_cons_self ..) rfl
        · rw [foldPinned_verifiedReviews, List.map_append, List.append_assoc]
          exact hids.sublist ((List.Sublist.refl _).append
            ((supportRows_reviewId sequence version pinned).append (.refl _)))
      · have hcur' : (s.advance sequence).currentVersion ≠ some version := hcur
        rw [if_neg hcur, audit, if_neg hcur']
        exact ⟨advance_audited sequence hs,
          hids.sublist ((List.Sublist.refl _).append (List.sublist_append_right _ _))⟩

/-! ## Reading the audit -/

theorem audited_init : init.Audited false where
  placed := placed_init
  unborn _ := rfl
  earned := ⟨⟨fun _ hmem => (List.not_mem_nil hmem).elim, List.nodup_nil⟩, fun h => by cases h⟩
  contested h := by cases h
  uncontested _ _ h := by cases h

theorem audited_positive {s : FoldState} {against : Bool} (hs : s.Audited against)
    (hpositive : s.disposition = .corroborated ∨ s.disposition = .stronglySupported) :
    against = false ∧ corroborationUnmet s.verifiedReviews s.context = []
      ∧ (s.disposition = .stronglySupported →
          strongSupportUnmet s.verifiedReviews s.context = []) := by
  have hearning : s.disposition.isEarning = true := by
    rcases hpositive with h | h <;> rw [h] <;> rfl
  have hsettled := hs.earned.settled hearning
  refine ⟨?_, ?_, fun hstrong => ?_⟩
  · by_contra hagainst
    rw [isContested_not_earning (hs.contested (by simpa using hagainst))] at hearning
    cases hearning
  · by_contra hgate
    rw [settle, if_neg hgate] at hsettled
    rcases hpositive with h | h <;> rw [h] at hsettled <;> cases hsettled
  · by_contra hgate
    rw [settle, if_neg hgate, hstrong] at hsettled
    split at hsettled <;> cases hsettled

theorem audited_earns {s : FoldState} (hs : s.Audited false) (hidentity : s.identityWithdrawn = false)
    (hgate : corroborationUnmet s.verifiedReviews s.context = []) :
    s.disposition = if strongSupportUnmet s.verifiedReviews s.context = [] then
      .stronglySupported else .corroborated := by
  have hcur : s.currentVersion.isSome = true := by
    by_contra hnone
    rw [hs.unborn (by simpa using hnone)] at hgate
    cases hgate
  have hsettled := hs.earned.settled (hs.uncontested rfl hidentity hcur)
  rw [settle, if_pos hgate] at hsettled
  exact hsettled

end FoldState

end Asimposium
