import Mathlib
import Asimposium.Ledger.EarnedDisposition

/-!
# The order in which support arrives

`FoldState.Tally` accounts for what a stretch of one version adds to the
fold: the stored rows, the counted checks, the certificate and the
contests, each as a function of the events pinned to the version. The
tally of a rearranged stretch is the same, except that a certificate
needs its artifact to have qualified before the review that confirms it
(`artifactsFirst`). With the fixed point of `EarnedDisposition` this
settles when a positive disposition is reached (`earned_exactly`).
-/

namespace Asimposium

open ExceptRun

/-- The event of a pinned timeline event, with the version it names. -/
def VersionedClaimTimelineEvent.pin? : VersionedClaimTimelineEvent → Option (Int × PinnedEvent)
  | .pinned _ targetVersion event => some (targetVersion, event)
  | _ => none

def pinsAt (version : Option Int) (timeline : List VersionedClaimTimelineEvent) :
    List PinnedEvent :=
  timeline.filterMap fun event => event.pin?.bind fun (targetVersion, pinned) =>
    if version = some targetVersion then some pinned else none

/-- No artifact qualifies only after a supporting review confirmed it. -/
def artifactsFirst : List String → List PinnedEvent → Prop
  | _, [] => True
  | qualified, event :: rest =>
      (∀ artifact ∈ (confirms? event).toList, artifact ∈ rest.filterMap qualifies? →
          artifact ∈ qualified)
        ∧ artifactsFirst ((qualifies? event).toList ++ qualified) rest

instance decidableArtifactsFirst : (qualified : List String) → (pins : List PinnedEvent) →
    Decidable (artifactsFirst qualified pins)
  | _, [] => isTrue trivial
  | qualified, event :: rest =>
      have := decidableArtifactsFirst ((qualifies? event).toList ++ qualified) rest
      inferInstanceAs (Decidable (_ ∧ _))

theorem mem_filterMap_cons {α β : Type} {f : α → Option β} {a : α} {as : List α} {b : β} :
    b ∈ (a :: as).filterMap f ↔ f a = some b ∨ b ∈ as.filterMap f := by
  simp [List.mem_filterMap]

theorem qualifies?_of_confirms? {pinned : PinnedEvent} {artifact : String}
    (h : confirms? pinned = some artifact) : qualifies? pinned = none := by
  cases pinned <;> simp_all [confirms?, qualifies?]

namespace FoldState

/-- What a stretch of events pinned to the current version adds. -/
structure Tally (s t : FoldState) (pins : List PinnedEvent) : Prop where
  currentVersion : t.currentVersion = s.currentVersion
  reviews : t.verifiedReviews = s.verifiedReviews ++ pins.flatMap supportRows
  attempts : ∃ fresh : List String, fresh.Nodup
    ∧ (∀ check, check ∈ fresh ↔ check ∉ s.seenAttemptIds ∧ check ∈ pins.filterMap checkIdentity?)
    ∧ t.recordedRefutationAttempts
      = s.recordedRefutationAttempts + (pins.map landings).sum + fresh.length
  certified : artifactsFirst s.qualifyingArtifacts pins →
    (t.hasCertifiedArtifact = true ↔ s.hasCertifiedArtifact = true
      ∨ ∃ artifact ∈ pins.filterMap confirms?,
          artifact ∈ s.qualifyingArtifacts ∨ artifact ∈ pins.filterMap qualifies?)
  collapse : t.disposition.collapse
    = (pins.flatMap contest).foldl contestStep s.disposition.collapse

theorem tally_nil (s : FoldState) : Tally s s [] :=
  ⟨rfl, by simp, ⟨[], List.nodup_nil, by simp, by simp⟩, by simp, rfl⟩

theorem mem_newChecks (s : FoldState) (pinned : PinnedEvent) (check : String) :
    check ∈ s.newChecks pinned ↔ checkIdentity? pinned = some check ∧ check ∉ s.seenAttemptIds := by
  unfold newChecks
  simp [List.mem_filter]

theorem newChecks_nodup (s : FoldState) (pinned : PinnedEvent) : (s.newChecks pinned).Nodup := by
  unfold newChecks
  refine List.Nodup.filter _ ?_
  cases checkIdentity? pinned <;> simp

theorem tally_cons {s t : FoldState} {pinned : PinnedEvent} {pins : List PinnedEvent}
    (hcollapse : (s.foldPinned pinned).disposition.collapse
      = (contest pinned).foldl contestStep s.disposition.collapse)
    (h : Tally (s.foldPinned pinned) t pins) : Tally s t (pinned :: pins) := by
  have hwrites := foldPinned_eq s pinned
  have hseen : (s.foldPinned pinned).seenAttemptIds = s.newChecks pinned ++ s.seenAttemptIds := by
    rw [hwrites]
  have hqualified : (s.foldPinned pinned).qualifyingArtifacts
      = (qualifies? pinned).toList ++ s.qualifyingArtifacts := by rw [hwrites]
  have hcertified : (s.foldPinned pinned).hasCertifiedArtifact
      = (s.hasCertifiedArtifact || s.confirms pinned) := by rw [hwrites]
  have hattempts : (s.foldPinned pinned).recordedRefutationAttempts
      = s.recordedRefutationAttempts + landings pinned + (s.newChecks pinned).length := by
    rw [hwrites]
  refine ⟨?_, ?_, ?_, ?_, ?_⟩
  · rw [h.currentVersion, hwrites]
  · rw [h.reviews, foldPinned_verifiedReviews, List.flatMap_cons, List.append_assoc]
  · obtain ⟨fresh, hnodup, hmem, hcount⟩ := h.attempts
    refine ⟨s.newChecks pinned ++ fresh, ?_, fun check => ?_, ?_⟩
    · rw [List.nodup_append]
      refine ⟨newChecks_nodup s pinned, hnodup, ?_⟩
      rintro check hnew _ hfresh rfl
      rw [hmem, hseen] at hfresh
      exact hfresh.1 (List.mem_append_left _ hnew)
    · rw [List.mem_append, hmem, hseen, List.mem_append, mem_newChecks]
      rw [mem_filterMap_cons]
      tauto
    · rw [hcount, hattempts, List.map_cons, List.sum_cons, List.length_append]
      omega
  · rintro ⟨hhead, htail⟩
    rw [h.certified (hqualified ▸ htail), hcertified, hqualified]
    have hconfirms : s.confirms pinned = true ↔
        ∃ artifact, confirms? pinned = some artifact ∧ artifact ∈ s.qualifyingArtifacts := by
      unfold confirms
      cases confirms? pinned <;> simp
    simp only [Bool.or_eq_true, hconfirms, mem_filterMap_cons, List.mem_append, Option.mem_toList]
    constructor
    · rintro ((hcert | ⟨artifact, hart, hqual⟩) | ⟨artifact, hart, hqual⟩)
      · exact .inl hcert
      · exact .inr ⟨artifact, .inl hart, .inl hqual⟩
      · exact .inr ⟨artifact, .inr hart, by tauto⟩
    · rintro (hcert | ⟨artifact, hart | hart, hqual⟩)
      · exact .inl (.inl hcert)
      · refine .inl (.inr ⟨artifact, hart, ?_⟩)
        rcases hqual with hqual | hqual | hqual
        · exact hqual
        · rw [qualifies?_of_confirms? hart] at hqual; cases hqual
        · exact hhead artifact (by simp [hart]) hqual
      · exact .inr ⟨artifact, hart, by tauto⟩
  · rw [h.collapse, hcollapse, List.flatMap_cons, List.foldl_append]

theorem run_tally {s t : FoldState} {against : Bool} {suffix : List VersionedClaimTimelineEvent}
    (hpinned : ∀ event ∈ suffix, event.pin?.isSome = true) (hs : s.Audited against)
    (hids : (s.verifiedReviews.map (·.reviewId) ++ reviewIds suffix).Nodup)
    (h : s.run suffix = .ok t) : Tally s t (pinsAt s.currentVersion suffix) := by
  induction suffix generalizing s against with
  | nil => cases h; exact tally_nil _
  | cons event rest ih =>
      obtain ⟨m, hm, ht⟩ := run_cons_ok.mp h
      obtain ⟨haudited, hrest⟩ := step_audited hs hids hm
      have htail := ih (fun later hlater => hpinned later (List.mem_cons_of_mem _ hlater))
        haudited hrest ht
      cases event with
      | claimCreated sequence version target =>
          cases hpinned _ (List.mem_cons_self ..)
      | claimRevised sequence version target =>
          cases hpinned _ (List.mem_cons_self ..)
      | pinned sequence version pinned =>
          obtain ⟨-, rfl⟩ := step_pinned_ok.mp hm
          by_cases hcur : s.currentVersion = some version
          · rw [if_pos hcur, (frame_foldPinned _ _).currentVersion] at htail
            have hhead : pinsAt s.currentVersion (.pinned sequence version pinned :: rest)
                = pinned :: pinsAt s.currentVersion rest := by
              simp [pinsAt, VersionedClaimTimelineEvent.pin?, hcur]
            rw [hhead]
            have hbefore : (s.advance sequence).disposition.isPlaced = true :=
              hs.placed.born (by rw [hcur]; rfl)
            have hcollapse := (foldPinned_earned pinned
              (advance_audited sequence hs).earned hbefore (by
                rintro review rfl hmem
                rw [reviewIds_cons, List.nodup_append] at hids
                exact hids.2.2 _ hmem _ (List.mem_cons_self ..) rfl)).2
            have hfront := tally_cons hcollapse htail
            exact ⟨hfront.currentVersion, hfront.reviews, hfront.attempts, hfront.certified,
              hfront.collapse⟩
          · rw [if_neg hcur] at htail
            have hskip : pinsAt s.currentVersion (.pinned sequence version pinned :: rest)
                = pinsAt s.currentVersion rest := by
              simp [pinsAt, VersionedClaimTimelineEvent.pin?, hcur]
            rw [hskip]
            exact ⟨htail.currentVersion, htail.reviews, htail.attempts, htail.certified,
              htail.collapse⟩

/-! ## Rearranged stretches -/

theorem collapse_of_not_earning {d : ClaimDisposition} (h : d.isEarning = false) :
    d.collapse = d := by
  simp [ClaimDisposition.collapse, h]

theorem tally_perm {s t t' : FoldState} {pins pins' : List PinnedEvent} (h : Tally s t pins)
    (h' : Tally s t' pins') (hperm : pins.Perm pins')
    (hcontests : pins.flatMap contest = pins'.flatMap contest)
    (hfirst : artifactsFirst s.qualifyingArtifacts pins)
    (hfirst' : artifactsFirst s.qualifyingArtifacts pins') :
    t.verifiedReviews.Perm t'.verifiedReviews
      ∧ t.recordedRefutationAttempts = t'.recordedRefutationAttempts
      ∧ t.hasCertifiedArtifact = t'.hasCertifiedArtifact
      ∧ t.disposition.collapse = t'.disposition.collapse := by
  refine ⟨?_, ?_, ?_, ?_⟩
  · rw [h.reviews, h'.reviews]
    exact (hperm.flatMap_right _).append_left _
  · obtain ⟨fresh, hnodup, hmem, hcount⟩ := h.attempts
    obtain ⟨fresh', hnodup', hmem', hcount'⟩ := h'.attempts
    have hfresh : fresh.Perm fresh' := by
      refine (List.perm_ext_iff_of_nodup hnodup hnodup').mpr fun check => ?_
      rw [hmem, hmem', (hperm.filterMap _).mem_iff]
    rw [hcount, hcount', hfresh.length_eq, (hperm.map _).sum_nat]
  · refine Bool.eq_iff_iff.mpr ?_
    rw [h.certified hfirst, h'.certified hfirst']
    simp only [(hperm.filterMap _).mem_iff]
  · rw [h.collapse, h'.collapse, hcontests]

theorem disposition_eq {t t' : FoldState} (h : t.Earned) (h' : t'.Earned)
    (hreviews : t.verifiedReviews.Perm t'.verifiedReviews)
    (hattempts : t.recordedRefutationAttempts = t'.recordedRefutationAttempts)
    (hcertified : t.hasCertifiedArtifact = t'.hasCertifiedArtifact)
    (hcollapse : t.disposition.collapse = t'.disposition.collapse) :
    t.disposition = t'.disposition := by
  cases hearning : t.disposition.isEarning with
  | true =>
      have hearning' : t'.disposition.isEarning = true := by
        apply earning_of_collapse
        rw [← hcollapse, collapse_earning hearning]
      rw [h.settled hearning, h'.settled hearning']
      exact settle_congr (distinctSupportingReviews_eq h.supporting)
        (distinctSupportingReviews_eq h'.supporting)
        ⟨hreviews.subset, fun h => h.trans (le_of_eq hattempts), fun hcert => hcertified.symm.trans hcert⟩
        ⟨hreviews.symm.subset, fun h => h.trans (le_of_eq hattempts.symm), fun hcert => hcertified.trans hcert⟩
  | false =>
      have hearning' : t'.disposition.isEarning = false := by
        by_contra hearning'
        rw [collapse_of_not_earning hearning,
          collapse_earning (by simpa using hearning')] at hcollapse
        rw [hcollapse] at hearning
        cases hearning
      rw [collapse_of_not_earning hearning, collapse_of_not_earning hearning'] at hcollapse
      exact hcollapse

end FoldState

/-! ## The audited run -/

namespace FoldState

theorem auditStep_ok {s t : FoldState} {against against' : Bool}
    {event : VersionedClaimTimelineEvent} :
    auditStep (s, against) event = .ok (t, against') ↔
      s.step event = .ok t ∧ (s.advance event.sequence).audit against event = against' := by
  unfold auditStep
  cases s.step event <;> simp [Except.map]

theorem run_audited {past : List VersionedClaimTimelineEvent}
    (suffix : List VersionedClaimTimelineEvent) {s : FoldState}
    (hids : (reviewIds (past ++ suffix)).Nodup) (h : init.run past = .ok s) :
    ∃ against, List.foldlM auditStep (init, false) past = .ok (s, against)
      ∧ s.Audited against
      ∧ (s.verifiedReviews.map (·.reviewId) ++ reviewIds suffix).Nodup := by
  have hsimulates : ∃ audited, List.foldlM auditStep (init, false) past = .ok audited
      ∧ audited.1 = s := run_simulation (R := fun s audited => audited.1 = s)
    (fun s audited event t hsame hstep =>
      ⟨(t, (audited.1.advance event.sequence).audit audited.2 event),
        auditStep_ok.mpr ⟨hsame ▸ hstep, rfl⟩, rfl⟩)
    rfl h
  obtain ⟨⟨_, against⟩, haudit, rfl⟩ := hsimulates
  refine ⟨against, haudit, ?_⟩
  refine run_invariant_rest (I := fun rest audited => audited.1.Audited audited.2
      ∧ (audited.1.verifiedReviews.map (·.reviewId) ++ reviewIds (rest ++ suffix)).Nodup)
    ?_ ⟨?_, by simpa [init] using hids⟩ haudit
  · rintro event rest ⟨s, a⟩ ⟨t, b⟩ ⟨hs, hnodup⟩ haudited
    obtain ⟨hstep, rfl⟩ := auditStep_ok.mp haudited
    exact step_audited hs hnodup hstep
  · exact audited_init

end FoldState

open FoldState

theorem reviewIds_sort_nodup {timeline : List VersionedClaimTimelineEvent}
    (h : (reviewIds timeline).Nodup) : (reviewIds (sortBySequence timeline)).Nodup :=
  ((List.perm_insertionSort _ timeline).filterMap _).nodup_iff.mpr h

def foldEnd (timeline : List VersionedClaimTimelineEvent) : FoldState :=
  match init.run (sortBySequence timeline) with
  | .ok s => s
  | .error _ => init

def StrictlyOrdered (timeline : List VersionedClaimTimelineEvent) : Prop :=
  timeline.Pairwise (·.sequence < ·.sequence)

instance (timeline : List VersionedClaimTimelineEvent) : Decidable (StrictlyOrdered timeline) :=
  inferInstanceAs (Decidable (List.Pairwise _ _))

/-- Two orders of one stretch of a version. Support arrives in any
order; the events against the claim keep theirs, and no artifact
qualifies only after the review that confirms it. -/
structure Rearranged (past suffix suffix' : List VersionedClaimTimelineEvent) : Prop where
  ordered : StrictlyOrdered (past ++ suffix)
  ordered' : StrictlyOrdered (past ++ suffix')
  pinned : ∀ event ∈ suffix, event.pin?.isSome = true
  perm : (suffix.map (·.pin?)).Perm (suffix'.map (·.pin?))
  contests : (pinsAt (foldEnd past).currentVersion suffix).filter (fun pin => !(contest pin).isEmpty)
    = (pinsAt (foldEnd past).currentVersion suffix').filter fun pin => !(contest pin).isEmpty
  artifacts : artifactsFirst (foldEnd past).qualifyingArtifacts
    (pinsAt (foldEnd past).currentVersion suffix)
  artifacts' : artifactsFirst (foldEnd past).qualifyingArtifacts
    (pinsAt (foldEnd past).currentVersion suffix')

theorem sortBySequence_ordered {timeline : List VersionedClaimTimelineEvent}
    (h : StrictlyOrdered timeline) : sortBySequence timeline = timeline :=
  (h.imp fun hlt => le_of_lt hlt).insertionSort_eq

theorem flatMap_contest_filter (pins : List PinnedEvent) :
    (pins.filter fun pin => !(contest pin).isEmpty).flatMap contest = pins.flatMap contest := by
  induction pins with
  | nil => rfl
  | cons pin rest ih =>
      cases hcontest : contest pin <;> simp [hcontest, ih]

theorem pinsAt_eq (version : Option Int) (timeline : List VersionedClaimTimelineEvent) :
    pinsAt version timeline = (timeline.map (·.pin?)).filterMap fun pin =>
      pin.bind fun (targetVersion, pinned) =>
        if version = some targetVersion then some pinned else none := by
  simp only [pinsAt, List.filterMap_map]
  rfl

theorem reviewIds_eq (timeline : List VersionedClaimTimelineEvent) :
    reviewIds timeline = (timeline.map (·.pin?)).filterMap fun pin => pin.bind fun (_, pinned) =>
      (VersionedClaimTimelineEvent.pinned 0 0 pinned).reviewId? := by
  unfold reviewIds
  rw [List.filterMap_map]
  refine List.filterMap_congr fun event _ => ?_
  cases event with
  | claimCreated sequence version target => rfl
  | claimRevised sequence version target => rfl
  | pinned sequence version pinned => cases pinned <;> rfl

theorem rearranged_result {past suffix suffix' : List VersionedClaimTimelineEvent}
    {f' : CurrentClaimDispositionFold} {t : FoldState}
    (hids : (reviewIds (past ++ suffix)).Nodup) (h : Rearranged past suffix suffix')
    (ht : init.run (sortBySequence (past ++ suffix)) = .ok t)
    (hfold' : computeCurrentClaimDisposition (past ++ suffix') = .ok f') :
    f'.disposition = t.disposition ∧ f'.context.verifiedReviews.Perm t.verifiedReviews
      ∧ f'.context.recordedRefutationAttempts = t.recordedRefutationAttempts
      ∧ f'.context.hasCertifiedArtifact = t.hasCertifiedArtifact := by
  obtain ⟨t', ht', rfl⟩ := compute_ok.mp hfold'
  rw [sortBySequence_ordered h.ordered] at ht
  rw [sortBySequence_ordered h.ordered'] at ht'
  obtain ⟨s, hs, hrun⟩ := run_append_ok.mp ht
  obtain ⟨s', hs', hrun'⟩ := run_append_ok.mp ht'
  obtain rfl : s' = s := Except.ok.inj (hs'.symm.trans hs)
  have hpast : foldEnd past = s' := by
    have hordered : StrictlyOrdered past := (List.pairwise_append.mp h.ordered).1
    unfold foldEnd run
    rw [sortBySequence_ordered hordered, hs]
  have hcontests := h.contests
  have hperm := h.perm.filterMap fun pin => pin.bind fun (targetVersion, pinned) =>
    if (foldEnd past).currentVersion = some targetVersion then some pinned else none
  rw [← pinsAt_eq, ← pinsAt_eq] at hperm
  have hfirst := h.artifacts
  have hfirst' := h.artifacts'
  rw [hpast] at hcontests hperm hfirst hfirst'
  have hids' : (reviewIds (past ++ suffix')).Nodup := by
    have hreviews := h.perm.filterMap fun pin => pin.bind fun (_, pinned) =>
      (VersionedClaimTimelineEvent.pinned 0 0 pinned).reviewId?
    rw [← reviewIds_eq, ← reviewIds_eq] at hreviews
    unfold reviewIds at hids hreviews ⊢
    rw [List.filterMap_append] at hids ⊢
    exact (hreviews.append_left _).nodup_iff.mp hids
  obtain ⟨against, -, haudited, hrest⟩ := run_audited suffix hids hs
  obtain ⟨_, -, -, hrest'⟩ := run_audited suffix' hids' hs
  obtain ⟨_, -, hend, -⟩ := run_audited [] (by simpa using hids) ht
  obtain ⟨_, -, hend', -⟩ := run_audited [] (by simpa using hids') ht'
  have hpinned' : ∀ event ∈ suffix', event.pin?.isSome = true := by
    intro event hevent
    obtain ⟨twin, htwin, hpin⟩ := List.mem_map.mp
      (h.perm.mem_iff.mpr (List.mem_map_of_mem (f := (·.pin?)) hevent))
    rw [← hpin]
    exact h.pinned twin htwin
  have hsame : (pinsAt s'.currentVersion suffix).flatMap contest
      = (pinsAt s'.currentVersion suffix').flatMap contest := by
    rw [← flatMap_contest_filter, hcontests, flatMap_contest_filter]
  obtain ⟨hreviews, hattempts, hcertified, hcollapse⟩ :=
    tally_perm (run_tally h.pinned haudited hrest hrun)
      (run_tally hpinned' haudited hrest' hrun') hperm hsame hfirst hfirst'
  exact ⟨(disposition_eq hend.earned hend'.earned hreviews hattempts hcertified hcollapse).symm,
    hreviews.symm, hattempts.symm, hcertified.symm⟩

/-- Positive dispositions are exactly earned, and earned in any order. -/
theorem earned_exactly (timeline : List VersionedClaimTimelineEvent)
    {f : CurrentClaimDispositionFold} (hids : (reviewIds timeline).Nodup)
    (hfold : computeCurrentClaimDisposition timeline = .ok f) :
    (f.disposition = .corroborated ∨ f.disposition = .stronglySupported →
        adverseAccepted timeline = false
          ∧ corroborationUnmet f.context.verifiedReviews f.context = []
          ∧ (f.disposition = .stronglySupported →
              strongSupportUnmet f.context.verifiedReviews f.context = []))
      ∧ (wholeIdentityWithdrawn timeline = false → adverseAccepted timeline = false →
          corroborationUnmet f.context.verifiedReviews f.context = [] →
          f.disposition = if strongSupportUnmet f.context.verifiedReviews f.context = [] then
            .stronglySupported else .corroborated)
      ∧ ∀ past suffix suffix' f', timeline = past ++ suffix → Rearranged past suffix suffix' →
          computeCurrentClaimDisposition (past ++ suffix') = .ok f' →
            f'.disposition = f.disposition
              ∧ f'.context.verifiedReviews.Perm f.context.verifiedReviews
              ∧ f'.context.recordedRefutationAttempts = f.context.recordedRefutationAttempts
              ∧ f'.context.hasCertifiedArtifact = f.context.hasCertifiedArtifact := by
  obtain ⟨t, ht, rfl⟩ := compute_ok.mp hfold
  have hsorted := reviewIds_sort_nodup hids
  obtain ⟨against, haudit, haudited, -⟩ := run_audited []
    (by rw [List.append_nil]; exact hsorted) ht
  have haccepted : adverseAccepted timeline = against := by
    unfold adverseAccepted
    rw [haudit]
  rw [haccepted]
  refine ⟨audited_positive haudited, fun hidentity hagainst hgate => ?_, ?_⟩
  · subst hagainst
    refine audited_earns haudited ?_ hgate
    unfold wholeIdentityWithdrawn at hidentity
    rw [ht] at hidentity
    exact hidentity
  · rintro past suffix suffix' f' rfl hrearranged hfold'
    exact rearranged_result hids hrearranged ht hfold'

/-- A T2 confirmation of artifact E-1, a grounded attempt and the
artifact, in two orders. -/
theorem earned_exactly_artifact :
    let created := VersionedClaimTimelineEvent.claimCreated 1 1 none
    let artifact := PinnedEvent.certifiedArtifact "E-1"
    let attempt := PinnedEvent.falsificationAttempt
      { attemptId := "F-1", checkFingerprint := none, attemptedFalsifier := "n = 3"
        capableOfFailure := "yes", result := "survived", evidenceReferences := some ["E-1"]
        qualifyingArtifactId := none }
    let review := PinnedEvent.reviewCreated
      { carriesWeight := true, verdict := "confirm", rubric := none, reviewId := "R-1"
        reviewerId := "P-1", tier := .T2, crossFamily := true, fullWriteUp := true
        artifactEvidenceId := some "E-1", confirmedRefutation := none }
    adverseAccepted [created, .pinned 2 1 artifact, .pinned 3 1 attempt, .pinned 4 1 review] = false
      ∧ ∃ f', computeCurrentClaimDisposition
          ([created] ++ [.pinned 2 1 artifact, .pinned 3 1 review, .pinned 4 1 attempt]) = .ok f'
        ∧ f'.disposition = .stronglySupported := by
  intro created artifact attempt review
  have hearned := earned_exactly
    ([created] ++ [.pinned 2 1 artifact, .pinned 3 1 attempt, .pinned 4 1 review])
    (f := ⟨.stronglySupported, some 1,
      ⟨1, [⟨"R-1", "P-1", .T2, true, true, .support⟩], true⟩⟩) (by decide) (by decide)
  refine ⟨(hearned.1 (.inr rfl)).1, ⟨.stronglySupported, some 1,
    ⟨1, [⟨"R-1", "P-1", .T2, true, true, .support⟩], true⟩⟩, by decide, ?_⟩
  refine (hearned.2.2 [created] _
    [.pinned 2 1 artifact, .pinned 3 1 review, .pinned 4 1 attempt] _ rfl ?_ (by decide)).1
  refine ⟨by decide, by decide, by decide, ?_, ?_, ?_, ?_⟩
  · exact (List.Perm.swap _ _ []).cons _
  · decide
  · decide
  · decide

/-- Two claims about the fold that fail: an artifact that qualifies only
after the review confirming it does not count, and a version opened
under a withdrawn identity earns nothing. -/
theorem support_not_counted :
    let created := VersionedClaimTimelineEvent.claimCreated 1 1 none
    let artifact := PinnedEvent.certifiedArtifact "E-1"
    let attempt := PinnedEvent.falsificationAttempt
      { attemptId := "F-1", checkFingerprint := none, attemptedFalsifier := "n = 3"
        capableOfFailure := "yes", result := "survived", evidenceReferences := some ["E-1"]
        qualifyingArtifactId := none }
    let review := PinnedEvent.reviewCreated
      { carriesWeight := true, verdict := "confirm", rubric := none, reviewId := "R-1"
        reviewerId := "P-1", tier := .T2, crossFamily := true, fullWriteUp := true
        artifactEvidenceId := some "E-1", confirmedRefutation := none }
    let early := [created, .pinned 2 1 artifact, .pinned 3 1 attempt, .pinned 4 1 review]
    let late := [created, .pinned 2 1 attempt, .pinned 3 1 review, .pinned 4 1 artifact]
    let withdrawn := [created, .pinned 2 1 (.claimRetracted "X-1" none), .claimRevised 3 2 none,
      .pinned 4 2 artifact, .pinned 5 2 attempt, .pinned 6 2 review]
    (StrictlyOrdered early ∧ StrictlyOrdered late
        ∧ (computeCurrentClaimDisposition early).map (·.disposition) = .ok .stronglySupported
        ∧ (computeCurrentClaimDisposition late).map (·.disposition) = .ok .corroborated)
      ∧ StrictlyOrdered withdrawn ∧ adverseAccepted withdrawn = false
        ∧ (computeCurrentClaimDisposition withdrawn).map (·.disposition) = .ok .withdrawn
        ∧ (computeCurrentClaimDisposition withdrawn).map
            (fun f => corroborationUnmet f.context.verifiedReviews f.context) = .ok [] := by
  decide

end Asimposium
