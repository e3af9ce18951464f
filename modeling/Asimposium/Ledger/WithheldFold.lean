import Asimposium.Ledger.ClosureCircularity
import Asimposium.Ledger.SupportOrder
import Asimposium.Ledger.WithheldReadings

/-!
# Withholding never promotes

The fold of withheld rows runs next to the fold of the full ones. After
every row the two states are related by `Below`: the withheld fold is
adverse, or both still earn their standing and its support is part of
the full one's, or both are reduced, or the version whose text was
withheld has gathered nothing. Each row keeps the relation because its
withheld reading is softer (`SoftRow`); a revision establishes it anew.
-/

namespace Asimposium

open ExceptRun

namespace FoldState

/-! ## One event -/

def foldPinned? (s : FoldState) (event : Option PinnedEvent) : FoldState :=
  match event with
  | some event => s.foldPinned event
  | none => s

theorem apply_adverseEvent {s : FoldState} {event : ClaimEvent}
    (hplaced : s.disposition.isPlaced = true) (hagainst : event.isAgainst = true)
    (hreduced : ∀ target, event ≠ .reducedTo target) :
    (s.apply event).disposition.isAdverse = true := by
  have hlive : ∀ current context, current = .open ∨ current = .reducedTo →
      ∃ next, evaluateClaimTransition current event context = .allow next
        ∧ next.isAdverse = true := by
    intro current context hcurrent
    cases event with
    | reviewVerified review =>
        cases hf : review.finding with
        | support => simp [ClaimEvent.isAgainst, hf] at hagainst
        | dispute =>
            refine ⟨.disputed, ?_, rfl⟩
            rcases hcurrent with rfl | rfl <;>
              simp [evaluateClaimTransition, evaluateReview, isTerminal, isLive, hf]
        | statementDefect =>
            refine ⟨.malformed, ?_, rfl⟩
            rcases hcurrent with rfl | rfl <;>
              simp [evaluateClaimTransition, evaluateReview, isTerminal, isLive, hf]
    | evidenceRefuted evidence =>
        cases hunmet : refutedUnmet evidence with
        | nil =>
            refine ⟨.refuted, ?_, rfl⟩
            rcases hcurrent with rfl | rfl <;>
              simp [evaluateClaimTransition, isTerminal, isLive, hunmet]
        | cons unmet rest =>
            refine ⟨.disputed, ?_, rfl⟩
            rcases hcurrent with rfl | rfl <;>
              simp [evaluateClaimTransition, isTerminal, isLive, hunmet]
    | authorConcession =>
        refine ⟨.refuted, ?_, rfl⟩
        rcases hcurrent with rfl | rfl <;> rfl
    | authorWithdrawal =>
        refine ⟨.withdrawn, ?_, rfl⟩
        rcases hcurrent with rfl | rfl <;> rfl
    | reducedTo target => exact absurd rfl (hreduced target)
    | promote => cases hagainst
    | refutationAttemptRecorded attemptId => cases hagainst
    | newVersion version => cases hagainst
    | operatorRepair reason target => cases hagainst
  have hallow : ∀ next, evaluateClaimTransition s.disposition event s.context = .allow next →
      (s.apply event).disposition = next := by
    intro next h
    unfold apply
    rw [h]
  rcases isPlaced_cases hplaced with hearning | hcontested
  · obtain ⟨next, hnext, hadverse⟩ := hlive .open s.context (.inl rfl)
    rw [hallow next ((evaluate_against_earning hearning hagainst).trans hnext)]
    exact hadverse
  · rcases Bool.or_eq_true _ _ |>.mp hcontested with hadverse | hreducedTo
    · exact apply_adverse s event (isWithinVersion_of_isAgainst hagainst) hadverse
    · have hstate : s.disposition = .reducedTo := by simpa using hreducedTo
      obtain ⟨next, hnext, hadverse⟩ := hlive .reducedTo s.context (.inr rfl)
      rw [hallow next (by rw [hstate]; exact hnext)]
      exact hadverse

theorem contest_adverse {event : PinnedEvent} (h : event.isAdverse = true) :
    ∃ first rest, contest event = first :: rest ∧ ∀ target, first ≠ .reducedTo target := by
  cases event with
  | claimRetracted retractionId wholeIdentity => exact ⟨_, _, rfl, fun _ h => by cases h⟩
  | authorConcession => exact ⟨_, _, rfl, fun _ h => by cases h⟩
  | refutingEvidence evidenceId confirmed hours => exact ⟨_, _, rfl, fun _ h => by cases h⟩
  | reviewCreated review =>
      simp only [PinnedEvent.isAdverse, Bool.and_eq_true, Bool.or_eq_true, beq_iff_eq] at h
      obtain ⟨hweight, hfinding | hfinding⟩ := h
      · simp only [contest, hweight, hfinding, Bool.not_true, Bool.false_eq_true, ↓reduceIte]
        exact ⟨_, _, rfl, fun _ h => by cases h⟩
      · simp only [contest, hweight, hfinding, Bool.not_true, Bool.false_eq_true, ↓reduceIte]
        exact ⟨_, _, rfl, fun _ h => by cases h⟩
  | claimReduced target => cases h
  | falsificationAttempt attempt => cases h
  | certifiedArtifact evidenceId => cases h

theorem feed_adverse (s : FoldState) {events : List ClaimEvent}
    (h : ∀ event ∈ events, event.isAgainst = true) (hs : s.disposition.isAdverse = true) :
    (s.feed events).disposition.isAdverse = true := by
  induction events generalizing s with
  | nil => exact hs
  | cons event rest ih =>
      exact ih (s.apply event) (fun later hlater => h later (List.mem_cons_of_mem _ hlater))
        (apply_adverse s event (isWithinVersion_of_isAgainst (h event (List.mem_cons_self ..))) hs)

theorem foldPinned_adverse {s : FoldState} {event : PinnedEvent}
    (hplaced : s.disposition.isPlaced = true) (hevent : event.isAdverse = true) :
    (s.foldPinned event).disposition.isAdverse = true := by
  obtain ⟨first, rest, hcontest, hreduced⟩ := contest_adverse hevent
  have hagainst : ∀ event' ∈ first :: rest, event'.isAgainst = true :=
    fun event' hmem => contest_isAgainst (hcontest ▸ hmem)
  rw [foldPinned_contest s (by rw [hcontest]; exact List.cons_ne_nil _ _), hcontest]
  exact feed_adverse (s.apply first) (fun later hlater => hagainst later (List.mem_cons_of_mem _ hlater))
    (apply_adverseEvent hplaced (hagainst first (List.mem_cons_self ..)) hreduced)

theorem foldPinned_identityWithdrawn (s : FoldState) (event : PinnedEvent) :
    (s.foldPinned event).identityWithdrawn
      = (s.identityWithdrawn || event.withdrawsIdentity) := by
  cases event with
  | claimRetracted retractionId wholeIdentity =>
      simp only [foldPinned, PinnedEvent.withdrawsIdentity]
      cases wholeIdentity with
      | none => simp [withdrawIdentity]
      | some whole => cases whole <;> simp [withdrawIdentity]
  | claimReduced target => simp [foldPinned, PinnedEvent.withdrawsIdentity]
  | authorConcession => simp [foldPinned, PinnedEvent.withdrawsIdentity]
  | refutingEvidence evidenceId confirmed hours =>
      simp [foldPinned, PinnedEvent.withdrawsIdentity, countRefutationAttempt]
  | certifiedArtifact evidenceId => simp [foldPinned, PinnedEvent.withdrawsIdentity, qualify]
  | reviewCreated review =>
      have hkept : (s.foldReview review).identityWithdrawn = s.identityWithdrawn := by
        unfold foldReview foldSupport foldDispute
        repeat' split
        all_goals first | rfl | simp [addReview, certifyArtifact, countRefutationAttempt]
      simpa [foldPinned, PinnedEvent.withdrawsIdentity] using hkept
  | falsificationAttempt attempt =>
      have hkept : (s.foldAttempt attempt).identityWithdrawn = s.identityWithdrawn := by
        unfold foldAttempt recordAttempt qualifyAttempt
        dsimp only
        repeat' split
        all_goals first | rfl | simp [qualify, markSeen, countRefutationAttempt]
      simpa [foldPinned, PinnedEvent.withdrawsIdentity] using hkept

/-! ## The withheld fold below the full one -/

inductive Standing (visible : Bool) (s t : FoldState) : Prop
  | adverse (h : t.disposition.isAdverse = true) : Standing visible s t
  | gathered (hs : s.disposition.isEarning = true) (ht : t.disposition.isEarning = true)
      (hle : SupportLe t.verifiedReviews s.verifiedReviews t.context s.context)
      (hartifacts : t.qualifyingArtifacts ⊆ s.qualifyingArtifacts) : Standing visible s t
  | reduced (hs : s.disposition = .reducedTo) (ht : t.disposition = .reducedTo) :
      Standing visible s t
  | unread (hs : s.disposition.isAdverse = false) (ht : t.disposition = .open)
      (hvisible : visible = false) : Standing visible s t

/-- What the fold knows of itself: it is placed, its standing is earned,
and an attempt it has seen was counted. -/
structure Sound (s : FoldState) : Prop where
  placed : s.Placed
  earned : s.Earned
  checked : s.seenAttemptIds ≠ [] → 1 ≤ s.recordedRefutationAttempts

/-- `t` folds the rows with payloads withheld, `s` folds all of them. -/
structure Below (visible : Int → Bool) (s t : FoldState) : Prop where
  full : s.Sound
  hidden : t.Sound
  version : t.currentVersion = s.currentVersion
  identity : s.identityWithdrawn = true → t.identityWithdrawn = true
  standing : ∀ version, s.currentVersion = some version → Standing (visible version) s t

/-- The review an event would store was not stored before. -/
def Fresh (s : FoldState) (event : Option PinnedEvent) : Prop :=
  ∀ review, event = some (.reviewCreated review) →
    review.reviewId ∉ s.verifiedReviews.map (·.reviewId)

theorem Sound.foldPinned? {s : FoldState} {event : Option PinnedEvent} (hs : s.Sound)
    (hcur : s.currentVersion.isSome = true) (hfresh : s.Fresh event) :
    (s.foldPinned? event).Sound := by
  cases event with
  | none => exact hs
  | some event =>
      have hframe := (frame_foldPinned s event).currentVersion
      refine ⟨⟨fun hnone => ?_, fun _ => placed_stable.foldPinned s event (hs.placed.born hcur)⟩,
        (foldPinned_earned event hs.earned (hs.placed.born hcur) fun review h =>
          hfresh review (congrArg some h)).1, ?_⟩
      · have hlost := hframe.symm.trans hnone
        rw [hlost] at hcur
        cases hcur
      · simp only [FoldState.foldPinned?]
        rw [foldPinned_eq]
        dsimp only
        intro hseen
        by_cases hnew : s.newChecks event = []
        · rw [hnew, List.nil_append] at hseen
          have := hs.checked hseen
          omega
        · have := List.length_pos_iff.mpr hnew
          omega

theorem collapse_reducedTo {d : ClaimDisposition} (h : d.collapse = .reducedTo) :
    d = .reducedTo := by
  unfold ClaimDisposition.collapse at h
  split at h
  · cases h
  · exact h

theorem collapse_earning_iff {d d' : ClaimDisposition} (h : d'.collapse = d.collapse)
    (hd : d.isEarning = true) : d'.isEarning = true := by
  rw [collapse_earning hd] at h
  unfold ClaimDisposition.collapse at h
  split at h
  · assumption
  · rw [h]; rfl

theorem collapse_isAdverse {d d' : ClaimDisposition} (h : d'.collapse = d.collapse) :
    d'.isAdverse = d.isAdverse := by
  cases d <;> cases d' <;> first | rfl | cases h

theorem supportLe_foldPinned {s t : FoldState} (hs : s.Sound) (event : PinnedEvent)
    (hle : SupportLe t.verifiedReviews s.verifiedReviews t.context s.context)
    (hartifacts : t.qualifyingArtifacts ⊆ s.qualifyingArtifacts) :
    SupportLe (t.foldPinned event).verifiedReviews (s.foldPinned event).verifiedReviews
        (t.foldPinned event).context (s.foldPinned event).context
      ∧ (t.foldPinned event).qualifyingArtifacts ⊆ (s.foldPinned event).qualifyingArtifacts := by
  rw [foldPinned_eq s, foldPinned_eq t]
  refine ⟨⟨List.append_subset.mpr ⟨fun _ h => List.mem_append_left _ (hle.reviews h),
    List.subset_append_right _ _⟩, ?_, ?_⟩, List.append_subset.mpr
      ⟨List.subset_append_left _ _, fun _ h => List.mem_append_right _ (hartifacts h)⟩⟩
  · -- a check the withheld fold sees first was seen by the full one, now or before
    intro hattempts
    have hbefore := hle.attempts
    simp only [context] at hattempts hbefore ⊢
    by_cases hchecks : t.newChecks event = []
    · rw [hchecks, List.length_nil] at hattempts
      by_cases hlanded : landings event = 0
      · have := hbefore (by omega)
        omega
      · omega
    · obtain ⟨check, hcheck⟩ := List.exists_mem_of_ne_nil _ hchecks
      simp only [newChecks, List.mem_filter, Option.mem_toList] at hcheck
      by_cases hseen : check ∈ s.seenAttemptIds
      · have := hs.checked (List.ne_nil_of_mem hseen)
        omega
      · have hnew : check ∈ s.newChecks event := by
          simp only [newChecks, List.mem_filter, Option.mem_toList]
          exact ⟨hcheck.1, by simpa using hseen⟩
        have := List.length_pos_of_mem hnew
        omega
  · intro hcertified
    have hbefore := hle.certified
    simp only [context, Bool.or_eq_true] at hcertified hbefore ⊢
    refine hcertified.imp hbefore fun hconfirms => ?_
    unfold confirms at hconfirms ⊢
    cases hartifact : confirms? event with
    | none => rw [hartifact] at hconfirms; cases hconfirms
    | some artifact =>
        rw [hartifact] at hconfirms
        simp only [Option.any_some, List.contains_iff_mem] at hconfirms ⊢
        exact hartifacts hconfirms

theorem supportLe_full {s t : FoldState} (event : PinnedEvent)
    (hle : SupportLe t.verifiedReviews s.verifiedReviews t.context s.context)
    (hartifacts : t.qualifyingArtifacts ⊆ s.qualifyingArtifacts) :
    SupportLe t.verifiedReviews (s.foldPinned event).verifiedReviews
        t.context (s.foldPinned event).context
      ∧ t.qualifyingArtifacts ⊆ (s.foldPinned event).qualifyingArtifacts := by
  rw [foldPinned_eq s]
  refine ⟨⟨fun _ h => List.mem_append_left _ (hle.reviews h), fun h => ?_, fun h => ?_⟩,
    fun _ h => List.mem_append_right _ (hartifacts h)⟩
  · have := hle.attempts h
    simp only [context] at this ⊢
    omega
  · have := hle.certified h
    simp only [context] at this ⊢
    rw [this]
    rfl

theorem Standing.full_quiet {visible : Bool} {s t : FoldState} {event : PinnedEvent} (hs : s.Sound)
    (hcur : s.currentVersion.isSome = true) (hquiet : contest event = [])
    (hfresh : s.Fresh (some event)) (h : Standing visible s t) :
    Standing visible (s.foldPinned event) t := by
  have hgathers := foldPinned_gathers hs.earned (hs.placed.born hcur) hquiet fun review heq =>
    hfresh review (congrArg some heq)
  cases h with
  | adverse h => exact .adverse h
  | gathered hearning ht hle hartifacts =>
      obtain ⟨hle', hartifacts'⟩ := supportLe_full event hle hartifacts
      exact .gathered (collapse_earning_iff hgathers.collapse hearning) ht hle' hartifacts'
  | reduced hreduced ht =>
      refine .reduced (collapse_reducedTo ?_) ht
      rw [hgathers.collapse, hreduced]
      rfl
  | unread hadverse ht hvisible =>
      exact .unread ((collapse_isAdverse hgathers.collapse).trans hadverse) ht hvisible

theorem Standing.pinned {visible : Bool} {s t : FoldState} {full hidden : Option PinnedEvent}
    (hs : s.Sound) (ht : t.Sound) (hcur : s.currentVersion.isSome = true)
    (hcur' : t.currentVersion.isSome = true) (hsoft : Softens visible full hidden)
    (hfresh : s.Fresh full) (hfresh' : t.Fresh hidden) (h : Standing visible s t) :
    Standing visible (s.foldPinned? full) (t.foldPinned? hidden) := by
  cases hsoft with
  | against hadverse _ => exact .adverse (foldPinned_adverse (ht.placed.born hcur') hadverse)
  | @same event hquiet hvisible =>
      have hgathers := foldPinned_gathers hs.earned (hs.placed.born hcur) hquiet fun review heq =>
        hfresh review (congrArg some heq)
      have hgathers' := foldPinned_gathers ht.earned (ht.placed.born hcur') hquiet fun review heq =>
        hfresh' review (congrArg some heq)
      cases h with
      | adverse h => exact .adverse (adverse_stable.foldPinned t event h)
      | gathered hearning hearning' hle hartifacts =>
          obtain ⟨hle', hartifacts'⟩ := supportLe_foldPinned hs event hle hartifacts
          exact .gathered (collapse_earning_iff hgathers.collapse hearning)
            (collapse_earning_iff hgathers'.collapse hearning') hle' hartifacts'
      | reduced hreduced hreduced' =>
          refine .reduced (collapse_reducedTo ?_) (collapse_reducedTo ?_)
          · exact hgathers.collapse.trans (by rw [hreduced]; rfl)
          · exact hgathers'.collapse.trans (by rw [hreduced']; rfl)
      | unread _ _ hhidden => rw [hvisible] at hhidden; cases hhidden
  | idle hfull hhidden =>
      have hsame : t.foldPinned? hidden = t := by
        cases hidden with
        | none => rfl
        | some event => exact hhidden event rfl t
      rw [hsame]
      cases full with
      | none => exact h
      | some event => exact h.full_quiet hs hcur (hfull event rfl) hfresh

theorem Softens.identity {visible : Bool} {full hidden : Option PinnedEvent}
    (h : Softens visible full hidden) {s t : FoldState}
    (hidentity : s.identityWithdrawn = true → t.identityWithdrawn = true)
    (hs : (s.foldPinned? full).identityWithdrawn = true) :
    (t.foldPinned? hidden).identityWithdrawn = true := by
  have hquiet : ∀ event, contest event = [] → event.withdrawsIdentity = false := by
    intro event hevent
    cases event <;> first | rfl | cases hevent
  cases h with
  | against _ whole =>
      simp only [foldPinned?, foldPinned_identityWithdrawn, Bool.or_eq_true] at hs ⊢
      cases full with
      | none => exact .inl (hidentity hs)
      | some event =>
          simp only [foldPinned_identityWithdrawn, Bool.or_eq_true] at hs
          exact hs.imp hidentity (whole event rfl)
  | same _ _ =>
      simp only [foldPinned?, foldPinned_identityWithdrawn, Bool.or_eq_true] at hs ⊢
      exact hs.imp hidentity id
  | idle hfull hhidden =>
      have hsame : t.foldPinned? hidden = t := by
        cases hidden with
        | none => rfl
        | some event => exact hhidden event rfl t
      rw [hsame]
      cases full with
      | none => exact hidentity hs
      | some event =>
          simp only [foldPinned?, foldPinned_identityWithdrawn, hquiet event (hfull event rfl),
            Bool.or_false] at hs
          exact hidentity hs

theorem Below.pinned {visible : Int → Bool} {s t : FoldState} (h : Below visible s t)
    {version : Int} (hcur : s.currentVersion = some version) {full hidden : Option PinnedEvent}
    (hsoft : Softens (visible version) full hidden) (hfresh : s.Fresh full)
    (hfresh' : t.Fresh hidden) : Below visible (s.foldPinned? full) (t.foldPinned? hidden) := by
  have hcur' := h.version.trans hcur
  have hkept : ∀ (s : FoldState) (event : Option PinnedEvent),
      (s.foldPinned? event).currentVersion = s.currentVersion := by
    intro s event
    cases event with
    | none => rfl
    | some event => exact (frame_foldPinned s event).currentVersion
  refine ⟨h.full.foldPinned? (by rw [hcur]; rfl) hfresh,
    h.hidden.foldPinned? (by rw [hcur']; rfl) hfresh', ?_, Softens.identity hsoft h.identity, ?_⟩
  · rw [hkept, hkept]
    exact h.version
  · intro version' hversion'
    rw [hkept, hcur] at hversion'
    cases hversion'
    exact (h.standing version hcur).pinned h.full h.hidden (by rw [hcur]; rfl) (by rw [hcur']; rfl)
      hsoft hfresh hfresh'

/-! ## Publications -/

theorem create_open (s : FoldState) (target : Option String) (hdraft : s.disposition = .draft) :
    s.create target =
      { priorSequence := s.priorSequence
        currentVersion := some 1
        identityWithdrawn := s.identityWithdrawn
        disposition := if reduces target then .reducedTo else .open
        recordedRefutationAttempts := 0
        verifiedReviews := []
        hasCertifiedArtifact := false
        qualifyingArtifacts := []
        seenAttemptIds := [] } := by
  unfold create
  rw [applyReduction_live]
  · rw [apply_eq]; rfl
  · simp [apply, openVersion, hdraft, evaluateClaimTransition, isTerminal]

structure Opened (s : FoldState) (version : Int) (target : Option String) : Prop where
  version : s.currentVersion = some version
  disposition : s.disposition = if reduces target then .reducedTo else .open
  attempts : s.recordedRefutationAttempts = 0
  reviews : s.verifiedReviews = []
  artifacts : s.qualifyingArtifacts = []
  certified : s.hasCertifiedArtifact = false
  seen : s.seenAttemptIds = []

theorem Opened.sound {s : FoldState} {version : Int} {target : Option String}
    (h : s.Opened version target) : s.Sound := by
  refine ⟨⟨fun hnone => ?_, fun _ => ?_⟩, ⟨⟨fun _ hmem => ?_, ?_⟩, fun hearning => ?_⟩, ?_⟩
  · rw [h.version] at hnone; cases hnone
  · rw [h.disposition]; split <;> rfl
  · rw [h.reviews] at hmem; cases hmem
  · rw [h.reviews]; exact List.nodup_nil
  · rw [h.disposition] at hearning ⊢
    split at hearning
    · cases hearning
    · rename_i hlive
      rw [if_neg hlive, h.reviews]
      rfl
  · intro hseen
    exact absurd h.seen hseen

theorem Opened.standing {visible : Bool} {s t : FoldState} {version : Int}
    {target target' : Option String} (hs : s.Opened version target)
    (ht : t.Opened version target')
    (htarget : target' = target ∨ target' = none ∧ visible = false) : Standing visible s t := by
  rcases htarget with rfl | ⟨rfl, hvisible⟩
  · cases hreduces : reduces target' with
    | true =>
        exact .reduced (by rw [hs.disposition, hreduces]; rfl) (by rw [ht.disposition, hreduces]; rfl)
    | false =>
        refine .gathered (by rw [hs.disposition, hreduces]; rfl)
          (by rw [ht.disposition, hreduces]; rfl) ⟨?_, ?_, ?_⟩ ?_
        · rw [ht.reviews]; exact List.nil_subset _
        · simp [context, ht.attempts]
        · simp [context, ht.certified]
        · rw [ht.artifacts]; exact List.nil_subset _
  · refine .unread ?_ ht.disposition hvisible
    rw [hs.disposition]
    split <;> rfl

theorem revise_sound (s : FoldState) (version : Int) (target : Option String)
    (hplaced : s.disposition.isPlaced = true) : (s.revise version target).Sound := by
  cases hidentity : s.identityWithdrawn with
  | false =>
      rw [revise_open s version target hplaced hidentity]
      exact @Opened.sound _ version target ⟨rfl, rfl, rfl, rfl, rfl, rfl, rfl⟩
  | true =>
      rw [revise_withdrawn s version target hidentity]
      refine ⟨⟨fun hnone => ?_, fun _ => rfl⟩, ⟨⟨fun _ hmem => ?_, List.nodup_nil⟩, fun h => ?_⟩,
        fun h => absurd rfl h⟩
      · cases hnone
      · cases hmem
      · cases h

theorem Below.revise {visible : Int → Bool} {s t : FoldState} (h : Below visible s t)
    (hcur : s.currentVersion.isSome = true) {version : Int} {target target' : Option String}
    (htarget : target' = target ∨ target' = none ∧ visible version = false) :
    Below visible (s.revise version target) (t.revise version target') := by
  have hplaced := h.full.placed.born hcur
  have hplaced' := h.hidden.placed.born (h.version ▸ hcur)
  refine ⟨revise_sound s version target hplaced, revise_sound t version target' hplaced', rfl,
    fun hidentity => ?_, fun current hcurrent => ?_⟩
  · rw [revise_identityWithdrawn] at hidentity ⊢
    exact h.identity hidentity
  · cases hcurrent
    cases hidentity : t.identityWithdrawn with
    | true =>
        refine .adverse ?_
        rw [revise_withdrawn t version target' hidentity]
        rfl
    | false =>
        have hidentity' : s.identityWithdrawn = false := by
          cases hs : s.identityWithdrawn with
          | false => rfl
          | true => rw [h.identity hs] at hidentity; cases hidentity
        rw [revise_open s version target hplaced hidentity',
          revise_open t version target' hplaced' hidentity]
        exact @Opened.standing _ _ _ version target target'
          ⟨rfl, rfl, rfl, rfl, rfl, rfl, rfl⟩ ⟨rfl, rfl, rfl, rfl, rfl, rfl, rfl⟩ htarget

theorem Below.create {visible : Int → Bool} {s t : FoldState} (h : Below visible s t)
    (hcur : s.currentVersion = none) {target target' : Option String}
    (htarget : target' = target ∨ target' = none ∧ visible 1 = false) :
    Below visible (s.create target) (t.create target') := by
  have hopened : (s.create target).Opened 1 target := by
    rw [create_open s target (h.full.placed.unborn hcur)]
    exact ⟨rfl, rfl, rfl, rfl, rfl, rfl, rfl⟩
  have hopened' : (t.create target').Opened 1 target' := by
    rw [create_open t target' (h.hidden.placed.unborn (h.version.trans hcur))]
    exact ⟨rfl, rfl, rfl, rfl, rfl, rfl, rfl⟩
  refine ⟨hopened.sound, hopened'.sound, hopened'.version.trans hopened.version.symm, ?_, ?_⟩
  · intro hidentity
    rw [create_open s target (h.full.placed.unborn hcur)] at hidentity
    rw [create_open t target' (h.hidden.placed.unborn (h.version.trans hcur))]
    exact h.identity hidentity
  · intro version hversion
    rw [hopened.version] at hversion
    cases hversion
    exact hopened.standing hopened' htarget

theorem Below.advance {visible : Int → Bool} {s t : FoldState} (h : Below visible s t)
    (sequence sequence' : Int) : Below visible (s.advance sequence) (t.advance sequence') where
  full := ⟨⟨h.full.placed.unborn, h.full.placed.born⟩,
    ⟨h.full.earned.supporting, h.full.earned.settled⟩, h.full.checked⟩
  hidden := ⟨⟨h.hidden.placed.unborn, h.hidden.placed.born⟩,
    ⟨h.hidden.earned.supporting, h.hidden.earned.settled⟩, h.hidden.checked⟩
  version := h.version
  identity := h.identity
  standing version hversion := by
    cases h.standing version hversion with
    | adverse h => exact .adverse h
    | gathered hs ht hle hartifacts => exact .gathered hs ht hle hartifacts
    | reduced hs ht => exact .reduced hs ht
    | unread hs ht hvisible => exact .unread hs ht hvisible

theorem Below.result {visible : Int → Bool} {s t : FoldState} (h : Below visible s t) :
    (t.disposition.isAdverse = false → s.disposition.isAdverse = false)
      ∧ (t.disposition = .stronglySupported → s.disposition = .stronglySupported)
      ∧ (t.disposition = .corroborated →
        s.disposition = .corroborated ∨ s.disposition = .stronglySupported) := by
  cases hcur : s.currentVersion with
  | none =>
      have hdraft := h.full.placed.unborn hcur
      have hdraft' := h.hidden.placed.unborn (h.version.trans hcur)
      rw [hdraft, hdraft']
      exact ⟨fun _ => rfl, by simp, by simp⟩
  | some version =>
      have hearning : ∀ d : ClaimDisposition, d.isEarning = true → d.isAdverse = false := by
        intro d hd
        cases d <;> first | rfl | cases hd
      cases h.standing version hcur with
      | adverse hadverse =>
          refine ⟨fun hnot => ?_, fun hd => ?_, fun hd => ?_⟩
          · rw [hadverse] at hnot; cases hnot
          · rw [hd] at hadverse; cases hadverse
          · rw [hd] at hadverse; cases hadverse
      | gathered hs ht hle _ =>
          have hsettled := h.full.earned.settled hs
          have hsettled' := h.hidden.earned.settled ht
          have hcorroborated := corroborationUnmet_mono
            (distinctSupportingReviews_eq h.hidden.earned.supporting)
            (distinctSupportingReviews_eq h.full.earned.supporting) hle
          have hstrong := strongSupportUnmet_mono
            (distinctSupportingReviews_eq h.hidden.earned.supporting)
            (distinctSupportingReviews_eq h.full.earned.supporting) hle
          refine ⟨fun _ => hearning _ hs, fun hd => ?_, fun hd => ?_⟩
          · rw [hsettled'] at hd
            unfold settle at hd
            split at hd
            · rename_i hgate
              split at hd
              · rename_i hgate'
                rw [hsettled, settle, if_pos (hcorroborated hgate), if_pos (hstrong hgate')]
              · cases hd
            · cases hd
          · rw [hsettled'] at hd
            unfold settle at hd
            split at hd
            · rename_i hgate
              rw [hsettled, settle, if_pos (hcorroborated hgate)]
              split
              · exact .inr rfl
              · exact .inl rfl
            · cases hd
      | reduced hs ht =>
          rw [hs, ht]
          exact ⟨fun _ => rfl, by simp, by simp⟩
      | unread hs ht _ =>
          rw [ht]
          exact ⟨fun _ => hs, by simp, by simp⟩

end FoldState

/-! ## One row -/

section Rows

variable {reader : ScientificReader} {rows rows' : List ScientificRow}

theorem not_withdrawnInput (hevents : rows.Pairwise (·.eventId ≠ ·.eventId)) {row : ScientificRow}
    (hrow : row ∈ rows) (hreview : row.type ≠ .reviewCreated)
    (hevidence : row.type ≠ .evidenceCreated) :
    (Snapshot.mk reader rows).isWithdrawnInput row = false := by
  cases hinput : (Snapshot.mk reader rows).isWithdrawnInput row with
  | false => rfl
  | true =>
      exfalso
      simp only [Snapshot.isWithdrawnInput, Bool.or_eq_true, Bool.and_eq_true, beq_iff_eq,
        List.contains_iff_mem] at hinput
      rcases hinput with hwithdrawn | ⟨htype, -⟩
      · obtain ⟨original, horiginal, hid, htype⟩ := mem_withdrawnEvents hwithdrawn
        rw [eq_of_pairwise hevents horiginal hrow (not_not.mpr hid) (not_not.mpr hid.symm)] at htype
        rcases htype with h | h
        · exact hevidence h
        · exact hreview h
      · exact hevidence htype

theorem claimAt_lost (hevents : rows.Pairwise (·.eventId ≠ ·.eventId))
    (hversions : DistinctVersions rows) {row : ScientificRow} (hrow : row ∈ rows)
    (hpublication : row.isPublication = true)
    (hlost : (Snapshot.mk reader rows).contents row.eventId = none) :
    (Snapshot.mk reader rows).claimAt row.objectVersion = none := by
  cases hclaim : (Snapshot.mk reader rows).claimAt row.objectVersion with
  | none => rfl
  | some claim =>
      obtain ⟨other, hother, hpub, hversion, hpublished⟩ := (claimAt_iff hversions).mp hclaim
      rw [hversions other hother row hrow hpub hpublication hversion] at hpublished
      have hcontent := @contentOf_row reader.toPayloadReader _ hevents _ hrow
      rw [Snapshot.contents] at hlost
      simp only at hlost
      rw [hlost] at hcontent
      unfold Snapshot.publishedClaim at hpublished
      rw [← hcontent] at hpublished
      cases hpublished

theorem soft_row (h : List.Forall₂ Withheld rows rows')
    (hrecorded : Recorded reader.toPayloadReader rows) {row row' : ScientificRow}
    (hrow : row ∈ rows) (hrow' : row' ∈ rows') (hwithheld : Withheld row row')
    (stale stale' : Bool) :
    SoftRow (fun version => ((Snapshot.mk reader rows').claimAt version).isSome) row
      ((Snapshot.mk reader rows).readRow stale row).event
      ((Snapshot.mk reader rows').readRow stale' row').event := by
  have d := Withheld.dimmed h hrecorded
  have hevents' : rows'.Pairwise (·.eventId ≠ ·.eventId) :=
    Withheld.pairwise h hrecorded.events fun _ _ _ _ h₁ h₂ hne => by rwa [h₁.eventId, h₂.eventId]
  have hcolumns : ∀ payload, (Snapshot.mk reader rows).contents row.eventId = some payload →
      ColumnsMatch row payload := by
    intro payload hpayload
    refine hrecorded.columns row hrow payload ?_
    rw [← contentOf_row hrecorded.events hrow]
    exact hpayload
  have henvelope : (Snapshot.mk reader rows').readRow stale' row'
      = (Snapshot.mk reader rows').readRow stale' row := by
    rcases hwithheld with rfl | rfl
    · rfl
    · exact Snapshot.readRow_envelope _ _ none stale'
  rw [henvelope]
  have hkept : row.type ≠ .reviewCreated → row.type ≠ .evidenceCreated →
      (Snapshot.mk reader rows').isWithdrawnInput row = false := by
    intro hreview hevidence
    have hinput := @not_withdrawnInput reader _ hevents' _ hrow'
      (by rwa [hwithheld.type]) (by rwa [hwithheld.type])
    rcases hwithheld with rfl | rfl <;> exact hinput
  have hpublication : row.isPublication = true → row.type ≠ .reviewCreated →
      row.type ≠ .evidenceCreated → SoftRow
        (fun version => ((Snapshot.mk reader rows').claimAt version).isSome) row
        ((Snapshot.mk reader rows).readRow stale row).event
        ((Snapshot.mk reader rows').readRow stale' row).event := by
    intro hpub hreview hevidence
    refine d.soft_publication hpub (hkept hreview hevidence) fun hlost => ?_
    rw [← hwithheld.eventId] at hlost
    rw [← hwithheld.objectVersion]
    exact claimAt_lost hevents' (hrecorded.versions.withheld h hrecorded.events) hrow'
      (hwithheld.isPublication.trans hpub) hlost
  cases htype : row.type with
  | claimCreated =>
      refine hpublication ?_ ?_ ?_ <;> simp [ScientificRow.isPublication, htype]
  | claimRevised =>
      refine hpublication ?_ ?_ ?_ <;> simp [ScientificRow.isPublication, htype]
  | reviewCreated => exact d.soft_review htype hcolumns
  | evidenceCreated => exact d.soft_evidence htype
  | objectRetracted =>
      exact d.soft_retraction htype (hkept (by simp [htype]) (by simp [htype]))
        fun payload hpayload => (hcolumns payload hpayload).retraction htype
  | other =>
      have hnone : ∀ (s : Snapshot) (stale : Bool), (s.readRow stale row).event = none := by
        intro s stale
        cases hskip : s.isSkipped row with
        | true => exact s.readRow_skipped stale row hskip
        | false =>
            obtain ⟨marks, hread⟩ := s.readRow_admitted stale row hskip
            rw [hread]
            simp only [Snapshot.readAdmitted, htype]
      rw [hnone, hnone]
      exact .pinned none none .none_none

end Rows

/-! ## The whole fold -/

section Fold

variable {s s' : Snapshot}

theorem SoftRow.sequence {visible : Int → Bool} {row : ScientificRow}
    {full hidden : Option VersionedClaimTimelineEvent} (h : SoftRow visible row full hidden) :
    (∀ event ∈ full, event.sequence = row.seq) ∧ ∀ event ∈ hidden, event.sequence = row.seq := by
  cases h with
  | created _ => exact ⟨fun _ h => by cases h; rfl, fun _ h => by cases h; rfl⟩
  | revised _ => exact ⟨fun _ h => by cases h; rfl, fun _ h => by cases h; rfl⟩
  | pinned full hidden _ =>
      constructor
      · intro event hevent
        obtain ⟨pinned, -, rfl⟩ := Option.map_eq_some_iff.mp (Option.mem_def.mp hevent)
        rfl
      · intro event hevent
        obtain ⟨pinned, -, rfl⟩ := Option.map_eq_some_iff.mp (Option.mem_def.mp hevent)
        rfl

namespace FoldState

/-- The rows to come are later than the state, and their reviews new. -/
structure Ahead (s : FoldState) (rest : List ScientificRow) : Prop where
  sequence : ∀ row ∈ rest, s.priorSequence < row.seq
  fresh : ∀ row ∈ rest, row.type = .reviewCreated →
    row.objectId ∉ s.verifiedReviews.map (·.reviewId)

def step? (s : FoldState) (event : Option VersionedClaimTimelineEvent) :
    Except TypeError FoldState :=
  match event with
  | some event => s.step event
  | none => .ok s

theorem run_filterMap_cons {α : Type} {f : α → Option VersionedClaimTimelineEvent} {a : α}
    {as : List α} {s t : FoldState} :
    s.run ((a :: as).filterMap f) = .ok t ↔
      ∃ m, s.step? (f a) = .ok m ∧ m.run (as.filterMap f) = .ok t := by
  cases hf : f a with
  | none =>
      rw [List.filterMap_cons_none hf]
      constructor
      · exact fun h => ⟨s, rfl, h⟩
      · rintro ⟨m, hm, h⟩
        rwa [Except.ok.inj hm]
  | some event =>
      rw [List.filterMap_cons_some hf]
      exact run_cons_ok

theorem step?_pinned {s t : FoldState} {row : ScientificRow} {event : Option PinnedEvent} :
    s.step? (event.map (.pinned row.seq row.targetVersion)) = .ok t ↔
      (event.isSome = true → s.admits (.pinned row.seq row.targetVersion .authorConcession) = true)
        ∧ t = if s.currentVersion = some row.targetVersion then
            (s.advance (if event.isSome then row.seq else s.priorSequence)).foldPinned? event
          else s.advance (if event.isSome then row.seq else s.priorSequence) := by
  cases event with
  | none =>
      have hkept : s = t ↔ t = if s.currentVersion = some row.targetVersion then s else s := by
        rw [ite_self]
        exact eq_comm
      constructor
      · intro h
        exact ⟨fun hnone => by (cases hnone), hkept.mp (Except.ok.inj h)⟩
      · intro h
        exact congrArg Except.ok (hkept.mpr h.2)
  | some event =>
      simp only [Option.map_some, step?, step_pinned_ok, Option.isSome_some, ↓reduceIte,
        forall_const]
      rfl

theorem create_frame (s : FoldState) (target : Option String) :
    (s.create target).priorSequence = s.priorSequence ∧ (s.create target).verifiedReviews = [] := by
  unfold create
  rw [applyReduction_eq, apply_eq]
  exact ⟨rfl, rfl⟩

theorem revise_frame (s : FoldState) (version : Int) (target : Option String) :
    (s.revise version target).priorSequence = s.priorSequence
      ∧ (s.revise version target).verifiedReviews = [] := by
  have hrenew : (s.renew version).priorSequence = s.priorSequence := by
    unfold renew
    split
    · rfl
    · split
      · rfl
      · exact apply_priorSequence ..
  refine ⟨?_, rfl⟩
  unfold revise
  rw [applyReduction_eq]
  exact hrenew

section Step

variable {visible : Int → Bool} {s t m : FoldState} {row : ScientificRow}
  {rest : List ScientificRow}

theorem ahead_foldPinned? {event : Option PinnedEvent} (h : s.Ahead (row :: rest))
    (hordered : ∀ other ∈ rest, row.seq < other.seq)
    (hobjects : ∀ other ∈ rest, row.type = .reviewCreated → other.type = .reviewCreated →
      row.objectId ≠ other.objectId)
    (hids : ∀ review, event = some (.reviewCreated review) →
      row.type = .reviewCreated ∧ review.reviewId = row.objectId)
    {sequence : Int} (hsequence : sequence ≤ row.seq) :
    ((s.advance sequence).foldPinned? event).Ahead rest
      ∧ (s.advance sequence).Ahead rest := by
  have hadvance : (s.advance sequence).Ahead rest :=
    ⟨fun other hother => lt_of_le_of_lt hsequence (hordered other hother),
      fun other hother => h.fresh other (List.mem_cons_of_mem _ hother)⟩
  refine ⟨?_, hadvance⟩
  cases event with
  | none => exact hadvance
  | some event =>
      refine ⟨fun other hother => ?_, fun other hother htype => ?_⟩
      · rw [FoldState.foldPinned?, (frame_foldPinned _ event).priorSequence]
        exact hadvance.sequence other hother
      · rw [FoldState.foldPinned?, foldPinned_verifiedReviews, List.map_append, List.mem_append]
        rintro (hmem | hmem)
        · exact hadvance.fresh other hother htype hmem
        · cases event with
          | reviewCreated review =>
              obtain ⟨hreview, hid⟩ := hids review rfl
              have hmem' := (supportRows_reviewId 0 0 (.reviewCreated review)).subset hmem
              have heq : other.objectId = review.reviewId := by
                simpa [VersionedClaimTimelineEvent.reviewId?] using hmem'
              exact hobjects other hother hreview htype (hid.symm.trans heq.symm)
          | _ => cases hmem

theorem step_below {full hidden : Option VersionedClaimTimelineEvent} (hb : Below visible s t)
    (hs : s.Ahead (row :: rest)) (ht : t.Ahead (row :: rest))
    (hordered : ∀ other ∈ rest, row.seq < other.seq)
    (hobjects : ∀ other ∈ rest, row.type = .reviewCreated → other.type = .reviewCreated →
      row.objectId ≠ other.objectId)
    (hposition : isSafeInteger row.seq = true ∧ 1 ≤ row.targetVersion
      ∧ isSafeInteger row.targetVersion = true)
    (hsoft : SoftRow visible row full hidden)
    (hids : ∀ sequence version review,
      full = some (.pinned sequence version (.reviewCreated review))
        ∨ hidden = some (.pinned sequence version (.reviewCreated review)) →
      row.type = .reviewCreated ∧ review.reviewId = row.objectId)
    (hstep : s.step? full = .ok m) :
    ∃ n, t.step? hidden = .ok n ∧ Below visible m n ∧ m.Ahead rest ∧ n.Ahead rest := by
  have hlater := ht.sequence row (List.mem_cons_self ..)
  have hopened : ∀ s : FoldState, s.priorSequence = row.seq ∧ s.verifiedReviews = [] →
      s.Ahead rest := by
    rintro s ⟨hprior, hreviews⟩
    refine ⟨fun other hother => ?_, fun other hother _ => ?_⟩
    · rw [hprior]; exact hordered other hother
    · rw [hreviews]; simp
  cases hsoft with
  | @created target target' htarget =>
      obtain ⟨hadmits, hnone, hversion, rfl⟩ := step_created_ok.mp hstep
      have hadmits' : t.admits (.claimCreated row.seq row.objectVersion target') = true := by
        simp only [admits, VersionedClaimTimelineEvent.sequence,
          VersionedClaimTimelineEvent.version, Bool.and_eq_true] at hadmits ⊢
        exact ⟨⟨⟨hadmits.1.1.1, decide_eq_true hlater⟩, hadmits.1.2⟩, hadmits.2⟩
      rw [hversion] at htarget
      exact ⟨_, step_created_ok.mpr ⟨hadmits', hb.version.trans hnone, hversion, rfl⟩,
        (hb.advance row.seq row.seq).create hnone htarget, hopened _ (create_frame _ _),
        hopened _ (create_frame _ _)⟩
  | @revised target target' htarget =>
      obtain ⟨hadmits, hcur, rfl⟩ := step_revised_ok.mp hstep
      have hadmits' : t.admits (.claimRevised row.seq row.objectVersion target') = true := by
        simp only [admits, VersionedClaimTimelineEvent.sequence,
          VersionedClaimTimelineEvent.version, Bool.and_eq_true] at hadmits ⊢
        exact ⟨⟨⟨hadmits.1.1.1, decide_eq_true hlater⟩, hadmits.1.2⟩, hadmits.2⟩
      have hsome : s.currentVersion.isSome = true := by
        cases hv : s.currentVersion <;> simp [hv] at hcur ⊢
      exact ⟨_, step_revised_ok.mpr ⟨hadmits', by rw [hb.version]; exact hcur, rfl⟩,
        (hb.advance row.seq row.seq).revise hsome htarget, hopened _ (revise_frame _ _ _),
        hopened _ (revise_frame _ _ _)⟩
  | pinned full hidden hsoft =>
      obtain ⟨-, rfl⟩ := step?_pinned.mp hstep
      have hadmits' : t.admits (.pinned row.seq row.targetVersion .authorConcession) = true := by
        simp only [admits, VersionedClaimTimelineEvent.sequence,
          VersionedClaimTimelineEvent.version, Bool.and_eq_true]
        exact ⟨⟨⟨hposition.1, decide_eq_true hlater⟩, hposition.2.2⟩, decide_eq_true hposition.2.1⟩
      have hle : ∀ (s : FoldState) (event : Option PinnedEvent), s.priorSequence < row.seq →
          (if event.isSome then row.seq else s.priorSequence) ≤ row.seq := by
        intro s event hprior
        split
        · exact le_rfl
        · exact hprior.le
      have hids' : ∀ event : Option PinnedEvent,
          event = full ∨ event = hidden →
          ∀ review, event = some (.reviewCreated review) →
            row.type = .reviewCreated ∧ review.reviewId = row.objectId := by
        rintro event hevent review rfl
        refine hids row.seq row.targetVersion review (hevent.imp (fun h => ?_) fun h => ?_)
        · rw [← h, Option.map_some]
        · rw [← h, Option.map_some]
      have hahead := fun event => @ahead_foldPinned? _ _ _ event hs hordered hobjects
      have hahead' := fun event => @ahead_foldPinned? _ _ _ event ht hordered hobjects
      have hprior := hs.sequence row (List.mem_cons_self ..)
      obtain ⟨hfullAhead, hfullKept⟩ := hahead full (hids' full (.inl rfl)) (hle s full hprior)
      obtain ⟨hhiddenAhead, hhiddenKept⟩ :=
        hahead' hidden (hids' hidden (.inr rfl)) (hle t hidden hlater)
      refine ⟨_, step?_pinned.mpr ⟨fun _ => hadmits', rfl⟩, ?_⟩
      rw [hb.version]
      by_cases hcur : s.currentVersion = some row.targetVersion
      · rw [if_pos hcur, if_pos hcur]
        have hfresh : ∀ (s : FoldState) (event : Option PinnedEvent) (sequence : Int),
            s.Ahead (row :: rest) → (∀ review, event = some (.reviewCreated review) →
              row.type = .reviewCreated ∧ review.reviewId = row.objectId) →
            (s.advance sequence).Fresh event := by
          intro s event sequence hs hid review hevent
          obtain ⟨htype, hreview⟩ := hid review hevent
          rw [hreview]
          exact hs.fresh row (List.mem_cons_self ..) htype
        have hmoved := hb.advance (if full.isSome then row.seq else s.priorSequence)
          (if hidden.isSome then row.seq else t.priorSequence)
        refine ⟨hmoved.pinned hcur hsoft ?_ ?_, hfullAhead, hhiddenAhead⟩
        · exact hfresh s full _ hs (hids' full (.inl rfl))
        · exact hfresh t hidden _ ht (hids' hidden (.inr rfl))
      · rw [if_neg hcur, if_neg hcur]
        exact ⟨hb.advance _ _, hfullKept, hhiddenKept⟩

end Step

theorem run_below {reader : ScientificReader} {rows rows' suffix suffix' : List ScientificRow}
    (h : List.Forall₂ Withheld rows rows') (hrecorded : Recorded reader.toPayloadReader rows)
    (hsuffix : List.Forall₂ Withheld suffix suffix') (hsub : suffix.Sublist rows)
    (hsub' : suffix' ⊆ rows') {stale stale' : Bool} {s t m : FoldState}
    (hb : Below (fun version => ((Snapshot.mk reader rows').claimAt version).isSome) s t)
    (hs : s.Ahead suffix) (ht : t.Ahead suffix)
    (hrun : s.run (((Snapshot.mk reader rows).readRows stale suffix).filterMap (·.2.event))
      = .ok m) :
    ∃ n, t.run (((Snapshot.mk reader rows').readRows stale' suffix').filterMap (·.2.event)) = .ok n
      ∧ Below (fun version => ((Snapshot.mk reader rows').claimAt version).isSome) m n := by
  induction hsuffix generalizing stale stale' s t with
  | nil =>
      cases hrun
      exact ⟨t, rfl, hb⟩
  | @cons row row' rest rest' hwithheld htail ih =>
      rw [Snapshot.readRows] at hrun ⊢
      obtain ⟨next, hstep, hrest⟩ := run_filterMap_cons.mp hrun
      have hrow := hsub.subset (List.mem_cons_self ..)
      have hrow' := hsub' (List.mem_cons_self ..)
      have hordered := (List.pairwise_cons.mp (hrecorded.ordered.sublist hsub)).1
      have hobjects := (List.pairwise_cons.mp (hrecorded.objects.sublist hsub)).1
      obtain ⟨hpositive, hsafe, htarget, htargetSafe⟩ := hrecorded.positions row hrow
      have henvelope : (row'.type = row.type ∧ row'.objectId = row.objectId) :=
        ⟨hwithheld.type, hwithheld.objectId⟩
      obtain ⟨next', hstep', hb', hs', ht'⟩ := step_below hb hs ht hordered
        (fun other hother htype htype' => hobjects other hother (htype.trans htype'.symm) (.inl htype))
        ⟨hsafe, htarget, htargetSafe⟩ (soft_row h hrecorded hrow hrow' hwithheld stale stale')
        (by
          rintro sequence version review (hevent | hevent)
          · exact Snapshot.readRow_reviewId _ hevent
          · obtain ⟨htype, hid⟩ := Snapshot.readRow_reviewId _ hevent
            exact ⟨henvelope.1.symm.trans htype, hid.trans henvelope.2⟩)
        hstep
      obtain ⟨n, hn, hbn⟩ := ih ((List.sublist_cons_self row rest).trans hsub)
        (fun _ hmem => hsub' (List.mem_cons_of_mem _ hmem)) hb' hs' ht' hrest
      exact ⟨n, run_filterMap_cons.mpr ⟨next', hstep', hn⟩, hbn⟩

theorem below_init (visible : Int → Bool) : Below visible init init where
  full := ⟨placed_init, audited_init.earned, fun h => absurd rfl h⟩
  hidden := ⟨placed_init, audited_init.earned, fun h => absurd rfl h⟩
  version := rfl
  identity := id
  standing _ h := by cases h

theorem ahead_init {rows : List ScientificRow} (h : ∀ row ∈ rows, 1 ≤ row.seq) :
    init.Ahead rows where
  sequence row hrow := by
    have := h row hrow
    simp only [init]
    omega
  fresh _ _ _ := by simp [init]

end FoldState

/-! ## The disposition -/

/-- `strongly-supported` over `corroborated` over everything else. -/
def ClaimDisposition.rank : ClaimDisposition → Nat
  | stronglySupported => 2
  | corroborated => 1
  | _ => 0

theorem Snapshot.readRows_ordered (s : Snapshot) {stale : Bool} {suffix : List ScientificRow}
    (hordered : suffix.Pairwise (·.seq < ·.seq))
    (hevents : ∀ row ∈ suffix, ∀ stale, ∀ event ∈ (s.readRow stale row).event,
      event.sequence = row.seq) :
    StrictlyOrdered ((s.readRows stale suffix).filterMap (·.2.event))
      ∧ ∀ event ∈ (s.readRows stale suffix).filterMap (·.2.event),
        ∃ row ∈ suffix, event.sequence = row.seq := by
  induction suffix generalizing stale with
  | nil => exact ⟨List.Pairwise.nil, fun _ h => by cases h⟩
  | cons row rest ih =>
      obtain ⟨hfirst, hrest⟩ := List.pairwise_cons.mp hordered
      have hlater := fun stale => @ih stale hrest fun other hother =>
        hevents other (List.mem_cons_of_mem _ hother)
      have hrow := hevents row (List.mem_cons_self ..) stale
      rw [Snapshot.readRows]
      obtain ⟨hsorted, hfrom⟩ := hlater (stale || (s.readRow stale row).marksStale && s.pinsHead row)
      cases hevent : (s.readRow stale row).event with
      | none =>
          simp only [List.filterMap_cons, hevent]
          refine ⟨hsorted, fun event hmem => ?_⟩
          obtain ⟨other, hother, hseq⟩ := hfrom event hmem
          exact ⟨other, List.mem_cons_of_mem _ hother, hseq⟩
      | some first =>
          simp only [List.filterMap_cons, hevent]
          have hseq := hrow first hevent
          refine ⟨List.pairwise_cons.mpr ⟨fun event hmem => ?_, hsorted⟩, fun event hmem => ?_⟩
          · obtain ⟨other, hother, hlaterSeq⟩ := hfrom event hmem
            rw [hseq, hlaterSeq]
            exact hfirst other hother
          · rcases List.mem_cons.mp hmem with rfl | hmem
            · exact ⟨row, List.mem_cons_self .., hseq⟩
            · obtain ⟨other, hother, hlaterSeq⟩ := hfrom event hmem
              exact ⟨other, List.mem_cons_of_mem _ hother, hlaterSeq⟩

theorem disclosureOf_withheld {reader : ScientificReader} {rows rows' : List ScientificRow}
    (h : List.Forall₂ Withheld rows rows') (version : Option Int) :
    (Snapshot.mk reader rows').disclosureOf version
      = (Snapshot.mk reader rows).disclosureOf version := by
  have hkept : ∀ row row', Withheld row row' →
      row'.directiveDisclosure = row.directiveDisclosure := by
    rintro row row' (rfl | rfl) <;> rfl
  have hlast : ∀ {l l' : List ScientificRow}, List.Forall₂ Withheld l l' →
      l'.getLast?.bind (·.directiveDisclosure) = l.getLast?.bind (·.directiveDisclosure) := by
    intro l l' hl
    have hmap : l'.map (·.directiveDisclosure) = l.map (·.directiveDisclosure) := by
      induction hl with
      | nil => rfl
      | cons hhead _ ih => rw [List.map_cons, List.map_cons, ih, hkept _ _ hhead]
    have hbind : ∀ l : List ScientificRow, l.getLast?.bind (·.directiveDisclosure)
        = (l.map (·.directiveDisclosure)).getLast?.bind id := by
      intro l
      rw [List.getLast?_map]
      cases l.getLast? <;> rfl
    rw [hbind, hbind, hmap]
  unfold Snapshot.disclosureOf
  rw [hlast (List.rel_filter (fun row row' hrow => ?_) h)]
  simp only [hrow.isPublication, hrow.objectVersion]

theorem capped_mono {s s' : Snapshot} {f g : CurrentClaimDispositionFold}
    (hdisclosure : s'.disclosureOf g.currentVersion = s.disclosureOf f.currentVersion)
    (hadverse : g.disposition.isAdverse = false → f.disposition.isAdverse = false)
    (hstrong : g.disposition = .stronglySupported → f.disposition = .stronglySupported)
    (hcorroborated : g.disposition = .corroborated →
      f.disposition = .corroborated ∨ f.disposition = .stronglySupported) :
    (s'.capped g).rank ≤ (s.capped f).rank
      ∧ ((s.capped f).isAdverse = true → (s'.capped g).isAdverse = true) := by
  unfold Snapshot.capped
  rw [hdisclosure]
  constructor
  · by_cases hg : g.disposition = .stronglySupported
    · rw [hstrong hg, hg]
    · rw [if_neg fun h => hg h.1]
      by_cases hg' : g.disposition = .corroborated
      · rw [hg']
        rcases hcorroborated hg' with hf | hf <;> rw [hf]
        · exact le_rfl
        · split <;> decide
      · have hzero : g.disposition.rank = 0 := by
          cases hd : g.disposition <;> first | rfl | exact absurd hd hg | exact absurd hd hg'
        rw [hzero]
        exact Nat.zero_le _
  · intro hf
    by_contra hg
    have hkept : ∀ (d : ClaimDisposition) (p : Prop) [Decidable p],
        (if d = .stronglySupported ∧ p then .corroborated else d).isAdverse = d.isAdverse := by
      intro d p _
      split
      · rename_i h; rw [h.1]; rfl
      · rfl
    rw [hkept] at hf hg
    rw [hadverse (by simpa using hg)] at hf
    cases hf

end Fold

theorem disposition_of_fold {reader : ScientificReader} {rows : List ScientificRow}
    {f : ScientificDisposition} (hf : foldScientificRows reader rows = .ok f) :
    ∃ folded, computeCurrentClaimDisposition (Snapshot.mk reader rows).timeline = .ok folded
      ∧ f.disposition = (Snapshot.mk reader rows).capped folded := by
  unfold foldScientificRows at hf
  dsimp only at hf
  cases hfolded : computeCurrentClaimDisposition (Snapshot.mk reader rows).timeline with
  | error => rw [hfolded] at hf; cases hf
  | ok folded =>
      rw [hfolded] at hf
      cases hf
      exact ⟨folded, rfl, rfl⟩

theorem fold_of_disposition {reader : ScientificReader} {rows : List ScientificRow}
    {folded : CurrentClaimDispositionFold}
    (h : computeCurrentClaimDisposition (Snapshot.mk reader rows).timeline = .ok folded) :
    ∃ f, foldScientificRows reader rows = .ok f
      ∧ f.disposition = (Snapshot.mk reader rows).capped folded := by
  unfold foldScientificRows
  dsimp only
  rw [h]
  exact ⟨_, rfl, rfl⟩

theorem withheld_below {reader : ScientificReader} {rows rows' : List ScientificRow}
    (hrecorded : Recorded reader.toPayloadReader rows) (h : List.Forall₂ Withheld rows rows')
    {folded : CurrentClaimDispositionFold}
    (hfolded : computeCurrentClaimDisposition (Snapshot.mk reader rows).timeline = .ok folded) :
    ∃ s t, folded = s.result
      ∧ computeCurrentClaimDisposition (Snapshot.mk reader rows').timeline = .ok t.result
      ∧ FoldState.Below (fun version => ((Snapshot.mk reader rows').claimAt version).isSome) s t := by
  have hsoft := fun row row' hrow hrow' hwithheld =>
    @soft_row _ _ _ h hrecorded row row' hrow hrow' hwithheld
  have hordered' : rows'.Pairwise (·.seq < ·.seq) :=
    Withheld.pairwise h hrecorded.ordered fun _ _ _ _ h₁ h₂ hlt => by rwa [h₁.seq, h₂.seq]
  have hsorted := @Snapshot.readRows_ordered (Snapshot.mk reader rows)
    (Snapshot.mk reader rows).loadsStale _ hrecorded.ordered fun row hrow stale event hevent => by
      obtain ⟨row', hrow', hwithheld⟩ := Withheld.mem_right h hrow
      exact (hsoft row row' hrow hrow' hwithheld stale stale).sequence.1 event hevent
  have hsorted' := @Snapshot.readRows_ordered (Snapshot.mk reader rows')
    (Snapshot.mk reader rows').loadsStale _ hordered' fun row' hrow' stale event hevent => by
      obtain ⟨row, hrow, hwithheld⟩ := Withheld.mem_left h hrow'
      rw [hwithheld.seq]
      exact (hsoft row row' hrow hrow' hwithheld stale stale).sequence.2 event hevent
  obtain ⟨s, hs, rfl⟩ := compute_ok.mp hfolded
  unfold Snapshot.timeline Snapshot.readings at hs
  rw [sortBySequence_ordered hsorted.1] at hs
  have hseq : ∀ row ∈ rows, 1 ≤ row.seq := fun row hrow => (hrecorded.positions row hrow).1
  obtain ⟨t, ht, hbelow⟩ := @FoldState.run_below _ _ _ _ _ h hrecorded h
    (List.Sublist.refl _) (List.Subset.refl _) _ (Snapshot.mk reader rows').loadsStale _ _ _
    (FoldState.below_init _) (FoldState.ahead_init hseq) (FoldState.ahead_init hseq) hs
  refine ⟨s, t, rfl, compute_ok.mpr ⟨t, ?_, rfl⟩, hbelow⟩
  unfold Snapshot.timeline Snapshot.readings
  rw [sortBySequence_ordered hsorted'.1]
  exact ht

/-- Withholding payloads never raises the disposition, and never clears a
claim that stands refuted, disputed, malformed or withdrawn. -/
theorem withholding_never_promotes (reader : ScientificReader) {rows rows' : List ScientificRow}
    (hrecorded : Recorded reader.toPayloadReader rows) (h : List.Forall₂ Withheld rows rows')
    {f : ScientificDisposition} (hf : foldScientificRows reader rows = .ok f) :
    ∃ g, foldScientificRows reader rows' = .ok g
      ∧ g.disposition.rank ≤ f.disposition.rank
      ∧ (f.disposition.isAdverse = true → g.disposition.isAdverse = true) := by
  obtain ⟨folded, hfolded, hdisposition⟩ := disposition_of_fold hf
  obtain ⟨s, t, rfl, hfolded', hbelow⟩ := withheld_below hrecorded h hfolded
  obtain ⟨hadverse, hstrong, hcorroborated⟩ := hbelow.result
  obtain ⟨g, hg, hdisposition'⟩ := fold_of_disposition hfolded'
  refine ⟨g, hg, ?_⟩
  rw [hdisposition, hdisposition']
  refine capped_mono ?_ hadverse hstrong hcorroborated
  rw [disclosureOf_withheld h]
  exact congrArg _ hbelow.version

/-! ## A withheld refutation -/

def claimText : String := "\x7b\"statement\":\"Every even n is fine.\"\x7d"

def reviewText : String :=
  "\x7b\"target_claim_id\":\"C-1\",\"target_version\":1,\"verdict\":\"refute\","
    ++ "\"capable_of_failure\":\"n = 2\"\x7d"

def refutedReader : ScientificReader where
  sha256 text :=
    if text.utf8ByteSize = 37 then
      "689150eae4b43562f542ed8ab551d008167704a5fdbe40e2e9a48ba15f8f4606"
    else "d1ea98df0c4edfbb6178126c4a6d375cf8ea751ae2d3f941f19b8c53e9c55b5a"
  parse text :=
    if text.utf8ByteSize = 37 then some { statement := some "Every even n is fine." }
    else some
      { targetClaimId := some "C-1", targetVersion := some 1, verdict := some "refute"
        capableOfFailure := some "n = 2" }
  localeLe left right := decide (left ≤ right)

def refutedClaimRow : ScientificRow where
  claimId := "C-1"
  eventId := "E1"
  seq := 1
  type := .claimCreated
  objectId := "C-1"
  objectVersion := 1
  targetVersion := 1
  payloadSha256 := "689150eae4b43562f542ed8ab551d008167704a5fdbe40e2e9a48ba15f8f4606"
  payloadJson := some claimText
  fellowId := "F-1"
  sponsorId := "S-1"
  contentDigest := some contentZero
  statement := some "Every even n is fine."

def refutingReviewRow : ScientificRow where
  claimId := "C-1"
  eventId := "E2"
  seq := 2
  type := .reviewCreated
  objectId := "R-1"
  objectVersion := 1
  targetVersion := 1
  payloadSha256 := "d1ea98df0c4edfbb6178126c4a6d375cf8ea751ae2d3f941f19b8c53e9c55b5a"
  payloadJson := some reviewText
  fellowId := "F-2"
  sponsorId := "S-2"
  weightedRefutation := true

theorem refuted_recorded :
    Recorded refutedReader.toPayloadReader [refutedClaimRow, refutingReviewRow] where
  ordered := by decide
  events := by decide
  objects := by decide
  versions row hrow other hother hpublication hpublication' _ := by
    simp only [List.mem_cons, List.not_mem_nil, or_false] at hrow hother
    rcases hrow with rfl | rfl
    · rcases hother with rfl | rfl
      · rfl
      · cases hpublication'
    · cases hpublication
  positions := by decide
  columns row hrow payload hread := by
    simp only [List.mem_cons, List.not_mem_nil, or_false] at hrow
    rcases hrow with rfl | rfl
    · exact ⟨nofun, nofun, nofun, nofun⟩
    · have hsize : reviewText.utf8ByteSize ≠ 37 := by decide +kernel
      have hparsed : payload.verdict = some "refute" ∧ payload.rubric = none := by
        simp only [ScientificRow.readable, refutingReviewRow, refutedReader, hsize, if_false,
          ne_eq, not_true, Option.some.injEq] at hread
        rw [← hread]
        exact ⟨rfl, rfl⟩
      refine ⟨fun _ _ _ => rfl, fun _ _ hrubric => ?_, fun _ _ => ?_, nofun⟩
      · obtain ⟨entries, hentries, -⟩ := hrubric
        rw [hparsed.2] at hentries
        cases hentries
      · simp only [isNegativeReview, hparsed.1]
        rfl

/-- The review still disputes the claim when its text is withheld. -/
theorem withholding_never_promotes_refuted :
    (foldScientificRows refutedReader [refutedClaimRow, refutingReviewRow]).map (·.disposition)
        = .ok .disputed
      ∧ ∃ g, foldScientificRows refutedReader
            [refutedClaimRow, { refutingReviewRow with payloadJson := none }] = .ok g
          ∧ g.disposition.isAdverse = true := by
  have hfull : (foldScientificRows refutedReader [refutedClaimRow, refutingReviewRow]).map
      (·.disposition) = .ok .disputed := by decide +kernel
  refine ⟨hfull, ?_⟩
  cases hf : foldScientificRows refutedReader [refutedClaimRow, refutingReviewRow] with
  | error => rw [hf] at hfull; cases hfull
  | ok f =>
      rw [hf] at hfull
      obtain ⟨g, hg, -, hadverse⟩ := withholding_never_promotes refutedReader refuted_recorded
        (.cons (.inl rfl) (.cons (.inr rfl) .nil)) hf
      have hdisputed : f.disposition = .disputed := Except.ok.inj hfull
      exact ⟨g, hg, hadverse (by rw [hdisputed]; rfl)⟩

end Asimposium
