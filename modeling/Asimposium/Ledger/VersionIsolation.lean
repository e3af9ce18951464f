import Asimposium.Ledger.DispositionAbsorbing

/-!
# Version isolation

A revision empties everything the old version gathered: of the state it
leaves behind only the reduction named by the revision itself, the
version number and the flag of a withdrawn identity say anything
(`FoldState.revise_open`). Two histories that end in a revision to one
version are therefore indistinguishable from then on, up to the last
sequence number, which the fold only compares.

Inside the version an event pinned elsewhere is skipped, so the fold of
a continuation is the fold of what is relevant to it (`relevantTo`).
-/

namespace Asimposium

open ExceptRun

/-- The publication names a reduction target that the machine accepts. -/
def reduces (targetClaimId : Option String) : Bool :=
  targetClaimId.any fun target => !isBlank target

def wholeIdentityWithdrawn (timeline : List VersionedClaimTimelineEvent) : Bool :=
  match FoldState.init.run (sortBySequence timeline) with
  | .ok s => s.identityWithdrawn
  | .error _ => false

/-- Publications, and the events pinned to the version that is current
when they arrive. -/
def relevantTo (version : Int) :
    List VersionedClaimTimelineEvent → List VersionedClaimTimelineEvent
  | [] => []
  | .claimCreated sequence created target :: rest =>
      .claimCreated sequence created target :: relevantTo version rest
  | .claimRevised sequence revised target :: rest =>
      .claimRevised sequence revised target :: relevantTo revised rest
  | .pinned sequence targetVersion event :: rest =>
      if targetVersion = version then
        .pinned sequence targetVersion event :: relevantTo version rest
      else relevantTo version rest

namespace FoldState

/-! ## The state a revision leaves behind -/

theorem applyReduction_live (s : FoldState) (target : Option String)
    (hs : s.disposition = .open) :
    s.applyReduction target
      = { s with disposition := if reduces target then .reducedTo else .open } := by
  have hblank : isBlank "" = true := rfl
  cases target with
  | none => simp [applyReduction, reduces, ← hs]
  | some target =>
      by_cases hempty : target = ""
      · simp [applyReduction, reduces, hempty, hblank, ← hs]
      · cases hb : isBlank target <;>
          simp [applyReduction, reduces, hempty, apply, hs, evaluateClaimTransition,
            isTerminal, isLive, hb]
        rw [← hs]

theorem renew_open (s : FoldState) (version : Int) (hplaced : s.disposition.isPlaced = true)
    (hidentity : s.identityWithdrawn = false) :
    s.renew version = { s with disposition := .open } := by
  unfold renew
  cases hd : s.disposition <;>
    simp_all [apply, evaluateClaimTransition, isTerminal, ClaimDisposition.isPlaced, isLive,
      ClaimDisposition.isClosed]

/-- Whatever the old version had gathered, its revision leaves a live
claim with nothing but the reduction it names. -/
theorem revise_open (s : FoldState) (version : Int) (target : Option String)
    (hplaced : s.disposition.isPlaced = true) (hidentity : s.identityWithdrawn = false) :
    s.revise version target =
      { priorSequence := s.priorSequence
        currentVersion := some version
        identityWithdrawn := false
        disposition := if reduces target then .reducedTo else .open
        recordedRefutationAttempts := 0
        verifiedReviews := []
        hasCertifiedArtifact := false
        qualifyingArtifacts := []
        seenAttemptIds := [] } := by
  unfold revise
  rw [renew_open s version hplaced hidentity, applyReduction_live _ _ rfl]
  simp [openVersion, hidentity]

/-! ## Up to the last sequence number -/

def SameUpToSequence (s s' : FoldState) : Prop :=
  ∀ sequence, s.advance sequence = s'.advance sequence

theorem SameUpToSequence.refl (s : FoldState) : SameUpToSequence s s := fun _ => rfl

variable {s s' : FoldState}

theorem SameUpToSequence.result (h : SameUpToSequence s s') : s.result = s'.result := by
  have hresult := congrArg FoldState.result (h 0)
  exact hresult

theorem step_congr {event : VersionedClaimTimelineEvent} (hsame : SameUpToSequence s s')
    (hadmits : s.admits event = s'.admits event) : s.step event = s'.step event := by
  unfold step
  rw [hadmits, hsame event.sequence]

theorem admits_congr {event : VersionedClaimTimelineEvent} (h : s.priorSequence < event.sequence)
    (h' : s'.priorSequence < event.sequence) : s.admits event = s'.admits event := by
  simp [admits, h, h']

theorem admits_of_step {t : FoldState} {event : VersionedClaimTimelineEvent}
    (h : s.step event = .ok t) : s.priorSequence < event.sequence := by
  by_contra hlt
  simp [step, admits, hlt] at h

theorem run_congr {timeline : List VersionedClaimTimelineEvent} (hsame : SameUpToSequence s s')
    (hs : ∀ event ∈ timeline, s.priorSequence < event.sequence)
    (hs' : ∀ event ∈ timeline, s'.priorSequence < event.sequence) :
    (s.run timeline).map result = (s'.run timeline).map result := by
  cases timeline with
  | nil => exact congrArg Except.ok hsame.result
  | cons event rest =>
      have hadmits := admits_congr (hs event (List.mem_cons_self ..))
        (hs' event (List.mem_cons_self ..))
      unfold run
      rw [run_cons, run_cons, step_congr hsame hadmits]

/-! ## Skipped events -/

theorem run_relevantTo {t : FoldState} {version : Int}
    {timeline : List VersionedClaimTimelineEvent} (hcur : s.currentVersion = some version)
    (hsame : SameUpToSequence s s') (hle : s'.priorSequence ≤ s.priorSequence)
    (h : s.run timeline = .ok t) :
    ∃ t', s'.run (relevantTo version timeline) = .ok t' ∧ t'.result = t.result := by
  induction timeline generalizing s s' version with
  | nil => cases h; exact ⟨s', rfl, hsame.result.symm⟩
  | cons event rest ih =>
      obtain ⟨m, hm, ht⟩ := run_cons_ok.mp h
      have hlt := admits_of_step hm
      have hm' : s'.step event = .ok m := by
        rw [← step_congr hsame (admits_congr hlt (by omega))]; exact hm
      cases event with
      | claimCreated sequence created target =>
          obtain ⟨-, hnone, -⟩ := step_created_ok.mp hm
          simp [hcur] at hnone
      | claimRevised sequence revised target =>
          have hrevised : m.currentVersion = some revised := by
            obtain ⟨-, -, rfl⟩ := step_revised_ok.mp hm; rfl
          obtain ⟨t', ht', hresult⟩ := ih hrevised (.refl m) le_rfl ht
          exact ⟨t', run_cons_ok.mpr ⟨m, hm', ht'⟩, hresult⟩
      | pinned sequence targetVersion event =>
          obtain ⟨-, hpinned⟩ := step_pinned_ok.mp hm
          by_cases htarget : targetVersion = version
          · have hkept : m.currentVersion = some version := by
              rw [hpinned, htarget, if_pos hcur, (frame_foldPinned _ _).currentVersion]
              exact hcur
            obtain ⟨t', ht', hresult⟩ := ih hkept (.refl m) le_rfl ht
            refine ⟨t', ?_, hresult⟩
            simp only [relevantTo, htarget, ↓reduceIte]
            exact run_cons_ok.mpr ⟨m, htarget ▸ hm', ht'⟩
          · have hskip : s.currentVersion ≠ some targetVersion := by
              rw [hcur]; simpa using Ne.symm htarget
            rw [if_neg hskip] at hpinned
            subst hpinned
            simp only [relevantTo, htarget, ↓reduceIte]
            have hadvance : SameUpToSequence (s.advance sequence) s' := fun n => hsame n
            have hle' : s'.priorSequence ≤ (s.advance sequence).priorSequence :=
              hle.trans (le_of_lt hlt)
            exact ih (s := s.advance sequence) hcur hadvance hle' ht

/-! ## After a revision -/

/-- The state right after a revision: every field is set by the revision
itself. -/
def revised (sequence version : Int) (target : Option String) : FoldState where
  priorSequence := sequence
  currentVersion := some version
  identityWithdrawn := false
  disposition := if reduces target then .reducedTo else .open
  recordedRefutationAttempts := 0
  verifiedReviews := []
  hasCertifiedArtifact := false
  qualifyingArtifacts := []
  seenAttemptIds := []

theorem revised_congr {sequence sequence' version : Int} {target target' : Option String}
    (htarget : reduces target = reduces target') :
    SameUpToSequence (revised sequence version target) (revised sequence' version target') := by
  intro n
  simp [revised, advance, htarget]

theorem revise_identityWithdrawn (s : FoldState) (version : Int) (target : Option String) :
    (s.revise version target).identityWithdrawn = s.identityWithdrawn := by
  unfold revise
  rw [applyReduction_eq]
  unfold renew
  dsimp only [openVersion]
  split
  · rfl
  · split
    · rfl
    · rw [apply_eq]

end FoldState

open FoldState

/-- A history that ends in an accepted revision to the version, the
whole identity not being withdrawn. -/
structure RevisedTo (history : List VersionedClaimTimelineEvent) (version : Int)
    (target : Option String) : Prop where
  last : ∃ past sequence, history = past ++ [.claimRevised sequence version target]
    ∧ Continues past [.claimRevised sequence version target]
  accepted : ∃ f, computeCurrentClaimDisposition history = .ok f
  identity : wholeIdentityWithdrawn history = false

/-- The fold of such a history ends in the state `revised`, whatever
came before the revision. -/
theorem RevisedTo.run {history : List VersionedClaimTimelineEvent} {version : Int}
    {target : Option String} (h : RevisedTo history version target) :
    ∃ sequence, init.run (sortBySequence history) = .ok (revised sequence version target)
      ∧ ∃ event ∈ history, event.sequence = sequence := by
  obtain ⟨past, sequence, rfl, hlast⟩ := h.last
  obtain ⟨f, hf⟩ := h.accepted
  obtain ⟨s, hs, -⟩ := compute_ok.mp hf
  refine ⟨sequence, ?_, _, List.mem_append_right _ (List.mem_singleton.mpr rfl), rfl⟩
  have hflag : s.identityWithdrawn = false := by
    have hidentity := h.identity
    unfold wholeIdentityWithdrawn at hidentity
    rw [hs] at hidentity
    exact hidentity
  rw [hs]
  rw [sortBySequence_append hlast] at hs
  obtain ⟨p, hp, hrest⟩ := run_append_ok.mp hs
  obtain ⟨m, hm, hnil⟩ := run_cons_ok.mp hrest
  cases run_nil_ok.mp hnil
  obtain ⟨-, hcur, rfl⟩ := step_revised_ok.mp hm
  rw [revise_identityWithdrawn] at hflag
  have hplaced : (p.advance sequence).disposition.isPlaced = true := by
    refine (run_placed hp).born ?_
    cases hv : p.currentVersion <;> simp [hv] at hcur ⊢
  rw [revise_open _ _ _ hplaced hflag]
  rfl

theorem RevisedTo.compute {history suffix : List VersionedClaimTimelineEvent} {version : Int}
    {target : Option String} (h : RevisedTo history version target)
    (hsuffix : Continues history suffix) :
    ∃ sequence, (∀ event ∈ suffix, sequence < event.sequence)
      ∧ ∀ kept : List VersionedClaimTimelineEvent, (∀ event ∈ kept, event ∈ suffix) →
        computeCurrentClaimDisposition (history ++ kept)
          = ((revised sequence version target).run (sortBySequence kept)).map result := by
  obtain ⟨sequence, hrun, last, hmem, hseq⟩ := h.run
  refine ⟨sequence, fun event hevent => hseq ▸ hsuffix last hmem event hevent, ?_⟩
  intro kept hkept
  have hcont : Continues history kept :=
    fun earlier hearlier later hlater => hsuffix earlier hearlier later (hkept later hlater)
  unfold computeCurrentClaimDisposition FoldState.run
  rw [sortBySequence_append hcont, List.foldlM_append]
  rw [show List.foldlM step init (sortBySequence history) = _ from hrun]
  rfl

/-! ## Deleting what is pinned elsewhere -/

theorem relevantTo_eq_filter {version : Int} {timeline : List VersionedClaimTimelineEvent}
    (h : ∀ event ∈ timeline, ∃ sequence targetVersion pinned,
      event = .pinned sequence targetVersion pinned) :
    relevantTo version timeline = timeline.filter (·.version == version) := by
  induction timeline with
  | nil => rfl
  | cons event rest ih =>
      obtain ⟨sequence, targetVersion, pinned, rfl⟩ := h event (List.mem_cons_self ..)
      have hrest := ih fun event hevent => h event (List.mem_cons_of_mem _ hevent)
      by_cases htarget : targetVersion = version <;>
        simp [relevantTo, VersionedClaimTimelineEvent.version, htarget, hrest]

theorem filter_orderedInsert (keep : VersionedClaimTimelineEvent → Bool)
    (event : VersionedClaimTimelineEvent) {timeline : List VersionedClaimTimelineEvent}
    (hsorted : timeline.Pairwise (·.sequence ≤ ·.sequence)) :
    (List.orderedInsert (·.sequence ≤ ·.sequence) event timeline).filter keep
      = if keep event then
          List.orderedInsert (·.sequence ≤ ·.sequence) event (timeline.filter keep)
        else timeline.filter keep := by
  induction timeline with
  | nil => cases hk : keep event <;> simp [hk]
  | cons first rest ih =>
      obtain ⟨hfirst, hrest⟩ := List.pairwise_cons.mp hsorted
      by_cases hle : event.sequence ≤ first.sequence
      · have hhead : ∀ kept : List VersionedClaimTimelineEvent,
            (∀ later ∈ kept, event.sequence ≤ later.sequence) →
            List.orderedInsert (·.sequence ≤ ·.sequence) event kept = event :: kept := by
          intro kept hkept
          cases kept with
          | nil => rfl
          | cons later kept => exact if_pos (hkept later (List.mem_cons_self ..))
        rw [hhead _ (by simpa [hle] using fun later hlater => hle.trans (hfirst later hlater)),
          hhead]
        · simp [List.filter_cons]
        · intro later hlater
          rcases List.mem_cons.mp (List.mem_of_mem_filter hlater) with rfl | hlater
          · exact hle
          · exact hle.trans (hfirst later hlater)
      · cases hk : keep event <;> cases hkf : keep first <;>
          simp [List.orderedInsert, hle, hkf, hk, ih hrest]

theorem sortBySequence_filter (keep : VersionedClaimTimelineEvent → Bool)
    (timeline : List VersionedClaimTimelineEvent) :
    sortBySequence (timeline.filter keep) = (sortBySequence timeline).filter keep := by
  induction timeline with
  | nil => rfl
  | cons event rest ih =>
      have hsorted : (sortBySequence rest).Pairwise (·.sequence ≤ ·.sequence) :=
        List.pairwise_insertionSort _ rest
      rw [show sortBySequence (event :: rest)
        = List.orderedInsert (·.sequence ≤ ·.sequence) event (sortBySequence rest) from rfl,
        filter_orderedInsert keep event hsorted, ← ih]
      cases hk : keep event with
      | true => simp only [List.filter_cons_of_pos hk, ↓reduceIte]; rfl
      | false => simp [hk]

namespace FoldState

theorem step_created_isSome {s t : FoldState} {event : VersionedClaimTimelineEvent}
    (hs : s.currentVersion.isSome = true) (h : s.step event = .ok t) :
    t.currentVersion.isSome = true
      ∧ (event.isRevision = false → ∃ sequence targetVersion pinned,
          event = .pinned sequence targetVersion pinned) := by
  cases event with
  | claimCreated sequence version target =>
      obtain ⟨-, hnone, -⟩ := step_created_ok.mp h
      simp [hnone] at hs
  | claimRevised sequence version target =>
      obtain ⟨-, -, rfl⟩ := step_revised_ok.mp h
      exact ⟨rfl, fun hrev => by simp [VersionedClaimTimelineEvent.isRevision] at hrev⟩
  | pinned sequence targetVersion event =>
      obtain ⟨-, rfl⟩ := step_pinned_ok.mp h
      refine ⟨?_, fun _ => ⟨sequence, targetVersion, event, rfl⟩⟩
      split
      · rw [(frame_foldPinned _ _).currentVersion]; exact hs
      · exact hs

theorem run_pinned {s t : FoldState} {timeline : List VersionedClaimTimelineEvent}
    (hs : s.currentVersion.isSome = true) (h : s.run timeline = .ok t)
    (hrev : ∀ event ∈ timeline, event.isRevision = false) :
    ∀ event ∈ timeline, ∃ sequence targetVersion pinned,
      event = .pinned sequence targetVersion pinned := by
  intro event hevent
  obtain ⟨before, rest, rfl⟩ := List.append_of_mem hevent
  obtain ⟨m, hm, hrest⟩ := run_append_ok.mp h
  obtain ⟨n, hn, -⟩ := run_cons_ok.mp hrest
  have hcur : m.currentVersion.isSome = true :=
    run_invariant (I := (·.currentVersion.isSome = true))
      (fun _ _ _ _ hs hstep => (step_created_isSome hs hstep).1) hs hm
  exact (step_created_isSome hcur hn).2 (hrev event hevent)

end FoldState

theorem relevantTo_sublist (version : Int) (timeline : List VersionedClaimTimelineEvent) :
    (relevantTo version timeline).Sublist timeline := by
  induction timeline generalizing version with
  | nil => exact .slnil
  | cons event rest ih =>
      cases event with
      | claimCreated sequence created target => exact (ih version).cons_cons _
      | claimRevised sequence revised target => exact (ih revised).cons_cons _
      | pinned sequence targetVersion event =>
          unfold relevantTo
          split
          · exact (ih version).cons_cons _
          · exact (ih version).cons _

theorem sortBySequence_relevantTo (version : Int) (timeline : List VersionedClaimTimelineEvent) :
    sortBySequence (relevantTo version (sortBySequence timeline))
      = relevantTo version (sortBySequence timeline) := by
  have hsorted : (sortBySequence timeline).Pairwise (·.sequence ≤ ·.sequence) :=
    List.pairwise_insertionSort _ timeline
  exact (hsorted.sublist (relevantTo_sublist version _)).insertionSort_eq

/-- Version isolation. After an accepted revision of an identity that was
not withdrawn, the fold is a function of the version, of whether the
revision reduces, and of the relevant part of the continuation. -/
theorem version_isolation (history history' suffix : List VersionedClaimTimelineEvent)
    (version : Int) {target target' : Option String}
    (h : RevisedTo history version target) (h' : RevisedTo history' version target')
    (hsuffix : Continues history suffix) (hsuffix' : Continues history' suffix)
    (htarget : reduces target = reduces target') :
    computeCurrentClaimDisposition (history ++ suffix)
        = computeCurrentClaimDisposition (history' ++ suffix)
      ∧ ∀ g, computeCurrentClaimDisposition (history ++ suffix) = .ok g →
          computeCurrentClaimDisposition
              (history ++ relevantTo version (sortBySequence suffix)) = .ok g
            ∧ ((∀ event ∈ suffix, event.isRevision = false) →
              computeCurrentClaimDisposition
                (history ++ suffix.filter (·.version == version)) = .ok g) := by
  obtain ⟨sequence, hseq, hcompute⟩ := h.compute hsuffix
  obtain ⟨sequence', hseq', hcompute'⟩ := h'.compute hsuffix'
  have hall := hcompute suffix fun _ hevent => hevent
  constructor
  · rw [hall, hcompute' suffix fun _ hevent => hevent]
    exact run_congr (revised_congr htarget)
      (fun event hevent => hseq event (mem_sortBySequence.mp hevent))
      (fun event hevent => hseq' event (mem_sortBySequence.mp hevent))
  · intro g hg
    rw [hall] at hg
    cases hrun : (revised sequence version target).run (sortBySequence suffix) with
    | error e => rw [hrun] at hg; cases hg
    | ok t =>
        rw [hrun] at hg
        cases hg
        obtain ⟨t', ht', hresult⟩ := run_relevantTo
          (show (revised sequence version target).currentVersion = some version from rfl)
          (SameUpToSequence.refl (revised sequence version target)) le_rfl hrun
        have hrelevant : computeCurrentClaimDisposition
            (history ++ relevantTo version (sortBySequence suffix)) = .ok t.result := by
          rw [hcompute _ fun event hevent =>
            mem_sortBySequence.mp ((relevantTo_sublist version _).subset hevent),
            sortBySequence_relevantTo, ht', ← hresult]
          rfl
        refine ⟨hrelevant, fun hrev => ?_⟩
        have hpinned := run_pinned (s := revised sequence version target) rfl hrun
          fun event hevent => hrev event (mem_sortBySequence.mp hevent)
        rw [hcompute _ fun event hevent => List.mem_of_mem_filter hevent,
          sortBySequence_filter, ← relevantTo_eq_filter hpinned, ht', ← hresult]
        rfl

/-- A disputed history and a plain one, both revised to version 2 without
an accepted reduction, and a continuation with one old pin. -/
theorem version_isolation_disputed :
    computeCurrentClaimDisposition
        ([.claimCreated 1 1 none, .pinned 2 1 (.refutingEvidence "E-1" none none),
            .claimRevised 3 2 none]
          ++ [.pinned 4 1 .authorConcession, .pinned 5 2 (.claimReduced "C-2")])
        = computeCurrentClaimDisposition
            ([.claimCreated 1 1 none, .claimRevised 2 2 (some " ")]
              ++ [.pinned 4 1 .authorConcession, .pinned 5 2 (.claimReduced "C-2")])
      ∧ computeCurrentClaimDisposition
          ([.claimCreated 1 1 none, .pinned 2 1 (.refutingEvidence "E-1" none none),
              .claimRevised 3 2 none]
            ++ [VersionedClaimTimelineEvent.pinned 4 1 .authorConcession,
                .pinned 5 2 (.claimReduced "C-2")].filter (·.version == 2))
          = .ok ⟨.reducedTo, some 2, ⟨0, [], false⟩⟩ := by
  have hisolated := version_isolation
    [.claimCreated 1 1 none, .pinned 2 1 (.refutingEvidence "E-1" none none),
      .claimRevised 3 2 none]
    [.claimCreated 1 1 none, .claimRevised 2 2 (some " ")]
    [.pinned 4 1 .authorConcession, .pinned 5 2 (.claimReduced "C-2")] 2
    ⟨⟨[.claimCreated 1 1 none, .pinned 2 1 (.refutingEvidence "E-1" none none)], 3, rfl,
        by simp [Continues, VersionedClaimTimelineEvent.sequence]⟩,
      ⟨⟨.open, some 2, ⟨0, [], false⟩⟩, by decide⟩, by decide⟩
    ⟨⟨[.claimCreated 1 1 none], 2, rfl,
        by simp [Continues, VersionedClaimTimelineEvent.sequence]⟩,
      ⟨⟨.open, some 2, ⟨0, [], false⟩⟩, by decide⟩, by decide⟩
    (by simp [Continues, VersionedClaimTimelineEvent.sequence])
    (by simp [Continues, VersionedClaimTimelineEvent.sequence])
    (by decide)
  exact ⟨hisolated.1, (hisolated.2 _ (by decide)).2 (by decide)⟩

/-- The reduction named by the revision is the one thing that survives
it: two histories revised to version 2, one of them with a reduction. -/
theorem revision_keeps_its_reduction :
    RevisedTo [.claimCreated 1 1 none, .claimRevised 2 2 none] 2 none
      ∧ RevisedTo [.claimCreated 1 1 none, .claimRevised 2 2 (some "C-9")] 2 (some "C-9")
      ∧ (computeCurrentClaimDisposition
          ([.claimCreated 1 1 none, .claimRevised 2 2 none] ++ [])).map (·.disposition) = .ok .open
      ∧ (computeCurrentClaimDisposition
          ([.claimCreated 1 1 none, .claimRevised 2 2 (some "C-9")] ++ [])).map (·.disposition)
          = .ok .reducedTo :=
  ⟨⟨⟨[.claimCreated 1 1 none], 2, rfl,
        by simp [Continues, VersionedClaimTimelineEvent.sequence]⟩,
      ⟨⟨.open, some 2, ⟨0, [], false⟩⟩, by decide⟩, by decide⟩,
    ⟨⟨[.claimCreated 1 1 none], 2, rfl,
        by simp [Continues, VersionedClaimTimelineEvent.sequence]⟩,
      ⟨⟨.reducedTo, some 2, ⟨0, [], false⟩⟩, by decide⟩, by decide⟩,
    by decide, by decide⟩

end Asimposium
