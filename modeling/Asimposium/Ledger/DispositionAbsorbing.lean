import Asimposium.Ledger.DispositionRead

/-!
# Adverse standing is absorbing

Inside a version every accepted event that starts from an adverse
disposition ends in one (`evaluate_adverse`), so no continuation without
a revision leaves it. The withdrawal of a whole identity is stronger: it
survives revisions too (`FoldState.Closed`), and a revision then lands
in withdrawn.

Each fact is an invariant of one iteration, stable under the primitive
writes of a pinned event, lifted over a run with
`ExceptRun.run_invariant`. A withdrawal can only close a version that is
live or closed already, which is what `FoldState.Placed` says of every
state the fold reaches.
-/

namespace Asimposium

open ExceptRun

def ClaimDisposition.isAdverse (d : ClaimDisposition) : Bool :=
  d == .disputed || d == .malformed || d == .refuted || d == .withdrawn

/-- Withdrawn, malformed or refuted: closed until a revision. -/
def ClaimDisposition.isClosed (d : ClaimDisposition) : Bool :=
  d == .withdrawn || d == .malformed || d == .refuted

def VersionedClaimTimelineEvent.isRevision : VersionedClaimTimelineEvent → Bool
  | .claimRevised .. => true
  | _ => false

/-! ## The machine -/

variable {next : ClaimDisposition} {event : ClaimEvent} {context : ClaimTransitionContext}

theorem evaluate_closed {current : ClaimDisposition} (hclosed : current.isClosed = true)
    (hevent : event.isWithinVersion = true) :
    evaluateClaimTransition current event context ≠ .allow next := by
  have hcur : current = .withdrawn ∨ current = .malformed ∨ current = .refuted := by
    simpa [ClaimDisposition.isClosed, or_assoc] using hclosed
  rcases hcur with rfl | rfl | rfl <;> cases event <;>
    simp_all [evaluateClaimTransition, isTerminal, ClaimEvent.isWithinVersion]

theorem evaluate_disputed (hevent : event.isWithinVersion = true)
    (h : evaluateClaimTransition .disputed event context = .allow next) :
    next.isAdverse = true := by
  cases event with
  | promote => simp [evaluateClaimTransition, isTerminal] at h
  | reviewVerified review =>
      cases hf : review.finding <;>
        simp [evaluateClaimTransition, isTerminal, evaluateReview, isLive, hf] at h <;>
        subst h <;> rfl
  | refutationAttemptRecorded attemptId =>
      simp [evaluateClaimTransition, isTerminal, isLive] at h
      subst h; rfl
  | evidenceRefuted evidence =>
      cases hunmet : refutedUnmet evidence <;>
        simp [evaluateClaimTransition, isTerminal, isLive, hunmet] at h
      subst h; rfl
  | authorConcession =>
      simp [evaluateClaimTransition, isTerminal, isLive] at h
      subst h; rfl
  | authorWithdrawal =>
      simp [evaluateClaimTransition, isTerminal, isLive] at h
      subst h; rfl
  | reducedTo target =>
      cases hblank : isBlank target <;>
        simp [evaluateClaimTransition, isTerminal, isLive, hblank] at h
      subst h; rfl
  | newVersion version => simp [ClaimEvent.isWithinVersion] at hevent
  | operatorRepair reason target => simp [ClaimEvent.isWithinVersion] at hevent

theorem isAdverse_cases {d : ClaimDisposition} (h : d.isAdverse = true) :
    d = .disputed ∨ d.isClosed = true := by
  cases d <;> simp_all [ClaimDisposition.isAdverse, ClaimDisposition.isClosed]

theorem evaluate_adverse {current : ClaimDisposition} (hadverse : current.isAdverse = true)
    (hevent : event.isWithinVersion = true)
    (h : evaluateClaimTransition current event context = .allow next) : next.isAdverse = true := by
  rcases isAdverse_cases hadverse with rfl | hclosed
  · exact evaluate_disputed hevent h
  · exact absurd h (evaluate_closed hclosed hevent)

/-! ## One iteration -/

namespace FoldState

theorem apply_adverse (s : FoldState) (event : ClaimEvent)
    (hevent : event.isWithinVersion = true) (hs : s.disposition.isAdverse = true) :
    (s.apply event).disposition.isAdverse = true := by
  unfold apply
  split
  · exact evaluate_adverse hs hevent ‹_›
  · exact hs

theorem apply_closed (s : FoldState) (event : ClaimEvent)
    (hevent : event.isWithinVersion = true) (hs : s.disposition.isClosed = true) :
    s.apply event = s := by
  unfold apply
  split
  · exact absurd ‹_› (evaluate_closed hs hevent)
  · rfl

theorem adverse_stable : Stable (·.disposition.isAdverse = true) where
  apply := apply_adverse
  withdrawIdentity _ h := h
  countRefutationAttempt _ h := h
  addReview _ _ h := h
  certifyArtifact _ h := h
  qualify _ _ h := h
  markSeen _ _ h := h

structure Adverse (s : FoldState) : Prop where
  created : s.currentVersion.isSome = true
  adverse : s.disposition.isAdverse = true

theorem step_adverse {s t : FoldState} {event : VersionedClaimTimelineEvent}
    (hrev : event.isRevision = false) (hs : s.Adverse) (h : s.step event = .ok t) :
    t.Adverse := by
  cases event with
  | claimCreated sequence version target =>
      obtain ⟨-, hnone, -⟩ := step_created_ok.mp h
      have hcreated := hs.created
      simp [hnone] at hcreated
  | claimRevised sequence version target =>
      simp [VersionedClaimTimelineEvent.isRevision] at hrev
  | pinned sequence version event =>
      obtain ⟨-, rfl⟩ := step_pinned_ok.mp h
      split
      · refine ⟨?_, adverse_stable.foldPinned _ _ hs.adverse⟩
        rw [(frame_foldPinned _ _).currentVersion]
        exact hs.created
      · exact ⟨hs.created, hs.adverse⟩

/-! ## Withdrawal of the whole identity -/

/-- The identity is withdrawn and the current version is closed. -/
structure Closed (s : FoldState) : Prop where
  created : s.currentVersion.isSome = true
  identityWithdrawn : s.identityWithdrawn = true
  closed : s.disposition.isClosed = true

theorem closed_stable : Stable fun s =>
    s.identityWithdrawn = true ∧ s.disposition.isClosed = true where
  apply s event hevent h := by rw [apply_closed s event hevent h.2]; exact h
  withdrawIdentity _ h := ⟨rfl, h.2⟩
  countRefutationAttempt _ h := h
  addReview _ _ h := h
  certifyArtifact _ h := h
  qualify _ _ h := h
  markSeen _ _ h := h

theorem applyReduction_closed (s : FoldState) (target : Option String)
    (hs : s.disposition.isClosed = true) : s.applyReduction target = s := by
  unfold applyReduction
  split
  · split
    · rfl
    · exact apply_closed s _ rfl hs
  · rfl

theorem revise_withdrawn (s : FoldState) (version : Int) (target : Option String)
    (hs : s.identityWithdrawn = true) :
    s.revise version target = { s with disposition := .withdrawn }.openVersion version := by
  unfold revise renew
  simp only [hs, ↓reduceIte]
  rw [applyReduction_closed _ _ rfl]

theorem step_closed {s t : FoldState} {event : VersionedClaimTimelineEvent}
    (hs : s.Closed) (h : s.step event = .ok t) : t.Closed := by
  cases event with
  | claimCreated sequence version target =>
      obtain ⟨-, hnone, -⟩ := step_created_ok.mp h
      have hcreated := hs.created
      simp [hnone] at hcreated
  | claimRevised sequence version target =>
      obtain ⟨-, -, rfl⟩ := step_revised_ok.mp h
      rw [revise_withdrawn _ _ _ (show (s.advance sequence).identityWithdrawn = true
        from hs.identityWithdrawn)]
      exact ⟨rfl, hs.identityWithdrawn, rfl⟩
  | pinned sequence version event =>
      obtain ⟨-, rfl⟩ := step_pinned_ok.mp h
      split
      · obtain ⟨hflag, hclosed⟩ := closed_stable.foldPinned (s.advance sequence) event
          ⟨hs.identityWithdrawn, hs.closed⟩
        refine ⟨?_, hflag, hclosed⟩
        rw [(frame_foldPinned _ _).currentVersion]
        exact hs.created
      · exact ⟨hs.created, hs.identityWithdrawn, hs.closed⟩

theorem disposition_stable (d : ClaimDisposition) (hd : d.isClosed = true) :
    Stable fun s => s.disposition = d where
  apply s event hevent h := by
    rw [apply_closed s event hevent (by rw [h]; exact hd)]; exact h
  withdrawIdentity _ h := h
  countRefutationAttempt _ h := h
  addReview _ _ h := h
  certifyArtifact _ h := h
  qualify _ _ h := h
  markSeen _ _ h := h

theorem step_closed_withdrawn {s t : FoldState} {event : VersionedClaimTimelineEvent}
    (hs : s.Closed) (hw : s.disposition = .withdrawn ∨ event.isRevision = true)
    (h : s.step event = .ok t) : t.disposition = .withdrawn := by
  cases event with
  | claimCreated sequence version target =>
      obtain ⟨-, hnone, -⟩ := step_created_ok.mp h
      have hcreated := hs.created
      simp [hnone] at hcreated
  | claimRevised sequence version target =>
      obtain ⟨-, -, rfl⟩ := step_revised_ok.mp h
      rw [revise_withdrawn _ _ _ (show (s.advance sequence).identityWithdrawn = true
        from hs.identityWithdrawn)]
      rfl
  | pinned sequence version event =>
      have hdisposition : s.disposition = .withdrawn := by
        simpa [VersionedClaimTimelineEvent.isRevision] using hw
      obtain ⟨-, rfl⟩ := step_pinned_ok.mp h
      split
      · exact (disposition_stable .withdrawn rfl).foldPinned _ _ hdisposition
      · exact hdisposition

end FoldState

/-- Where the current version of a created claim stands: live or closed,
never back to a draft. -/
def ClaimDisposition.isPlaced (d : ClaimDisposition) : Bool :=
  isLive d || d.isClosed

theorem evaluate_live {current : ClaimDisposition} (hlive : isLive current = true)
    (hevent : event.isWithinVersion = true)
    (h : evaluateClaimTransition current event context = .allow next) : next.isPlaced = true := by
  have hterminal : isTerminal current = false := by
    cases current <;> first | rfl | simp [isLive] at hlive
  have hmalformed : current ≠ .malformed := by
    rintro rfl; simp [isLive] at hlive
  cases event with
  | promote =>
      have hdraft : current ≠ .draft := by rintro rfl; simp [isLive] at hlive
      simp [evaluateClaimTransition, hterminal, hmalformed, hdraft] at h
  | reviewVerified review =>
      simp only [evaluateClaimTransition, hterminal, hmalformed, evaluateReview, hlive,
        Bool.false_eq_true, ↓reduceIte] at h
      cases hf : review.finding <;> simp only [hf] at h
      case support =>
        split at h
        · split at h <;> simp at h
          subst h; rfl
        · split at h
          · split at h <;> simp at h
            subst h; rfl
          · simp at h
      all_goals simp at h; subst h; rfl
  | refutationAttemptRecorded attemptId =>
      simp [evaluateClaimTransition, hterminal, hmalformed, hlive] at h
      subst h
      simp [ClaimDisposition.isPlaced, hlive]
  | evidenceRefuted evidence =>
      simp only [evaluateClaimTransition, hterminal, hmalformed, hlive,
        Bool.false_eq_true, ↓reduceIte] at h
      repeat' split at h
      all_goals simp at h
      all_goals subst h; rfl
  | authorConcession =>
      simp [evaluateClaimTransition, hterminal, hmalformed, hlive] at h
      subst h; rfl
  | authorWithdrawal =>
      simp [evaluateClaimTransition, hterminal, hmalformed, hlive] at h
      subst h; rfl
  | reducedTo target =>
      simp only [evaluateClaimTransition, hterminal, hmalformed, hlive,
        Bool.false_eq_true, ↓reduceIte] at h
      repeat' split at h
      all_goals simp at h
      all_goals subst h; rfl
  | newVersion version => simp [ClaimEvent.isWithinVersion] at hevent
  | operatorRepair reason target => simp [ClaimEvent.isWithinVersion] at hevent

namespace FoldState

theorem apply_placed (s : FoldState) (event : ClaimEvent)
    (hevent : event.isWithinVersion = true) (hs : s.disposition.isPlaced = true) :
    (s.apply event).disposition.isPlaced = true := by
  rcases Bool.or_eq_true _ _ |>.mp hs with hlive | hclosed
  · unfold apply
    split
    · exact evaluate_live hlive hevent ‹_›
    · exact hs
  · rw [apply_closed s event hevent hclosed]; exact hs

theorem placed_stable : Stable (·.disposition.isPlaced = true) where
  apply := apply_placed
  withdrawIdentity _ h := h
  countRefutationAttempt _ h := h
  addReview _ _ h := h
  certifyArtifact _ h := h
  qualify _ _ h := h
  markSeen _ _ h := h

theorem applyReduction_placed (s : FoldState) (target : Option String)
    (hs : s.disposition.isPlaced = true) :
    (s.applyReduction target).disposition.isPlaced = true := by
  unfold applyReduction
  split
  · split
    · exact hs
    · exact apply_placed s _ rfl hs
  · exact hs

structure Placed (s : FoldState) : Prop where
  unborn : s.currentVersion = none → s.disposition = .draft
  born : s.currentVersion.isSome = true → s.disposition.isPlaced = true

theorem placed_init : init.Placed := ⟨fun _ => rfl, fun h => by simp [init] at h⟩

theorem apply_newVersion_placed (s : FoldState) (version : Int)
    (hs : s.disposition.isPlaced = true) :
    (s.apply (.newVersion version)).disposition.isPlaced = true := by
  unfold apply
  cases hd : s.disposition <;>
    simp_all [evaluateClaimTransition, isTerminal, ClaimDisposition.isPlaced, isLive,
      ClaimDisposition.isClosed]

theorem step_placed {s t : FoldState} {event : VersionedClaimTimelineEvent}
    (hs : s.Placed) (h : s.step event = .ok t) : t.Placed := by
  cases event with
  | claimCreated sequence version target =>
      obtain ⟨-, hnone, -, rfl⟩ := step_created_ok.mp h
      have hdraft := hs.unborn hnone
      refine ⟨fun hcur => ?_, fun _ => applyReduction_placed _ _ ?_⟩
      · rw [create, applyReduction_eq, apply_eq] at hcur
        simp [openVersion] at hcur
      · simp [apply, openVersion, advance, hdraft, evaluateClaimTransition, isTerminal,
          ClaimDisposition.isPlaced, isLive]
  | claimRevised sequence version target =>
      obtain ⟨-, hcur, rfl⟩ := step_revised_ok.mp h
      have hsome : s.currentVersion.isSome = true := by
        cases hv : s.currentVersion <;> simp [hv] at hcur ⊢
      refine ⟨fun hnone => by simp [revise, openVersion] at hnone, fun _ => ?_⟩
      refine applyReduction_placed _ _ ?_
      unfold renew
      split
      · rfl
      · split
        · rfl
        · exact apply_newVersion_placed _ _ (hs.born hsome)
  | pinned sequence version event =>
      obtain ⟨-, rfl⟩ := step_pinned_ok.mp h
      split
      · have hframe := (frame_foldPinned (s.advance sequence) event).currentVersion
        refine ⟨fun hnone => ?_, fun _ => placed_stable.foldPinned _ _ (hs.born ?_)⟩
        · rw [hframe] at hnone
          simp_all [advance]
        · simp_all
      · exact ⟨hs.unborn, hs.born⟩

theorem retract_closed {s : FoldState} (retractionId : String) {wholeIdentity : Option Bool}
    (hs : s.Placed) (hcur : s.currentVersion.isSome = true)
    (hwhole : wholeIdentity ≠ some false) :
    (s.foldPinned (.claimRetracted retractionId wholeIdentity)).Closed := by
  have hplaced := hs.born hcur
  simp only [foldPinned, hwhole, ne_eq, not_false_eq_true, ↓reduceIte]
  rw [apply_eq]
  refine ⟨hcur, rfl, ?_⟩
  unfold apply
  cases hd : s.disposition <;>
    simp_all [withdrawIdentity, evaluateClaimTransition, isTerminal, isLive,
      ClaimDisposition.isPlaced, ClaimDisposition.isClosed]

end FoldState

/-! ## Over every continuation -/

namespace FoldState

variable {s : FoldState} {timeline : List VersionedClaimTimelineEvent}

theorem run_placed (h : init.run timeline = .ok s) : s.Placed :=
  run_invariant (fun _ _ _ _ hs hstep => step_placed hs hstep) placed_init h

theorem adverse_created (hs : s.Placed) (h : s.disposition.isAdverse = true) : s.Adverse := by
  refine ⟨?_, h⟩
  cases hcur : s.currentVersion with
  | some version => rfl
  | none => rw [hs.unborn hcur] at h; cases h

variable {t : FoldState}

theorem run_adverse (hrev : ∀ event ∈ timeline, event.isRevision = false) (hs : s.Adverse)
    (h : s.run timeline = .ok t) : t.Adverse :=
  run_invariant (fun _ event _ hmem hs hstep => step_adverse (hrev event hmem) hs hstep) hs h

theorem run_closed (hs : s.Closed) (h : s.run timeline = .ok t) : t.Closed :=
  run_invariant (fun _ _ _ _ hs hstep => step_closed hs hstep) hs h

theorem run_closed_withdrawn (hs : s.Closed) (hw : s.disposition = .withdrawn)
    (h : s.run timeline = .ok t) : t.disposition = .withdrawn :=
  (run_invariant (I := fun s => s.Closed ∧ s.disposition = .withdrawn)
    (fun _ _ _ _ hs hstep =>
      ⟨step_closed hs.1 hstep, step_closed_withdrawn hs.1 (.inl hs.2) hstep⟩) ⟨hs, hw⟩ h).2

theorem run_closed_revision (hs : s.Closed) (hrev : ∃ event ∈ timeline, event.isRevision = true)
    (h : s.run timeline = .ok t) : t.disposition = .withdrawn := by
  obtain ⟨event, hmem, hevent⟩ := hrev
  obtain ⟨before, rest, rfl⟩ := List.append_of_mem hmem
  obtain ⟨m, hm, hrest⟩ := run_append_ok.mp h
  obtain ⟨n, hn, ht⟩ := run_cons_ok.mp hrest
  have hclosed : m.Closed := run_closed hs hm
  exact run_closed_withdrawn (step_closed hclosed hn)
    (step_closed_withdrawn hclosed (.inr hevent) hn) ht

end FoldState

open FoldState

/-- Adverse findings are absorbing within a version, and the withdrawal
of the whole identity is absorbing across versions. -/
theorem adverse_absorbing (past future : List VersionedClaimTimelineEvent)
    {f g : CurrentClaimDispositionFold} (hcont : Continues past future)
    (hpast : computeCurrentClaimDisposition past = .ok f)
    (hall : computeCurrentClaimDisposition (past ++ future) = .ok g) :
    (f.disposition.isAdverse = true → (∀ event ∈ future, event.isRevision = false) →
        g.disposition.isAdverse = true)
      ∧ ∀ (sequence version : Int) (retractionId : String) (wholeIdentity : Option Bool)
          (rest : List VersionedClaimTimelineEvent),
        future = .pinned sequence version (.claimRetracted retractionId wholeIdentity) :: rest →
        (∀ later ∈ rest, sequence < later.sequence) →
        f.currentVersion = some version → wholeIdentity ≠ some false →
          g.disposition.isClosed = true
            ∧ ((∃ event ∈ rest, event.isRevision = true) → g.disposition = .withdrawn) := by
  obtain ⟨s, t, hs, rfl, ht, rfl⟩ := compute_append_ok hcont hpast hall
  refine ⟨fun hadverse hrev => ?_, ?_⟩
  · refine (run_adverse (fun event hmem => hrev event ?_)
      (adverse_created (run_placed hs) hadverse) ht).adverse
    exact mem_sortBySequence.mp hmem
  · rintro sequence version retractionId wholeIdentity rest rfl hrest hcur hwhole
    have hcons : Continues [.pinned sequence version (.claimRetracted retractionId wholeIdentity)]
        rest := by
      intro earlier hearlier later hlater
      rw [List.mem_singleton.mp hearlier]
      exact hrest later hlater
    rw [← List.singleton_append, sortBySequence_append hcons] at ht
    obtain ⟨m, hm, htail⟩ := run_cons_ok.mp ht
    obtain ⟨-, rfl⟩ := step_pinned_ok.mp hm
    rw [if_pos (show s.currentVersion = some version from hcur)] at htail
    have hplaced : (s.advance sequence).Placed :=
      ⟨(run_placed hs).unborn, (run_placed hs).born⟩
    have hclosed := retract_closed retractionId hplaced
      (by rw [show (s.advance sequence).currentVersion = some version from hcur]; rfl) hwhole
    refine ⟨(run_closed hclosed htail).closed, fun hrev => ?_⟩
    refine run_closed_revision hclosed ?_ htail
    obtain ⟨event, hmem, hevent⟩ := hrev
    exact ⟨event, mem_sortBySequence.mpr hmem, hevent⟩

/-- A disputed claim stays disputed when it is reduced, and is
withdrawn by a retraction followed by a revision. -/
theorem adverse_absorbing_disputed :
    (∃ f g : CurrentClaimDispositionFold, f.disposition = .disputed
        ∧ computeCurrentClaimDisposition
            ([.claimCreated 1 1 none, .pinned 2 1 (.refutingEvidence "E-1" none none)]
              ++ [.pinned 3 1 (.claimReduced "C-2")]) = .ok g
        ∧ g.disposition.isAdverse = true)
      ∧ ∃ g : CurrentClaimDispositionFold,
        computeCurrentClaimDisposition
            ([.claimCreated 1 1 none, .pinned 2 1 (.refutingEvidence "E-1" none none)]
              ++ [.pinned 3 1 (.claimRetracted "X-1" none), .claimRevised 4 2 none]) = .ok g
          ∧ g.disposition = .withdrawn :=
  ⟨⟨⟨.disputed, some 1, ⟨1, [], false⟩⟩, ⟨.disputed, some 1, ⟨1, [], false⟩⟩, rfl, by decide,
      (adverse_absorbing
        [.claimCreated 1 1 none, .pinned 2 1 (.refutingEvidence "E-1" none none)]
        [.pinned 3 1 (.claimReduced "C-2")]
        (f := ⟨.disputed, some 1, ⟨1, [], false⟩⟩)
        (by simp [Continues, VersionedClaimTimelineEvent.sequence]) (by decide) (by decide)).1
        rfl (by decide)⟩,
    ⟨.withdrawn, some 2, ⟨0, [], false⟩⟩, by decide,
    ((adverse_absorbing
      [.claimCreated 1 1 none, .pinned 2 1 (.refutingEvidence "E-1" none none)]
      [.pinned 3 1 (.claimRetracted "X-1" none), .claimRevised 4 2 none]
      (f := ⟨.disputed, some 1, ⟨1, [], false⟩⟩)
      (by simp [Continues, VersionedClaimTimelineEvent.sequence]) (by decide) (by decide)).2
      3 1 "X-1" none [.claimRevised 4 2 none] rfl (by decide) rfl (by decide)).2
      ⟨_, List.mem_singleton.mpr rfl, rfl⟩⟩

end Asimposium
