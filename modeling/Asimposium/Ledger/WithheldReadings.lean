import Asimposium.Ledger.DispositionAudit
import Asimposium.Ledger.WithheldRows

/-!
# Reading a row without its payload

Row by row, the reading of a dimmed snapshot is softer than the reading
of the full one (`SoftRow`): what was against the claim stays against
it, what supports it was read with the same content before, and a
publication that lost its text reduces to nothing and can support
nothing. The cases are the event types; each one has its own withheld
path.
-/

namespace Asimposium

/-! ## Softer events -/

/-- Events against the claim: a finding with weight, refuting evidence, a
concession or a withdrawal. -/
def PinnedEvent.isAdverse : PinnedEvent → Bool
  | .claimRetracted _ _ => true
  | .authorConcession => true
  | .refutingEvidence _ _ _ => true
  | .reviewCreated review =>
      review.carriesWeight
        && (reviewFinding review.verdict review.rubric == some .dispute
          || reviewFinding review.verdict review.rubric == some .statementDefect)
  | _ => false

def PinnedEvent.withdrawsIdentity : PinnedEvent → Bool
  | .claimRetracted _ wholeIdentity => wholeIdentity != some false
  | _ => false

def PinnedEvent.isIdle (event : PinnedEvent) : Prop :=
  ∀ state : FoldState, state.foldPinned event = state

/-- `hidden` is what is left of `full` when payloads are withheld;
`visible` says whether the text of the pinned version is left. -/
inductive Softens (visible : Bool) : Option PinnedEvent → Option PinnedEvent → Prop
  | against {full : Option PinnedEvent} {hidden : PinnedEvent} (h : hidden.isAdverse = true)
      (whole : ∀ event ∈ full, event.withdrawsIdentity = true → hidden.withdrawsIdentity = true) :
      Softens visible full (some hidden)
  | same {event : PinnedEvent} (hquiet : contest event = []) (hvisible : visible = true) :
      Softens visible (some event) (some event)
  | idle {full hidden : Option PinnedEvent} (hfull : ∀ event ∈ full, contest event = [])
      (hhidden : ∀ event ∈ hidden, event.isIdle) : Softens visible full hidden

inductive SoftRow (visible : Int → Bool) (row : ScientificRow) :
    Option VersionedClaimTimelineEvent → Option VersionedClaimTimelineEvent → Prop
  | created {target target' : Option String}
      (h : target' = target ∨ target' = none ∧ visible row.objectVersion = false) :
      SoftRow visible row (some (.claimCreated row.seq row.objectVersion target))
        (some (.claimCreated row.seq row.objectVersion target'))
  | revised {target target' : Option String}
      (h : target' = target ∨ target' = none ∧ visible row.objectVersion = false) :
      SoftRow visible row (some (.claimRevised row.seq row.objectVersion target))
        (some (.claimRevised row.seq row.objectVersion target'))
  | pinned (full hidden : Option PinnedEvent) (h : Softens (visible row.targetVersion) full hidden) :
      SoftRow visible row (full.map (.pinned row.seq row.targetVersion))
        (hidden.map (.pinned row.seq row.targetVersion))

theorem Softens.none_none {visible : Bool} : Softens visible none none :=
  .idle (fun _ h => by cases h) (fun _ h => by cases h)

theorem contest_review {review : ReviewCreated}
    (h : (PinnedEvent.reviewCreated review).isAdverse = false) :
    contest (.reviewCreated review) = [] := by
  simp only [PinnedEvent.isAdverse] at h
  simp only [contest]
  cases hweight : review.carriesWeight with
  | false => rfl
  | true =>
      rw [hweight, Bool.true_and] at h
      cases hfinding : reviewFinding review.verdict review.rubric with
      | none => rfl
      | some finding => cases finding <;> simp [hfinding] at h ⊢

theorem review_isIdle {review : ReviewCreated}
    (h : review.carriesWeight = false ∨ reviewFinding review.verdict review.rubric = none) :
    (PinnedEvent.reviewCreated review).isIdle := by
  intro state
  simp only [FoldState.foldPinned, FoldState.foldReview]
  rcases h with h | h
  · rw [h]; rfl
  · rw [h]; split <;> rfl

theorem finding_cases (verdict : String) (rubric : Option (List String)) :
    reviewFinding verdict rubric = some .statementDefect
        ∧ (∃ entries, rubric = some entries
          ∧ ("statement-defect" ∈ entries ∨ "statement-fails-review" ∈ entries))
      ∨ reviewFinding verdict rubric = some .support ∧ (verdict = "confirm" ∨ verdict = "reproduces")
      ∨ reviewFinding verdict rubric = some .dispute
        ∧ (verdict = "refute" ∨ verdict = "fails-to-reproduce")
      ∨ reviewFinding verdict rubric = none := by
  by_cases hdefective : ∃ entries, rubric = some entries
      ∧ ("statement-defect" ∈ entries ∨ "statement-fails-review" ∈ entries)
  · refine .inl ⟨?_, hdefective⟩
    obtain ⟨entries, rfl, hentry⟩ := hdefective
    simp [reviewFinding, hentry]
  · right
    have hverdict : reviewFinding verdict rubric =
        if verdict = "confirm" || verdict = "reproduces" then some .support
        else if verdict = "refute" || verdict = "fails-to-reproduce" then some .dispute
        else none := by
      cases rubric with
      | none => rfl
      | some entries =>
          have hclean : ¬ ("statement-defect" ∈ entries ∨ "statement-fails-review" ∈ entries) :=
            fun hentry => hdefective ⟨entries, rfl, hentry⟩
          simp [reviewFinding, hclean]
    rw [hverdict]
    split_ifs with hsupport hdispute
    · exact .inl ⟨rfl, by simpa using hsupport⟩
    · exact .inr (.inl ⟨rfl, by simpa using hdispute⟩)
    · exact .inr (.inr rfl)

namespace Snapshot

/-! ## The payload is read by its event -/

section Envelope

variable (s : Snapshot) (row : ScientificRow) (json : Option String)

theorem grounded_envelope (claim : ScientificClaim) (depth : Nat) (visited : List String)
    (item : ScientificEvidence) :
    s.grounded claim { row with payloadJson := json } depth visited item
      = s.grounded claim row depth visited item := by
  induction depth generalizing visited item with
  | zero => rfl
  | succ depth ih =>
      have hresolve : ∀ reference, s.resolve reference { row with payloadJson := json }
          = s.resolve reference row := fun _ => rfl
      unfold grounded
      simp only [hresolve, ih]

theorem concessionIsGrounded_envelope (payload : Payload) :
    s.concessionIsGrounded { row with payloadJson := json } payload
      = s.concessionIsGrounded row payload := by
  have hresolve : ∀ reference, s.resolve reference { row with payloadJson := json }
      = s.resolve reference row := fun _ => rfl
  unfold concessionIsGrounded
  simp only [hresolve, grounded_envelope]

theorem readRetraction_envelope (marks : Bool) :
    s.readRetraction { row with payloadJson := json } marks = s.readRetraction row marks := by
  unfold readRetraction
  have hgrounded : s.concessionIsGrounded { row with payloadJson := json }
      = s.concessionIsGrounded row := funext (s.concessionIsGrounded_envelope row json)
  simp only [hgrounded]
  rfl

theorem readRow_envelope (stale : Bool) :
    s.readRow stale { row with payloadJson := json } = s.readRow stale row := by
  have hadmitted : ∀ marks, s.readAdmitted stale { row with payloadJson := json } marks
      = s.readAdmitted stale row marks := by
    intro marks
    unfold readAdmitted
    simp only [readRetraction_envelope]
    rfl
  unfold readRow
  simp only [hadmitted]
  rfl

end Envelope

/-! ## Admitted rows -/

section Admission

variable (s : Snapshot) (stale : Bool) (row : ScientificRow)

/-- The row is withdrawn, or withdraws an input, and leaves nothing. -/
def isSkipped : Bool :=
  isTruthy row.withdrawnEventId || (s.isWithdrawnInput row && !s.staysAdverse row)

theorem readRow_skipped (h : s.isSkipped row = true) : (s.readRow stale row).event = none := by
  unfold readRow
  simp only [isSkipped, Bool.or_eq_true, Bool.and_eq_true, Bool.not_eq_true'] at h
  rcases h with h | ⟨h, hadverse⟩
  · rw [h]; rfl
  · rw [h, hadverse]
    split <;> rfl

theorem readRow_admitted (h : s.isSkipped row = false) :
    ∃ marks, s.readRow stale row = s.readAdmitted stale row marks := by
  unfold readRow
  simp only [isSkipped, Bool.or_eq_false_iff, Bool.and_eq_false_iff, Bool.not_eq_false'] at h
  obtain ⟨htruthy, hwithdrawn⟩ := h
  rw [htruthy]
  rcases hwithdrawn with h | h
  · exact ⟨_, by rw [h]; rfl⟩
  · cases hinput : s.isWithdrawnInput row with
    | false => exact ⟨_, rfl⟩
    | true => exact ⟨true, by rw [h]; rfl⟩

theorem adverseNovelty_inform (h : (s.noveltyOf row).isAdverse = true) :
    ∃ payload, s.contents row.eventId = some payload ∧ payload.verdict = some "inform" := by
  unfold noveltyOf at h
  split at h
  · cases h
  · split at h
    · split at h
      · cases h
      · rename_i payload hcontents
        split at h
        · split at h
          · rename_i hinform
            simp only [Bool.and_eq_true, decide_eq_true_eq] at hinform
            exact ⟨payload, hcontents, hinform.1.1⟩
          · cases h
        · cases h
    · cases h

end Admission

end Snapshot

/-- What `s'` resolves for a row, `s` resolves alike. -/
structure Snapshot.Grounds (s s' : Snapshot) (row : ScientificRow) : Prop where
  reader : s'.reader = s.reader
  resolve : ∀ reference item, s'.resolve reference row = some item →
    s.resolve reference row = some item

namespace Snapshot.Grounds

variable {s s' : Snapshot} {row : ScientificRow} (d : s.Grounds s' row)
include d

theorem readEvidence {payload : Payload} {claim : ScientificClaim} {marks marks' : Bool}
    {event : VersionedClaimTimelineEvent}
    (h : (s'.readEvidence row payload claim marks').event = some event) :
    (s.readEvidence row payload claim marks).event = some event := by
  have hcertifies : s'.certifies payload = s.certifies payload := by
    unfold Snapshot.certifies
    rw [d.reader]
  unfold Snapshot.readEvidence at h ⊢
  dsimp only at h ⊢
  rw [hcertifies] at h
  split at h
  · cases h
  · rename_i hadmissible
    rw [if_neg hadmissible]
    cases hcheck : payload.falsificationCheck with
    | valid check =>
        rw [hcheck] at h
        dsimp only at h ⊢
        split at h
        · rename_i hsurvived
          rw [if_pos hsurvived]
          split at h
          · cases h
          · rename_i hresolves
            -- every reference that still resolves resolved before
            rw [if_neg, d.reader.symm]
            · exact h
            · intro hbad
              refine hresolves ?_
              simp only [Bool.or_eq_true, List.any_eq_true] at hbad ⊢
              refine hbad.imp id ?_
              rintro ⟨reference, hmem, hnone⟩
              refine ⟨reference, hmem, ?_⟩
              cases hresolve : s'.resolve reference row with
              | none => rfl
              | some item =>
                  rw [d.resolve _ _ hresolve] at hnone
                  cases hnone
        · rename_i hsurvived
          rw [if_neg hsurvived]
          split at h
          · rename_i hcertified
            rw [if_pos hcertified]
            exact h
          · cases h
    | absent =>
        rw [hcheck] at h
        dsimp only at h ⊢
        split at h
        · rename_i hcertified
          rw [if_pos hcertified]
          exact h
        · cases h
    | invalid =>
        rw [hcheck] at h
        dsimp only at h ⊢
        split at h
        · rename_i hcertified
          rw [if_pos hcertified]
          exact h
        · cases h

theorem reviewVerification {payload : Payload} {claim : ScientificClaim}
    (h : ((s'.reviewVerification row payload claim).any fun outcome => !outcome.isOk) = false) :
    s.reviewVerification row payload claim = s'.reviewVerification row payload claim := by
  unfold Snapshot.reviewVerification at h ⊢
  cases hverification : payload.verification with
  | absent => rfl
  | invalid => rfl
  | valid verification =>
      rw [hverification] at h
      dsimp only at h ⊢
      cases hresolve : s'.resolve verification.evidence row with
      | none => rw [hresolve] at h; cases h
      | some material =>
          rw [d.resolve _ _ hresolve, d.reader]

theorem isUngroundedReview {payload : Payload} (h : s'.isUngroundedReview row payload = false) :
    s.isUngroundedReview row payload = false := by
  unfold Snapshot.isUngroundedReview at h ⊢
  cases hprovenance : payload.scientificProvenance with
  | absent => rfl
  | invalid => rfl
  | valid provenance =>
      rw [hprovenance] at h
      dsimp only at h ⊢
      rw [List.any_eq_false] at h ⊢
      intro reference hmem hnone
      refine h reference hmem ?_
      cases hresolve : s'.resolve reference row with
      | none => rfl
      | some item =>
          rw [d.resolve _ _ hresolve] at hnone
          cases hnone

end Snapshot.Grounds

namespace Dimmed

open Snapshot

variable {s s' : Snapshot} (d : Dimmed s s') {row : ScientificRow}
include d

theorem resolve {reference : ScientificEvidenceReference} {item : ScientificEvidence}
    (h : s'.resolve reference row = some item) : s.resolve reference row = some item := by
  unfold Snapshot.resolve at h ⊢
  cases hitem : s'.evidenceAt reference.evidenceId with
  | none => rw [hitem] at h; cases h
  | some found =>
      rw [hitem] at h
      rw [d.evidenceAt _ _ hitem]
      exact h

theorem grounds (row : ScientificRow) : s.Grounds s' row :=
  ⟨d.reader, fun _ _ h => d.resolve h⟩

theorem isWithdrawnInput (h : s.isWithdrawnInput row = true) : s'.isWithdrawnInput row = true := by
  unfold Snapshot.isWithdrawnInput at h ⊢
  simp only [Bool.or_eq_true, Bool.and_eq_true, List.contains_iff_mem] at h ⊢
  rcases h with h | ⟨htype, h⟩
  · exact .inl (d.withdrawn h)
  · exact .inr ⟨htype, d.invalidated h⟩

theorem contents_cases (eventId : String) :
    s'.contents eventId = none ∨ ∃ payload, s'.contents eventId = some payload
      ∧ s.contents eventId = some payload := by
  cases h : s'.contents eventId with
  | none => exact .inl rfl
  | some payload => exact .inr ⟨payload, rfl, d.contents _ _ h⟩

/-! ## Publications -/

theorem reductionTarget (hlost : s'.contents row.eventId = none →
      s'.claimAt row.objectVersion = none) :
    (s'.reductionTarget row).1 = (s.reductionTarget row).1
      ∨ (s'.reductionTarget row).1 = none ∧ (s'.claimAt row.objectVersion).isSome = false := by
  rcases d.contents_cases row.eventId with hnone | ⟨payload, hread, hfull⟩
  · refine .inr ⟨?_, by rw [hlost hnone]; rfl⟩
    unfold Snapshot.reductionTarget
    rw [hnone]
  · left
    unfold Snapshot.reductionTarget
    rw [hread, hfull]

theorem soft_publication {stale stale' : Bool} (hpublication : row.isPublication = true)
    (hkept : s'.isWithdrawnInput row = false)
    (hlost : s'.contents row.eventId = none → s'.claimAt row.objectVersion = none) :
    SoftRow (fun version => (s'.claimAt version).isSome) row (s.readRow stale row).event
      (s'.readRow stale' row).event := by
  have hkept' : s.isWithdrawnInput row = false := by
    cases h : s.isWithdrawnInput row with
    | false => rfl
    | true => rw [d.isWithdrawnInput h] at hkept; cases hkept
  cases htruthy : isTruthy row.withdrawnEventId with
  | true =>
      rw [readRow_skipped _ _ _ (by simp [isSkipped, htruthy]),
        readRow_skipped _ _ _ (by simp [isSkipped, htruthy])]
      exact .pinned none none .none_none
  | false =>
      obtain ⟨marks, hread⟩ := s.readRow_admitted stale row (by simp [isSkipped, htruthy, hkept'])
      obtain ⟨marks', hread'⟩ := s'.readRow_admitted stale' row (by simp [isSkipped, htruthy, hkept])
      rw [hread, hread']
      have htarget := d.reductionTarget hlost
      simp only [ScientificRow.isPublication, Bool.or_eq_true, beq_iff_eq] at hpublication
      rcases hpublication with htype | htype
      · simp only [readAdmitted, htype, readPublication, ↓reduceIte]
        exact .created htarget
      · simp only [readAdmitted, htype, readPublication, reduceCtorEq, ↓reduceIte]
        exact .revised htarget

/-! ## Retractions -/

omit d in
theorem readRetraction_adverse (s : Snapshot) (row : ScientificRow) (marks : Bool)
    (hauthored : s.isAuthored row = true) (hother : s.retractsOther row = false) :
    ∃ event : PinnedEvent, (s.readRetraction row marks).event
          = some (.pinned row.seq row.targetVersion event)
        ∧ event.isAdverse = true
        ∧ event.withdrawsIdentity = (!s.isConcession row && s.retractedObject row == row.claimId) := by
  unfold readRetraction
  simp only [hauthored, hother, Bool.not_true, Bool.false_eq_true, ↓reduceIte]
  cases hconcession : s.isConcession row with
  | true =>
      simp only [↓reduceIte]
      split
      · exact ⟨.authorConcession, rfl, rfl, rfl⟩
      · exact ⟨.refutingEvidence row.objectId none none, rfl, rfl, rfl⟩
  | false =>
      refine ⟨.claimRetracted row.objectId (some (s.retractedObject row == row.claimId)), rfl, rfl, ?_⟩
      cases hwhole : s.retractedObject row == row.claimId <;> rfl

omit d in
theorem readRetraction_none (s : Snapshot) (row : ScientificRow) (marks : Bool)
    (h : s.isAuthored row = false ∨ s.retractsOther row = true) :
    (s.readRetraction row marks).event = none := by
  unfold readRetraction
  rcases h with h | h
  · rw [h]; rfl
  · rw [h]
    split <;> rfl

/-- What withdraws the whole identity still does without its text: the
recorded target column is the target of the text. -/
theorem withdrawsIdentity (hcolumns : ∀ payload, s.contents row.eventId = some payload →
      row.retractionTarget = payload.targetObject)
    (h : (!s.isConcession row && s.retractedObject row == row.claimId) = true) :
    (!s'.isConcession row && s'.retractedObject row == row.claimId) = true := by
  rcases d.contents_cases row.eventId with hnone | ⟨payload, hread, hfull⟩
  · simp only [Bool.and_eq_true, Bool.not_eq_true', beq_iff_eq] at h ⊢
    obtain ⟨hconcession, hobject⟩ := h
    constructor
    · simp only [Snapshot.isConcession, Bool.or_eq_false_iff] at hconcession
      simp [Snapshot.isConcession, hconcession.1, hnone]
    · rw [← hobject]
      unfold retractedObject
      rw [hnone]
      cases hfull : s.contents row.eventId with
      | none => rfl
      | some payload =>
          rw [hcolumns payload hfull]
          cases htarget : payload.targetObject <;> simp [htarget]
  · have hconcession : s'.isConcession row = s.isConcession row := by
      unfold Snapshot.isConcession
      rw [hread, hfull]
    have hobject : s'.retractedObject row = s.retractedObject row := by
      unfold retractedObject
      rw [hread, hfull]
    rwa [hconcession, hobject]

theorem soft_retraction {stale stale' : Bool} (htype : row.type = .objectRetracted)
    (hkept : s'.isWithdrawnInput row = false)
    (hcolumns : ∀ payload, s.contents row.eventId = some payload →
      row.retractionTarget = payload.targetObject) :
    SoftRow (fun version => (s'.claimAt version).isSome) row (s.readRow stale row).event
      (s'.readRow stale' row).event := by
  have hkept' : s.isWithdrawnInput row = false := by
    cases h : s.isWithdrawnInput row with
    | false => rfl
    | true => rw [d.isWithdrawnInput h] at hkept; cases hkept
  cases htruthy : isTruthy row.withdrawnEventId with
  | true =>
      rw [readRow_skipped _ _ _ (by simp [isSkipped, htruthy]),
        readRow_skipped _ _ _ (by simp [isSkipped, htruthy])]
      exact .pinned none none .none_none
  | false =>
      obtain ⟨marks, hread⟩ := s.readRow_admitted stale row (by simp [isSkipped, htruthy, hkept'])
      obtain ⟨marks', hread'⟩ := s'.readRow_admitted stale' row (by simp [isSkipped, htruthy, hkept])
      rw [hread, hread']
      simp only [readAdmitted, htype]
      have hauthored : s'.isAuthored row = s.isAuthored row := by
        unfold isAuthored
        rw [d.originalAuthor]
      cases hauthor : s.isAuthored row with
      | false =>
          rw [readRetraction_none s row marks (.inl hauthor),
            readRetraction_none s' row marks' (.inl (hauthored.trans hauthor))]
          exact .pinned none none .none_none
      | true =>
          cases hother' : s'.retractsOther row with
          | true =>
              have hother : s.retractsOther row = true := by
                rcases d.contents_cases row.eventId with hnone | ⟨payload, hread, hfull⟩
                · simp [retractsOther, hnone] at hother'
                · unfold retractsOther at hother' ⊢
                  rw [hread] at hother'
                  rw [hfull]
                  exact hother'
              rw [readRetraction_none s row marks (.inr hother),
                readRetraction_none s' row marks' (.inr hother')]
              exact .pinned none none .none_none
          | false =>
              obtain ⟨event', hevent', hadverse', hidentity'⟩ :=
                readRetraction_adverse s' row marks' (hauthored.trans hauthor) hother'
              rw [hevent']
              cases hother : s.retractsOther row with
              | true =>
                  rw [readRetraction_none s row marks (.inr hother)]
                  exact .pinned none (some event') (.against hadverse' fun _ h => by cases h)
              | false =>
                  obtain ⟨event, hevent, -, hidentity⟩ :=
                    readRetraction_adverse s row marks hauthor hother
                  rw [hevent]
                  refine .pinned (some event) (some event') (.against hadverse' fun other hmem hwhole => ?_)
                  cases hmem
                  rw [hidentity] at hwhole
                  rw [hidentity']
                  exact d.withdrawsIdentity hcolumns hwhole

/-! ## Evidence -/

omit d in
theorem readEvidence_quiet (s : Snapshot) {payload : Payload} {claim : ScientificClaim}
    {marks : Bool} {event : VersionedClaimTimelineEvent}
    (h : (s.readEvidence row payload claim marks).event = some event) :
    ∃ pinned : PinnedEvent, event = .pinned row.seq row.targetVersion pinned
      ∧ contest pinned = [] := by
  unfold readEvidence at h
  dsimp only at h
  repeat' split at h
  all_goals first
    | cases h; done
    | exact ⟨_, (Option.some.inj h).symm, rfl⟩

theorem soft_evidence {stale stale' : Bool} (htype : row.type = .evidenceCreated) :
    SoftRow (fun version => (s'.claimAt version).isSome) row (s.readRow stale row).event
      (s'.readRow stale' row).event := by
  cases htruthy : isTruthy row.withdrawnEventId with
  | true =>
      rw [readRow_skipped _ _ _ (by simp [isSkipped, htruthy]),
        readRow_skipped _ _ _ (by simp [isSkipped, htruthy])]
      exact .pinned none none .none_none
  | false =>
  cases hrefutes : row.direction.any isRefutingDirection with
  | true =>
      have hadverse : ∀ s : Snapshot, s.staysAdverse row = true := by
        intro s
        simp [staysAdverse, htype, hrefutes]
      obtain ⟨marks, hread⟩ := s.readRow_admitted stale row (by simp [isSkipped, htruthy, hadverse])
      obtain ⟨marks', hread'⟩ :=
        s'.readRow_admitted stale' row (by simp [isSkipped, htruthy, hadverse])
      rw [hread, hread']
      simp only [readAdmitted, htype, hrefutes, ↓reduceIte]
      exact .pinned (some (.refutingEvidence row.objectId none none))
        (some (.refutingEvidence row.objectId none none))
        (.against rfl fun _ hmem hwhole => by cases hmem; cases hwhole)
  | false =>
      have hnot : ∀ s : Snapshot, s.staysAdverse row = false := by
        intro s
        simp [staysAdverse, htype, hrefutes]
      have hquiet : ∃ full : Option PinnedEvent, (s.readRow stale row).event
          = full.map (.pinned row.seq row.targetVersion) ∧ ∀ event ∈ full, contest event = [] := by
        cases hskip : s.isSkipped row with
        | true => exact ⟨none, s.readRow_skipped stale row hskip, fun _ h => by cases h⟩
        | false =>
            obtain ⟨marks, hread⟩ := s.readRow_admitted stale row hskip
            rw [hread]
            simp only [readAdmitted, htype, hrefutes, Bool.false_eq_true, ↓reduceIte]
            split
            · rename_i payload claim _ _
              cases hevent : (s.readEvidence row payload claim marks).event with
              | none => exact ⟨none, rfl, fun _ h => by cases h⟩
              | some event =>
                  obtain ⟨pinned, rfl, hcontest⟩ := readEvidence_quiet s hevent
                  exact ⟨some pinned, rfl, fun _ h => by cases h; exact hcontest⟩
            · exact ⟨none, rfl, fun _ h => by cases h⟩
      obtain ⟨full, hfull, hcontest⟩ := hquiet
      cases hevent' : (s'.readRow stale' row).event with
      | none =>
          rw [hfull]
          exact .pinned full none (.idle hcontest fun _ h => by cases h)
      | some event =>
          have hskip' : s'.isSkipped row = false := by
            cases hskip : s'.isSkipped row with
            | false => rfl
            | true => rw [s'.readRow_skipped stale' row hskip] at hevent'; cases hevent'
          obtain ⟨marks', hread'⟩ := s'.readRow_admitted stale' row hskip'
          rw [hread'] at hevent'
          simp only [readAdmitted, htype, hrefutes, Bool.false_eq_true, ↓reduceIte] at hevent'
          split at hevent'
          · rename_i payload claim hpayload hclaim
            have hinput : s.isWithdrawnInput row = false := by
              cases hinput : s.isWithdrawnInput row with
              | false => rfl
              | true => simp [isSkipped, d.isWithdrawnInput hinput, hnot] at hskip'
            obtain ⟨marks, hread⟩ := s.readRow_admitted stale row (by simp [isSkipped, htruthy, hinput])
            have hevent : (s.readRow stale row).event = some event := by
              rw [hread]
              simp only [readAdmitted, htype, hrefutes, Bool.false_eq_true, ↓reduceIte,
                d.contents _ _ hpayload, d.claimAt _ _ hclaim]
              exact (d.grounds row).readEvidence hevent'
            obtain ⟨pinned, rfl, hquiet⟩ := readEvidence_quiet s' hevent'
            rw [hevent]
            refine .pinned (some pinned) (some pinned) (.same hquiet ?_)
            rw [hclaim]
            rfl
          · cases hevent'

/-! ## Reviews -/

omit d in
theorem readReview_event (s : Snapshot) (stale : Bool) (row : ScientificRow) (payload : Payload)
    (claim : ScientificClaim) (marks : Bool) :
    ∃ review : ReviewCreated, (s.readReview stale row payload claim marks).event
        = some (.pinned row.seq row.targetVersion (.reviewCreated review))
      ∧ review.verdict = payload.verdict.getD "cannot-verify" ∧ review.rubric = payload.rubric
      ∧ (review.carriesWeight = true → payload.couldFail = true)
      ∧ (isNegativeReview (some payload) = true → review.carriesWeight = payload.couldFail) := by
  refine ⟨_, rfl, rfl, rfl, fun h => ?_, fun h => ?_⟩
  · simp only [Bool.and_eq_true] at h
    exact h.1
  · dsimp only
    rw [h]
    simp

omit d in
theorem negative_of_finding {payload : Payload}
    (h : reviewFinding (payload.verdict.getD "cannot-verify") payload.rubric = some .dispute
      ∨ reviewFinding (payload.verdict.getD "cannot-verify") payload.rubric
        = some .statementDefect) :
    isNegativeReview (some payload) = true := by
  rcases finding_cases (payload.verdict.getD "cannot-verify") payload.rubric with
    ⟨-, entries, hrubric, hentry⟩ | ⟨hsupport, -⟩ | ⟨-, hverdict⟩ | hnone
  · simp only [isNegativeReview, hrubric, Bool.or_eq_true, List.any_eq_true, beq_iff_eq]
    right
    rcases hentry with hentry | hentry
    · exact ⟨_, hentry, .inl rfl⟩
    · exact ⟨_, hentry, .inr rfl⟩
  · rw [hsupport] at h
    rcases h with h | h <;> cases h
  · cases hv : payload.verdict with
    | none => simp [hv] at hverdict
    | some verdict =>
        rw [hv] at hverdict
        simp only [isNegativeReview, isRefutingVerdict, hv, Bool.or_eq_true, beq_iff_eq,
          Option.some.injEq]
        exact .inl hverdict
  · rw [hnone] at h
    rcases h with h | h <;> cases h

omit d in
theorem positive_of_finding {payload : Payload}
    (h : reviewFinding (payload.verdict.getD "cannot-verify") payload.rubric = some .support) :
    isNegativeReview (some payload) = false ∧ payload.verdict ≠ some "inform"
      ∧ isRefutingVerdict payload.verdict = false := by
  rcases finding_cases (payload.verdict.getD "cannot-verify") payload.rubric with
    ⟨hdefect, -⟩ | ⟨-, hverdict⟩ | ⟨hdispute, -⟩ | hnone
  · rw [hdefect] at h; cases h
  · cases hv : payload.verdict with
    | none => simp [hv] at hverdict
    | some verdict =>
        rw [hv] at hverdict
        have hrefuting : isRefutingVerdict (some verdict) = false := by
          rcases hverdict with rfl | rfl <;> rfl
        refine ⟨?_, by rcases hverdict with rfl | rfl <;> simp, hrefuting⟩
        simp only [isNegativeReview, hv, hrefuting, Bool.false_or]
        cases hrubric : payload.rubric with
        | none => rfl
        | some entries =>
            rw [List.any_eq_false]
            intro value hvalue hdefective
            simp only [Bool.or_eq_true, beq_iff_eq] at hdefective
            have hfinding : reviewFinding (payload.verdict.getD "cannot-verify") payload.rubric
                = some .statementDefect := by
              rw [hrubric]
              rcases hdefective with rfl | rfl <;> simp [reviewFinding, hvalue]
            rw [hfinding] at h
            cases h
  · rw [hdispute] at h; cases h
  · rw [hnone] at h; cases h

theorem readReview_support {stale stale' marks marks' : Bool} {payload : Payload}
    {claim : ScientificClaim} {review : ReviewCreated}
    (hpayload : s'.contents row.eventId = some payload)
    (hevent : (s'.readReview stale' row payload claim marks').event
      = some (.pinned row.seq row.targetVersion (.reviewCreated review)))
    (hweight : review.carriesWeight = true)
    (hfinding : reviewFinding (payload.verdict.getD "cannot-verify") payload.rubric
      = some .support) :
    (s.readReview stale row payload claim marks).event
      = some (.pinned row.seq row.targetVersion (.reviewCreated review)) := by
  obtain ⟨hnegative, hverdict, hrefuting⟩ := positive_of_finding hfinding
  have hnovelty : ∀ s : Snapshot, s.contents row.eventId = some payload →
      (s.noveltyOf row).isAdverse = false := by
    intro s hsame
    cases hadverse : (s.noveltyOf row).isAdverse with
    | false => rfl
    | true =>
        obtain ⟨other, hother, hother'⟩ := s.adverseNovelty_inform row hadverse
        rw [hsame] at hother
        cases hother
        exact absurd hother' hverdict
  rw [← hevent]
  unfold Snapshot.readReview at hevent ⊢
  simp only [Option.some.injEq, VersionedClaimTimelineEvent.pinned.injEq,
    PinnedEvent.reviewCreated.injEq, true_and] at hevent ⊢
  subst hevent
  simp only [hnegative, hnovelty s' hpayload, Bool.false_or, Bool.and_eq_true,
    Bool.not_eq_true'] at hweight
  obtain ⟨hcould, hrefused', hungrounded'⟩ := hweight
  simp only [(d.grounds row).reviewVerification hrefused', (d.grounds row).isUngroundedReview hungrounded', hungrounded',
    hnovelty s' hpayload, hnovelty s (d.contents _ _ hpayload), hrefuting, Bool.and_false,
    Bool.false_and, Bool.false_eq_true, ↓reduceIte]

omit d in
theorem readWithheldReview_adverse (row : ScientificRow) (marks : Bool) :
    ∃ review : ReviewCreated, (readWithheldReview row marks).event
        = some (.pinned row.seq row.targetVersion (.reviewCreated review))
      ∧ (PinnedEvent.reviewCreated review).isAdverse = true := by
  refine ⟨_, rfl, ?_⟩
  cases hdefect : row.weightedStatementDefect <;>
    simp [PinnedEvent.isAdverse, reviewFinding]

omit d in
theorem readAdmitted_review (s : Snapshot) (stale : Bool) (marks : Bool)
    (htype : row.type = .reviewCreated) :
    (∃ payload claim, s.contents row.eventId = some payload
        ∧ s.claimAt row.targetVersion = some claim
        ∧ s.readAdmitted stale row marks = s.readReview stale row payload claim marks)
      ∨ ((s.contents row.eventId = none ∨ s.claimAt row.targetVersion = none)
        ∧ s.readAdmitted stale row marks
          = if row.weightedRefutation || row.weightedStatementDefect then
              readWithheldReview row marks
            else { marksStale := marks }) := by
  simp only [readAdmitted, htype]
  cases hpayload : s.contents row.eventId with
  | none => exact .inr ⟨.inl rfl, rfl⟩
  | some payload =>
      cases hclaim : s.claimAt row.targetVersion with
      | none => exact .inr ⟨.inr rfl, rfl⟩
      | some claim => exact .inl ⟨payload, claim, rfl, rfl, rfl⟩

omit d in
theorem recorded_of_adverse (s : Snapshot) {stale : Bool} (htype : row.type = .reviewCreated)
    (hcolumns : ∀ payload, s.contents row.eventId = some payload → ColumnsMatch row payload)
    {event : PinnedEvent} (hevent : (s.readRow stale row).event
      = some (.pinned row.seq row.targetVersion event)) (hadverse : event.isAdverse = true) :
    isTruthy row.withdrawnEventId = false
      ∧ (row.weightedRefutation || row.weightedStatementDefect) = true
      ∧ ∀ payload, s.contents row.eventId = some payload →
        isNegativeReview (some payload) = true := by
  have hskip : s.isSkipped row = false := by
    cases hskip : s.isSkipped row with
    | false => rfl
    | true => rw [s.readRow_skipped stale row hskip] at hevent; cases hevent
  refine ⟨?_, ?_⟩
  · simp only [isSkipped, Bool.or_eq_false_iff] at hskip
    exact hskip.1
  obtain ⟨marks, hread⟩ := s.readRow_admitted stale row hskip
  rw [hread] at hevent
  rcases readAdmitted_review s stale marks htype with
    ⟨payload, claim, hpayload, -, hreview⟩ | ⟨-, hwithheld⟩
  · rw [hreview] at hevent
    obtain ⟨review, hreviewEvent, hverdict, hrubric, hcould, -⟩ :=
      readReview_event s stale row payload claim marks
    rw [hreviewEvent] at hevent
    simp only [Option.some.injEq, VersionedClaimTimelineEvent.pinned.injEq, true_and] at hevent
    subst hevent
    simp only [PinnedEvent.isAdverse, Bool.and_eq_true, Bool.or_eq_true, beq_iff_eq, hverdict,
      hrubric] at hadverse
    obtain ⟨hweight, hfinding⟩ := hadverse
    have hcolumn := hcolumns payload hpayload
    refine ⟨?_, fun other hother => ?_⟩
    · rw [Bool.or_eq_true]
      rcases finding_cases (payload.verdict.getD "cannot-verify") payload.rubric with
        ⟨-, hentry⟩ | ⟨hsupport, -⟩ | ⟨-, hrefute⟩ | hnone
      · exact .inr (hcolumn.defect htype (hcould hweight) hentry)
      · rw [hsupport] at hfinding
        rcases hfinding with h | h <;> cases h
      · refine .inl (hcolumn.refutation htype (hcould hweight) ?_)
        cases hv : payload.verdict with
        | none => simp [hv] at hrefute
        | some verdict =>
            rw [hv] at hrefute
            rcases hrefute with rfl | rfl <;> rfl
      · rw [hnone] at hfinding
        rcases hfinding with h | h <;> cases h
    · rw [hpayload] at hother
      cases hother
      exact negative_of_finding hfinding
  · rw [hwithheld] at hevent
    split at hevent
    · rename_i hweighted
      exact ⟨hweighted, fun payload hpayload =>
        (hcolumns payload hpayload).negative htype (by simpa using hweighted)⟩
    · cases hevent

omit d in
theorem readReview_adverse (s : Snapshot) {stale marks : Bool} {payload : Payload}
    {claim : ScientificClaim} {event : PinnedEvent}
    (hevent : (s.readReview stale row payload claim marks).event
      = some (.pinned row.seq row.targetVersion event))
    (hnegative : isNegativeReview (some payload) = true) :
    event.isAdverse = (payload.couldFail
      && (reviewFinding (payload.verdict.getD "cannot-verify") payload.rubric == some .dispute
        || reviewFinding (payload.verdict.getD "cannot-verify") payload.rubric
          == some .statementDefect)) := by
  obtain ⟨review, hreview, hverdict, hrubric, -, hweight⟩ :=
    readReview_event s stale row payload claim marks
  rw [hreview] at hevent
  simp only [Option.some.injEq, VersionedClaimTimelineEvent.pinned.injEq, true_and] at hevent
  subst hevent
  simp only [PinnedEvent.isAdverse, hverdict, hrubric, hweight hnegative]

theorem adverse_review {stale stale' : Bool} (htype : row.type = .reviewCreated)
    (hcolumns : ∀ payload, s.contents row.eventId = some payload → ColumnsMatch row payload)
    {event : PinnedEvent} (hevent : (s.readRow stale row).event
      = some (.pinned row.seq row.targetVersion event)) (hadverse : event.isAdverse = true) :
    ∃ event', (s'.readRow stale' row).event = some (.pinned row.seq row.targetVersion event')
      ∧ event'.isAdverse = true := by
  obtain ⟨htruthy, hweighted, hnegative⟩ := recorded_of_adverse s htype hcolumns hevent hadverse
  have hstays : s'.staysAdverse row = true := by
    rcases d.contents_cases row.eventId with hnone | ⟨payload, hread, hfull⟩
    · simp only [staysAdverse, htype, hnone]
      simp [hweighted]
    · simp only [staysAdverse, htype, hread, hnegative payload hfull]
      simp
  obtain ⟨marks', hread'⟩ :=
    s'.readRow_admitted stale' row (by simp [isSkipped, htruthy, hstays])
  rw [hread']
  rcases readAdmitted_review s' stale' marks' htype with
    ⟨payload, claim, hpayload, hclaim, hreview'⟩ | ⟨-, hwithheld⟩
  · -- still readable: the full snapshot read the same review
    have hskip : s.isSkipped row = false := by
      cases hskip : s.isSkipped row with
      | false => rfl
      | true => rw [s.readRow_skipped stale row hskip] at hevent; cases hevent
    obtain ⟨marks, hread⟩ := s.readRow_admitted stale row hskip
    rw [hread] at hevent
    rcases readAdmitted_review s stale marks htype with
      ⟨other, claim', hother, -, hreview⟩ | ⟨hlost, -⟩
    · rw [d.contents _ _ hpayload] at hother
      cases hother
      rw [hreview] at hevent
      have hfull := readReview_adverse s hevent (hnegative payload (d.contents _ _ hpayload))
      obtain ⟨review, hevent', -⟩ := readReview_event s' stale' row payload claim marks'
      rw [hreview']
      refine ⟨.reviewCreated review, hevent', ?_⟩
      rw [readReview_adverse s' hevent' (hnegative payload (d.contents _ _ hpayload)), ← hfull]
      exact hadverse
    · rw [d.contents _ _ hpayload, d.claimAt _ _ hclaim] at hlost
      rcases hlost with h | h <;> cases h
  · rw [hwithheld, if_pos hweighted]
    obtain ⟨review, hevent', hadverse'⟩ := readWithheldReview_adverse row marks'
    exact ⟨.reviewCreated review, hevent', hadverse'⟩

omit d in
theorem readRow_review (s : Snapshot) (stale : Bool) (htype : row.type = .reviewCreated) :
    ∃ full : Option PinnedEvent, (s.readRow stale row).event
        = full.map (.pinned row.seq row.targetVersion)
      ∧ ∀ event ∈ full, ∃ review, event = .reviewCreated review := by
  cases hskip : s.isSkipped row with
  | true => exact ⟨none, s.readRow_skipped stale row hskip, fun _ h => by cases h⟩
  | false =>
      obtain ⟨marks, hread⟩ := s.readRow_admitted stale row hskip
      rw [hread]
      rcases readAdmitted_review s stale marks htype with
        ⟨payload, claim, -, -, hreview⟩ | ⟨-, hwithheld⟩
      · obtain ⟨review, hevent, -⟩ := readReview_event s stale row payload claim marks
        rw [hreview, hevent]
        exact ⟨some (.reviewCreated review), rfl, fun _ h => by cases h; exact ⟨review, rfl⟩⟩
      · rw [hwithheld]
        split
        · obtain ⟨review, hevent, -⟩ := readWithheldReview_adverse row marks
          rw [hevent]
          exact ⟨some (.reviewCreated review), rfl, fun _ h => by cases h; exact ⟨review, rfl⟩⟩
        · exact ⟨none, rfl, fun _ h => by cases h⟩

theorem support_review {stale stale' : Bool} (htype : row.type = .reviewCreated)
    {review : ReviewCreated} (hevent' : (s'.readRow stale' row).event
      = some (.pinned row.seq row.targetVersion (.reviewCreated review)))
    (hweight : review.carriesWeight = true)
    (hfinding : reviewFinding review.verdict review.rubric = some .support) :
    (s.readRow stale row).event
        = some (.pinned row.seq row.targetVersion (.reviewCreated review))
      ∧ (s'.claimAt row.targetVersion).isSome = true := by
  have hskip' : s'.isSkipped row = false := by
    cases hskip : s'.isSkipped row with
    | false => rfl
    | true => rw [s'.readRow_skipped stale' row hskip] at hevent'; cases hevent'
  obtain ⟨marks', hread'⟩ := s'.readRow_admitted stale' row hskip'
  rw [hread'] at hevent'
  rcases readAdmitted_review s' stale' marks' htype with
    ⟨payload, claim, hpayload, hclaim, hreview'⟩ | ⟨-, hwithheld⟩
  · rw [hreview'] at hevent'
    have hsupport : reviewFinding (payload.verdict.getD "cannot-verify") payload.rubric
        = some .support := by
      obtain ⟨other, hother, hverdict, hrubric, -⟩ :=
        readReview_event s' stale' row payload claim marks'
      rw [hother] at hevent'
      simp only [Option.some.injEq, VersionedClaimTimelineEvent.pinned.injEq,
        PinnedEvent.reviewCreated.injEq, true_and] at hevent'
      subst hevent'
      rwa [hverdict, hrubric] at hfinding
    obtain ⟨hnegative, hverdict, -⟩ := positive_of_finding hsupport
    -- a withdrawn positive review is skipped, so this one was never withdrawn
    have hinput : s.isWithdrawnInput row = false := by
      cases hinput : s.isWithdrawnInput row with
      | false => rfl
      | true =>
          simp only [isSkipped, d.isWithdrawnInput hinput, Bool.or_eq_false_iff, Bool.true_and,
            Bool.not_eq_false'] at hskip'
          have hstays := hskip'.2
          simp only [staysAdverse, htype, hpayload, hnegative, Option.isNone_some,
            Bool.false_and, Bool.or_false, Bool.false_or] at hstays
          rcases Bool.or_eq_true _ _ |>.mp hstays with h | h
          · simp at h
          · obtain ⟨other, hother, hinform⟩ := s'.adverseNovelty_inform row
              (Bool.and_eq_true _ _ |>.mp h).2
            rw [hpayload] at hother
            cases hother
            exact absurd hinform hverdict
    have htruthy : isTruthy row.withdrawnEventId = false := by
      simp only [isSkipped, Bool.or_eq_false_iff] at hskip'
      exact hskip'.1
    obtain ⟨marks, hread⟩ := s.readRow_admitted stale row (by simp [isSkipped, htruthy, hinput])
    refine ⟨?_, by rw [hclaim]; rfl⟩
    rw [hread]
    rcases readAdmitted_review s stale marks htype with
      ⟨other, claim', hother, hclaim', hreview⟩ | ⟨hlost, -⟩
    · rw [d.contents _ _ hpayload] at hother
      rw [d.claimAt _ _ hclaim] at hclaim'
      cases hother
      cases hclaim'
      rw [hreview]
      exact d.readReview_support hpayload hevent' hweight hsupport
    · rw [d.contents _ _ hpayload, d.claimAt _ _ hclaim] at hlost
      rcases hlost with h | h <;> cases h
  · rw [hwithheld] at hevent'
    split at hevent'
    · obtain ⟨other, hother, hadverse⟩ := readWithheldReview_adverse row marks'
      rw [hother] at hevent'
      simp only [Option.some.injEq, VersionedClaimTimelineEvent.pinned.injEq,
        PinnedEvent.reviewCreated.injEq, true_and] at hevent'
      subst hevent'
      simp [PinnedEvent.isAdverse, hfinding] at hadverse
    · cases hevent'

theorem soft_review {stale stale' : Bool} (htype : row.type = .reviewCreated)
    (hcolumns : ∀ payload, s.contents row.eventId = some payload → ColumnsMatch row payload) :
    SoftRow (fun version => (s'.claimAt version).isSome) row (s.readRow stale row).event
      (s'.readRow stale' row).event := by
  obtain ⟨full, hfull, hreviews⟩ := readRow_review s stale htype
  obtain ⟨hidden, hhidden, hreviews'⟩ := readRow_review s' stale' htype
  have hsame : ∀ {event event' : PinnedEvent}, (some event).map
        (VersionedClaimTimelineEvent.pinned row.seq row.targetVersion)
      = some (.pinned row.seq row.targetVersion event') → event = event' := by
    intro event event' h
    simpa using h
  -- without an adverse reading after the withholding there was none before it
  have hquiet : (∀ event ∈ hidden, event.isAdverse = false) → ∀ event ∈ full, contest event = [] := by
    intro hnone event hmem
    obtain ⟨review, rfl⟩ := hreviews event hmem
    refine contest_review ?_
    cases hadverse : (PinnedEvent.reviewCreated review).isAdverse with
    | false => rfl
    | true =>
        have hevent : (s.readRow stale row).event
            = some (.pinned row.seq row.targetVersion (.reviewCreated review)) := by
          rw [hfull, Option.mem_def.mp hmem]
          rfl
        obtain ⟨event', hevent', hadverse'⟩ :=
          @adverse_review _ _ d _ _ stale' htype hcolumns _ hevent hadverse
        rw [hhidden] at hevent'
        cases hidden with
        | none => cases hevent'
        | some other =>
            rw [← hsame hevent', hnone other rfl] at hadverse'
            cases hadverse'
  rw [hfull, hhidden]
  refine .pinned full hidden ?_
  cases hidden with
  | none => exact .idle (hquiet fun _ h => by cases h) fun _ h => by cases h
  | some event' =>
      obtain ⟨review, rfl⟩ := hreviews' event' rfl
      cases hadverse : (PinnedEvent.reviewCreated review).isAdverse with
      | true =>
          refine .against hadverse fun event hmem hwhole => ?_
          obtain ⟨other, rfl⟩ := hreviews event hmem
          cases hwhole
      | false =>
          have hfullQuiet := hquiet fun event hmem => by cases hmem; exact hadverse
          by_cases hmoves : review.carriesWeight = false
              ∨ reviewFinding review.verdict review.rubric = none
          · exact .idle hfullQuiet fun event hmem => by cases hmem; exact review_isIdle hmoves
          · obtain ⟨hweight, hfinding⟩ := not_or.mp hmoves
            rw [Bool.not_eq_false] at hweight
            have hsupport : reviewFinding review.verdict review.rubric = some .support := by
              cases hf : reviewFinding review.verdict review.rubric with
              | none => exact absurd hf hfinding
              | some finding =>
                  cases finding <;> simp [PinnedEvent.isAdverse, hweight, hf] at hadverse ⊢
            obtain ⟨hevent, hvisible⟩ :=
              @support_review _ _ d _ stale _ htype _ hhidden hweight hsupport
            rw [hfull] at hevent
            cases full with
            | none => cases hevent
            | some event =>
                rw [hsame hevent]
                exact .same (contest_review hadverse) hvisible

end Dimmed

theorem Snapshot.readRow_reviewId (s : Snapshot) {stale : Bool} {row : ScientificRow}
    {sequence version : Int} {review : ReviewCreated}
    (h : (s.readRow stale row).event = some (.pinned sequence version (.reviewCreated review))) :
    row.type = .reviewCreated ∧ review.reviewId = row.objectId := by
  cases hskip : s.isSkipped row with
  | true => rw [s.readRow_skipped stale row hskip] at h; cases h
  | false =>
      obtain ⟨marks, hread⟩ := s.readRow_admitted stale row hskip
      rw [hread] at h
      cases htype : row.type with
      | claimCreated => simp [readAdmitted, htype, readPublication] at h
      | claimRevised => simp [readAdmitted, htype, readPublication] at h
      | objectRetracted =>
          simp only [readAdmitted, htype, readRetraction] at h
          repeat' split at h
          all_goals cases h
      | evidenceCreated =>
          simp only [readAdmitted, htype] at h
          split at h
          · cases h
          · split at h
            · obtain ⟨pinned, hevent, hquiet⟩ := Dimmed.readEvidence_quiet s h
              simp only [readEvidence] at h
              repeat' split at h
              all_goals cases h
            · cases h
      | reviewCreated =>
          refine ⟨rfl, ?_⟩
          simp only [readAdmitted, htype] at h
          split at h
          · simp only [readReview, Option.some.injEq, VersionedClaimTimelineEvent.pinned.injEq,
              PinnedEvent.reviewCreated.injEq] at h
            rw [← h.2.2]
          · split at h
            · simp only [readWithheldReview, Option.some.injEq,
                VersionedClaimTimelineEvent.pinned.injEq, PinnedEvent.reviewCreated.injEq] at h
              rw [← h.2.2]
            · cases h
      | other => simp [readAdmitted, htype] at h

end Asimposium
