import Asimposium.Ledger.RetryPages
import Asimposium.Ledger.ClosureCircularity

/-!
# Retry discovery

The verification of a firing and the pages that list it, together. What keeps a
retry from being found is an author's withdrawal of an input of the claim, on
whatever version: from then on the count misses a row of the evaluator, and no
firing of a trigger on the claim can be verified.
-/

namespace Asimposium.DeadEndRetries

/-- **Retry discovery** is exact and complete exactly if no input of the claim
was withdrawn by the cut, or the verification is excused. -/
theorem retries_exact_iff {fold : ScienceFold} {db : Ledger} {moments : Moments} {row : Firing}
    {problem claim : String} {reaches : ClaimDisposition} {through version : Int}
    {e : LedgerEvent} (hcut : IsCut problem through) (hdb : db.WellFormed)
    (hcreated : db.Created claim through) (hbudget : WithinBudget db moments.counted claim through)
    (hfiring : row.Of db claim through e version)
    (folds : CausalFolds fold (db.prepareScientificDispositions moments.read claim through)
      row.seq through) :
    let excused := folds.stale = true ∨ BodyLost db moments claim through row e
    Exact (verifyRetryClaimTransition fold db moments row claim reaches through)
        (folds.Transition reaches version) excused ∧ Complete problem through
      ↔ NoInputWithdrawn db claim through ∨ excused :=
  (and_iff_left (pages_complete hcut)).trans (verify_exact_iff hdb hcreated hbudget hfiring folds)

/-! ## A refutation after a withdrawal -/

structure RecordedBody where
  eventId : String
  sha256 : String
  text : String
  payload : Payload

def evidenceSha256 : String := "e1e63d35f2b370d5789c038b0f5c0a579cf2124737324961f18fb92fcd6a1090"

/-- A claim, evidence for it, its revision, a review that refutes the revision,
and the withdrawal of the evidence. -/
def recordedBodies : List RecordedBody :=
  [{ eventId := "E1"
     sha256 := "d363cd865f692fad4126a1bfb0f283e2b4aa24213ce68a3d6b334bfcf92d2681"
     text := "\x7b\"statement\":\"Every n is even.\"\x7d"
     payload := { statement := some "Every n is even." } },
   { eventId := "E2"
     sha256 := evidenceSha256
     text := "\x7b\"bears_on_kind\":\"claim\",\"bears_on_id\":\"C-1\",\"bears_on_version\":1,"
       ++ "\"direction\":\"supports\",\"kind\":\"computation\",\"body_md\":\"Checked for n = 4.\"\x7d"
     payload :=
       { bearsOnKind := some "claim", bearsOnId := some "C-1", bearsOnVersion := some 1
         direction := some "supports", kind := some "computation"
         bodyMd := some "Checked for n = 4." } },
   { eventId := "E3"
     sha256 := "d8592daa6837fd3e355c8c6935c42682f066d5ab2a94b424a834668b58d4081e"
     text := "\x7b\"claim_id\":\"C-1\",\"base_version\":1,\"statement\":\"Every n is odd.\"\x7d"
     payload :=
       { claimId := some "C-1", baseVersion := some 1, statement := some "Every n is odd." } },
   { eventId := "E4"
     sha256 := "fe65d6c0769744bad035446c0d98e8700b2288934596cb2b5f22a8b53d3849b6"
     text := "\x7b\"target_claim_id\":\"C-1\",\"target_version\":2,\"verdict\":\"refute\","
       ++ "\"capable_of_failure\":\"n = 2\"\x7d"
     payload :=
       { targetClaimId := some "C-1", targetVersion := some 2, verdict := some "refute"
         capableOfFailure := some "n = 2" } },
   { eventId := "E5"
     sha256 := "2a7e8d4acfbcdd75d0d7be9221bc55b1da6aecca4ba50b1d9ce181107c6c0dfa"
     text := "\x7b\"target_object\":\"E-1\",\"target_event_id\":\"E2\",\"target_kind\":\"evidence\","
       ++ "\"target_digest\":\"sha256:" ++ evidenceSha256
       ++ "\",\"claim_id\":\"C-1\",\"claim_version\":1\x7d"
     payload :=
       { targetObject := some "E-1", targetEventId := some "E2", targetKind := some "evidence"
         targetDigest := some (payloadDigestText evidenceSha256)
         claimId := some "C-1", claimVersion := some 1 } }]

def recordedReader : ScientificReader where
  sha256 text := ((recordedBodies.find? (·.text == text)).map (·.sha256)).getD ""
  parse text := (recordedBodies.find? (·.text == text)).map (·.payload)
  localeLe left right := decide (left ≤ right)

def recordedContents : Contents := fun eventId =>
  (recordedBodies.find? (·.eventId == eventId)).map fun body =>
    { payloadSha256 := body.sha256, payloadJson := body.text, redacted := false, hidden := false }

def recordedEvent (id : String) (seq : Int) (type : EventType) (objectId : String)
    (objectVersion : Int) (author : String) (joined : Joined) : LedgerEvent where
  id := id
  seq := seq
  type := type
  objectId := objectId
  objectVersion := objectVersion
  payloadSha256 := ((recordedContents id).map (·.payloadSha256)).getD ""
  createdAt := none
  fellowId := "F-" ++ author
  sponsorId := "S-" ++ author
  concessionEventId := none
  joined := joined

def refutingReview : LedgerEvent :=
  recordedEvent "E4" 4 .reviewCreated "R-1" 1 "2" (.review "C-1" 2 true false)

def evidenceWithdrawal : LedgerEvent :=
  recordedEvent "E5" 5 .objectRetracted "RT-1" 1 "3"
    (.retraction "E-1" (some ⟨"E2", evidenceSha256, "evidence", "C-1", 1⟩))

def refutedLedger : Ledger where
  castInteger _ := 0
  events :=
    [recordedEvent "E1" 1 .claimCreated "C-1" 1 "1"
       (.claim (some contentZero) (some "Every n is even.") none),
     recordedEvent "E2" 2 .evidenceCreated "E-1" 1 "3"
       (.evidence "C-1" (some 1) (some "supports")),
     recordedEvent "E3" 3 .claimRevised "C-1" 2 "1"
       (.claim (some contentZero) (some "Every n is odd.") none),
     refutingReview, evidenceWithdrawal]

def recordedMoments : Moments := ⟨recordedContents, recordedContents, recordedContents⟩

def refutationFiring : Firing where
  eventId := "E4"
  seq := 4
  payloadSha256 := refutingReview.payloadSha256
  payloadJson := recordedContents.readable refutingReview

def standing (f : ScientificDisposition) : Bool × ClaimDisposition × Option Int :=
  (f.stale, f.disposition, f.fold.currentVersion)

def recordedFold : ScienceFold := fun rows _ => foldScientificRows recordedReader rows

theorem readable_unredacted {contents : Contents} {e : LedgerEvent} {body : String}
    (h : contents.readable e = some body) : contents.unredacted e = some body := by
  unfold Contents.readable at h
  split at h
  · split at h
    · cases h
    · exact h
  · cases h

theorem refuted_wellFormed : refutedLedger.WellFormed where
  ids := by decide +kernel
  inputs := by
    intro e he target withdrawal hjoined c hc htype
    simp only [refutedLedger, List.mem_cons, List.not_mem_nil, or_false] at he hc
    rcases he with rfl | rfl | rfl | rfl | rfl
    · cases hjoined
    · cases hjoined
    · cases hjoined
    · cases hjoined
    · cases hjoined
      rcases hc with rfl | rfl | rfl | rfl | rfl
      · decide +kernel
      · cases htype
      · cases htype
      · cases htype
      · cases htype

variable {through : Int}

theorem refuted_created (h : 4 ≤ through) : refutedLedger.Created "C-1" through :=
  ⟨_, List.mem_cons_self .., by change 1 ≤ through; omega, rfl, rfl⟩

theorem refuted_budget (h : through ≤ 5) :
    WithinBudget refutedLedger recordedContents "C-1" through := by
  have hsublist : (refutedLedger.evaluated "C-1" through).Sublist
      (refutedLedger.evaluated "C-1" 5) := by
    refine List.monotone_filter_right _ fun e he => ?_
    simp only [Bool.and_eq_true, decide_eq_true_eq] at he ⊢
    exact ⟨⟨he.1.1.trans h, he.1.2⟩, he.2⟩
  have hbytes : bodyBytes recordedContents (refutedLedger.evaluated "C-1" 5)
      ≤ RETRY_SCIENCE_MAX_BYTES := by decide +kernel
  exact ⟨hsublist.length_le.trans (by decide), (bodyBytes_sublist hsublist).trans hbytes⟩

theorem refuted_firing (h : 4 ≤ through) :
    refutationFiring.Of refutedLedger "C-1" through refutingReview 2 where
  event := mem_scope.mpr ⟨by simp [refutedLedger], h, rfl, rfl⟩
  id := rfl
  seq := rfl
  digest := rfl
  targets := rfl
  version := by decide

theorem refuted_not_lost :
    ¬ BodyLost refutedLedger recordedMoments "C-1" through refutationFiring refutingReview := by
  rintro (hunread | ⟨x, -, body, hread, hlost⟩)
  · exact hunread rfl
  · exact hlost (readable_unredacted hread)

theorem exists_folds {fold : ScienceFold} {rows : List ScientificRow} {seq : Int}
    {b a c : Bool × ClaimDisposition × Option Int}
    (hbefore : (fold (rows.filter (·.seq < seq)) (seq - 1)).map standing = .ok b)
    (hafter : (fold (rows.filter (·.seq ≤ seq)) seq).map standing = .ok a)
    (hcurrent : (fold rows through).map standing = .ok c) :
    ∃ folds : CausalFolds fold rows seq through, standing folds.before = b
      ∧ standing folds.after = a ∧ standing folds.current = c := by
  obtain ⟨f, hf, rfl⟩ := ExceptRun.map_ok.mp hbefore
  obtain ⟨g, hg, rfl⟩ := ExceptRun.map_ok.mp hafter
  obtain ⟨k, hk, rfl⟩ := ExceptRun.map_ok.mp hcurrent
  exact ⟨⟨f, g, k, hf, hg, hk⟩, rfl, rfl, rfl⟩

theorem refuted_folds (h : through = 4 ∨ through = 5) :
    ∃ folds : CausalFolds recordedFold (refutedLedger.prepareScientificDispositions
        recordedMoments.read "C-1" through) refutationFiring.seq through,
      folds.stale = false ∧ folds.Transition .disputed 2 := by
  have hbefore : (recordedFold ((refutedLedger.prepareScientificDispositions recordedContents
      "C-1" 5).filter (·.seq < 4)) (4 - 1)).map standing = .ok (false, .open, some 2) := by
    decide +kernel
  have hafter : (recordedFold ((refutedLedger.prepareScientificDispositions recordedContents
      "C-1" 5).filter (·.seq ≤ 4)) 4).map standing = .ok (false, .disputed, some 2) := by
    decide +kernel
  have hcurrent : (recordedFold (refutedLedger.prepareScientificDispositions recordedContents
      "C-1" 5) 5).map standing = .ok (false, .disputed, some 2) := by
    decide +kernel
  obtain ⟨folds, hb, ha, hc⟩ : ∃ folds : CausalFolds recordedFold
      (refutedLedger.prepareScientificDispositions recordedMoments.read "C-1" through)
      refutationFiring.seq through, standing folds.before = (false, .open, some 2)
        ∧ standing folds.after = (false, .disputed, some 2)
        ∧ standing folds.current = (false, .disputed, some 2) := by
    rcases h with rfl | rfl
    · exact exists_folds hbefore hafter hafter
    · exact exists_folds hbefore hafter hcurrent
  simp only [standing, Prod.mk.injEq] at hb ha hc
  refine ⟨folds, ?_, ?_⟩
  · simp [CausalFolds.stale, hb, ha, hc]
  · simp [CausalFolds.Transition, hb, ha, hc]

/-- Once the author of evidence on the first version withdraws it, the retry is
no longer found. -/
theorem retries_missed_after_withdrawal :
    refutedLedger.WellFormed
      ∧ ∃ folds : CausalFolds recordedFold (refutedLedger.prepareScientificDispositions
          recordedMoments.read "C-1" 5) refutationFiring.seq 5,
        folds.Transition .disputed 2 ∧ folds.stale = false
          ∧ ¬ BodyLost refutedLedger recordedMoments "C-1" 5 refutationFiring refutingReview
          ∧ verifyRetryClaimTransition recordedFold refutedLedger recordedMoments
            refutationFiring "C-1" .disputed 5 = .ok .unavailable := by
  obtain ⟨folds, hstale, htransition⟩ := refuted_folds (.inr rfl)
  refine ⟨refuted_wellFormed, folds, htransition, hstale, refuted_not_lost,
    verify_of_input_withdrawn refuted_wellFormed (refuted_created (by decide))
      (refuted_budget le_rfl) fun hnone => ?_⟩
  have hwithdraws := hnone evidenceWithdrawal (by simp [refutedLedger]) (by decide)
  exact absurd hwithdraws (by decide +kernel)

/-- Before the withdrawal the retry is found. -/
theorem retries_exact_iff_refuted :
    ∃ folds : CausalFolds recordedFold (refutedLedger.prepareScientificDispositions
        recordedMoments.read "C-1" 4) refutationFiring.seq 4,
      Exact (verifyRetryClaimTransition recordedFold refutedLedger recordedMoments
          refutationFiring "C-1" .disputed 4) (folds.Transition .disputed 2)
        (folds.stale = true ∨ BodyLost refutedLedger recordedMoments "C-1" 4
          refutationFiring refutingReview) ∧ Complete "P-DEMO" 4 := by
  obtain ⟨folds, -⟩ := refuted_folds (.inl rfl)
  refine ⟨folds, (retries_exact_iff ⟨by decide +kernel, by decide, by decide⟩
    refuted_wellFormed (refuted_created le_rfl) (refuted_budget (by decide))
    (refuted_firing le_rfl) folds).mpr (.inl fun e he hseq => ?_)⟩
  simp only [refutedLedger, List.mem_cons, List.not_mem_nil, or_false] at he
  rcases he with rfl | rfl | rfl | rfl | rfl
  · rfl
  · rfl
  · rfl
  · rfl
  · exact absurd hseq (by decide)

end Asimposium.DeadEndRetries
