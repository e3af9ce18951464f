import Asimposium.Ledger.DependencyAssessment
import Asimposium.Ledger.WithheldFold

/-!
# The review-state facet under withholding

The fold keeps two accounts of a review: the event it feeds the timeline
and the facet it records. A review whose payload is withheld keeps its
event, by the columns; it records no facet. What contests a version is
therefore exactly the refuting reviews of it that can still be read,
under a publication that can still be read.
-/

namespace Asimposium

/-! ## The facet -/

def RecordedReviewFacet.disputes (review : RecordedReviewFacet) : Bool :=
  isRefutingVerdict (some review.verdict)

theorem reviewState_contested_iff {reviews : List RecordedReviewFacet} :
    reviewStateFromRecordedReviews reviews = .contested ↔ ∃ review ∈ reviews, review.disputes = true := by
  unfold reviewStateFromRecordedReviews
  dsimp only
  split
  · rename_i hany
    exact ⟨fun _ => List.any_eq_true.mp hany, fun _ => rfl⟩
  · rename_i hnone
    refine ⟨fun h => ?_, fun h => absurd (List.any_eq_true.mpr h) hnone⟩
    split at h <;> cases h

/-! ## The facet of one row -/

namespace Snapshot

variable (s : Snapshot)

variable {row : ScientificRow}

theorem readAdmitted_facet {stale : Bool} {marks : Bool} (htype : row.type ≠ .reviewCreated) :
    (s.readAdmitted stale row marks).facet = none := by
  unfold readAdmitted
  cases hcase : row.type with
  | claimCreated => rfl
  | claimRevised => rfl
  | objectRetracted =>
      dsimp only
      unfold readRetraction
      dsimp only
      split_ifs <;> rfl
  | evidenceCreated =>
      dsimp only
      split
      · rfl
      · split
        · unfold readEvidence
          dsimp only
          split
          · rfl
          · split
            · split_ifs <;> rfl
            · split_ifs <;> rfl
        · rfl
  | reviewCreated => exact absurd hcase htype
  | other => rfl

theorem readRow_skipped_facet {stale : Bool} (h : s.isSkipped row = true) :
    (s.readRow stale row).facet = none := by
  unfold readRow
  simp only [isSkipped, Bool.or_eq_true, Bool.and_eq_true, Bool.not_eq_true'] at h
  rcases h with h | ⟨h, hadverse⟩
  · rw [h]; rfl
  · rw [h, hadverse]
    split <;> rfl

theorem isSkipped_of_refuting {payload : Payload} (htype : row.type = .reviewCreated)
    (hwithdrawn : isTruthy row.withdrawnEventId = false)
    (hcontent : s.contents row.eventId = some payload)
    (hrefutes : isRefutingVerdict payload.verdict = true) : s.isSkipped row = false := by
  have hadverse : s.staysAdverse row = true := by
    unfold staysAdverse
    rw [htype, hcontent, isNegativeReview, hrefutes]
    rfl
  unfold isSkipped
  rw [hwithdrawn, hadverse]
  simp

theorem readRow_disputes (stale : Bool) (row : ScientificRow) (version : Int) :
    (∃ facet, (s.readRow stale row).facet = some facet ∧ facet.targetVersion = version
        ∧ facet.disputes = true)
      ↔ row.type = .reviewCreated ∧ row.targetVersion = version
        ∧ isTruthy row.withdrawnEventId = false
        ∧ (∃ payload, s.contents row.eventId = some payload
          ∧ isRefutingVerdict payload.verdict = true)
        ∧ (s.claimAt version).isSome = true := by
  constructor
  · rintro ⟨facet, hfacet, rfl, hdisputes⟩
    cases hskip : s.isSkipped row with
    | true =>
        rw [s.readRow_skipped_facet hskip] at hfacet
        cases hfacet
    | false =>
        have htruthy : isTruthy row.withdrawnEventId = false := (Bool.or_eq_false_iff.mp hskip).1
        obtain ⟨marks, hread⟩ := s.readRow_admitted stale row hskip
        rw [hread] at hfacet
        by_cases htype : row.type = .reviewCreated
        · rcases Dimmed.readAdmitted_review s stale marks htype with
            ⟨payload, claim, hcontent, hclaim, hreview⟩ | ⟨-, hwithheld⟩
          · rw [hreview] at hfacet
            obtain rfl := Option.some.inj hfacet
            refine ⟨htype, rfl, htruthy, ⟨payload, hcontent, ?_⟩, Option.isSome_iff_exists.mpr
              ⟨claim, hclaim⟩⟩
            cases hverdict : payload.verdict with
            | none =>
                have hdefault : isRefutingVerdict (some (payload.verdict.getD "cannot-verify")) = true :=
                  hdisputes
                rw [hverdict] at hdefault
                exact absurd hdefault (by decide)
            | some verdict =>
                have hgiven : isRefutingVerdict (some (payload.verdict.getD "cannot-verify")) = true :=
                  hdisputes
                rw [hverdict] at hgiven
                exact hgiven
          · rw [hwithheld] at hfacet
            split at hfacet <;> cases hfacet
        · rw [s.readAdmitted_facet htype] at hfacet
          cases hfacet
  · rintro ⟨htype, rfl, hwithdrawn, ⟨payload, hcontent, hrefutes⟩, hclaim⟩
    obtain ⟨claim, hclaim⟩ := Option.isSome_iff_exists.mp hclaim
    obtain ⟨marks, hread⟩ := s.readRow_admitted stale row
      (s.isSkipped_of_refuting htype hwithdrawn hcontent hrefutes)
    have hreview : s.readAdmitted stale row marks = s.readReview stale row payload claim marks := by
      simp only [readAdmitted, htype, hcontent, hclaim]
    refine ⟨_, (congrArg RowReading.facet (hread.trans hreview)), rfl, ?_⟩
    unfold RecordedReviewFacet.disputes
    cases hverdict : payload.verdict with
    | none =>
        rw [hverdict] at hrefutes
        cases hrefutes
    | some verdict =>
        rw [hverdict] at hrefutes
        exact hrefutes

theorem mem_readRows (stale : Bool) {rows : List ScientificRow} :
    row ∈ rows ↔ ∃ reading, (row, reading) ∈ s.readRows stale rows := by
  induction rows generalizing stale with
  | nil => simp [readRows]
  | cons first rest ih =>
      rw [readRows, List.mem_cons,
        ih (stale || (s.readRow stale first).marksStale && s.pinsHead first)]
      constructor
      · rintro (rfl | ⟨reading, hmem⟩)
        · exact ⟨_, List.mem_cons_self ..⟩
        · exact ⟨reading, List.mem_cons_of_mem _ hmem⟩
      · rintro ⟨reading, hmem⟩
        rcases List.mem_cons.mp hmem with heq | hmem
        · exact .inl (congrArg Prod.fst heq)
        · exact .inr ⟨reading, hmem⟩

theorem reading_of_mem {stale : Bool} {rows : List ScientificRow} {reading : RowReading}
    (h : (row, reading) ∈ s.readRows stale rows) : ∃ stale, reading = s.readRow stale row := by
  induction rows generalizing stale with
  | nil => cases h
  | cons first rest ih =>
      rw [readRows] at h
      rcases List.mem_cons.mp h with heq | hmem
      · obtain ⟨rfl, rfl⟩ := Prod.mk.inj heq
        exact ⟨stale, rfl⟩
      · exact ih hmem

end Snapshot

/-! ## The facet of a version -/

/-- The review-state facet the fold gives a version of the claim. -/
def ScientificDisposition.reviewStateOf (f : ScientificDisposition) (version : Int) :
    ReviewStateFacet :=
  reviewStateFromRecordedReviews (f.reviewFacets.filter (·.targetVersion == version))

/-- A refuting review of the version can be read, and so can the publication
of the version. -/
def DisputeReadable (reader : PayloadReader) (rows : List ScientificRow) (version : Int) : Prop :=
  (∃ review ∈ rows, review.type = .reviewCreated ∧ review.targetVersion = version
      ∧ isTruthy review.withdrawnEventId = false
      ∧ ∃ payload, review.readable reader = some payload
        ∧ isRefutingVerdict payload.verdict = true)
    ∧ ∃ publication ∈ rows, publication.isPublication = true
      ∧ publication.objectVersion = version ∧ (publication.readable reader).isSome = true
      ∧ publication.contentDigest.isSome = true ∧ publication.statement.isSome = true

theorem publishedClaim_isSome {s : Snapshot} {row : ScientificRow} :
    (∃ claim, s.publishedClaim row = some claim)
      ↔ (row.readable s.reader.toPayloadReader).isSome = true ∧ row.contentDigest.isSome = true
        ∧ row.statement.isSome = true := by
  unfold Snapshot.publishedClaim
  cases row.readable s.reader.toPayloadReader <;> cases row.contentDigest <;> cases row.statement <;>
    simp

section Fold

variable {reader : ScientificReader} {rows : List ScientificRow}

theorem claimAt_isSome (reader : ScientificReader) (hversions : DistinctVersions rows) {version : Int} :
    ((Snapshot.mk reader rows).claimAt version).isSome = true
      ↔ ∃ publication ∈ rows, publication.isPublication = true
        ∧ publication.objectVersion = version
        ∧ (publication.readable reader.toPayloadReader).isSome = true
        ∧ publication.contentDigest.isSome = true ∧ publication.statement.isSome = true := by
  rw [Option.isSome_iff_exists]
  constructor
  · rintro ⟨claim, hclaim⟩
    obtain ⟨row, hrow, hpublication, hversion, hpublished⟩ := (claimAt_iff hversions).mp hclaim
    exact ⟨row, hrow, hpublication, hversion, publishedClaim_isSome.mp ⟨claim, hpublished⟩⟩
  · rintro ⟨row, hrow, hpublication, hversion, hreadable⟩
    obtain ⟨claim, hpublished⟩ :=
      publishedClaim_isSome (s := Snapshot.mk reader rows).mpr hreadable
    exact ⟨claim, (claimAt_iff hversions).mpr ⟨row, hrow, hpublication, hversion, hpublished⟩⟩

theorem contested_iff (hevents : rows.Pairwise (·.eventId ≠ ·.eventId))
    (hversions : DistinctVersions rows) {f : ScientificDisposition}
    (hf : foldScientificRows reader rows = .ok f) {version : Int} :
    f.reviewStateOf version = .contested
      ↔ DisputeReadable reader.toPayloadReader rows version := by
  have hfacets : f.reviewFacets = (Snapshot.mk reader rows).readings.filterMap (·.2.facet) := by
    unfold foldScientificRows at hf
    obtain ⟨folded, -, rfl⟩ := ExceptRun.map_ok.mp hf
    rfl
  have hcontent : ∀ row ∈ rows, (Snapshot.mk reader rows).contents row.eventId
      = row.readable reader.toPayloadReader := fun row hrow => contentOf_row hevents hrow
  unfold ScientificDisposition.reviewStateOf DisputeReadable
  rw [reviewState_contested_iff, hfacets, ← claimAt_isSome reader hversions]
  constructor
  · rintro ⟨facet, hmem, hdisputes⟩
    obtain ⟨hmem, hversion⟩ := List.mem_filter.mp hmem
    obtain ⟨⟨row, reading⟩, hreading, hfacet⟩ := List.mem_filterMap.mp hmem
    obtain ⟨stale, rfl⟩ := (Snapshot.mk reader rows).reading_of_mem hreading
    have hrow : row ∈ rows := ((Snapshot.mk reader rows).mem_readRows _).mpr ⟨_, hreading⟩
    obtain ⟨htype, htarget, hwithdrawn, hrefutes, hclaim⟩ :=
      ((Snapshot.mk reader rows).readRow_disputes _ _ version).mp
        ⟨facet, hfacet, beq_iff_eq.mp hversion, hdisputes⟩
    rw [hcontent row hrow] at hrefutes
    exact ⟨⟨row, hrow, htype, htarget, hwithdrawn, hrefutes⟩, hclaim⟩
  · rintro ⟨⟨row, hrow, htype, htarget, hwithdrawn, hrefutes⟩, hclaim⟩
    rw [← hcontent row hrow] at hrefutes
    obtain ⟨reading, hreading⟩ := ((Snapshot.mk reader rows).mem_readRows
      (Snapshot.mk reader rows).loadsStale).mp hrow
    obtain ⟨stale, rfl⟩ := (Snapshot.mk reader rows).reading_of_mem hreading
    obtain ⟨facet, hfacet, hversion, hdisputes⟩ :=
      ((Snapshot.mk reader rows).readRow_disputes stale _ _).mpr
        ⟨htype, htarget, hwithdrawn, hrefutes, hclaim⟩
    refine ⟨facet, List.mem_filter.mpr ⟨?_, beq_iff_eq.mpr hversion⟩, hdisputes⟩
    exact List.mem_filterMap.mpr ⟨_, hreading, hfacet⟩

theorem fold_ok_iff {f : ScientificDisposition} (hf : foldScientificRows reader rows = .ok f) :
    computeCurrentClaimDisposition (Snapshot.mk reader rows).timeline = .ok f.fold := by
  unfold foldScientificRows at hf
  obtain ⟨folded, hfolded, rfl⟩ := ExceptRun.map_ok.mp hf
  exact hfolded

end Fold

/-! ## Withholding -/

/-- A contested version stays contested exactly while a refuting review of it
and its publication can still be read. -/
theorem contested_withheld_iff (reader : ScientificReader) {rows rows' : List ScientificRow}
    (hrecorded : Recorded reader.toPayloadReader rows) (h : List.Forall₂ Withheld rows rows')
    {f : ScientificDisposition} (hf : foldScientificRows reader rows = .ok f) {version : Int}
    (hcontested : f.reviewStateOf version = .contested) :
    DisputeReadable reader.toPayloadReader rows version
      ∧ ∃ g, foldScientificRows reader rows' = .ok g
        ∧ g.fold.currentVersion = f.fold.currentVersion
        ∧ (g.reviewStateOf version = .contested
          ↔ DisputeReadable reader.toPayloadReader rows' version) := by
  refine ⟨(contested_iff hrecorded.events hrecorded.versions hf).mp hcontested, ?_⟩
  obtain ⟨s, t, hfolded, hfolded', hbelow⟩ := withheld_below hrecorded h (fold_ok_iff hf)
  obtain ⟨g, hg, -⟩ := fold_of_disposition hfolded'
  have hresult : g.fold = t.result := Except.ok.inj ((fold_ok_iff hg).symm.trans hfolded')
  have hevents' : rows'.Pairwise (·.eventId ≠ ·.eventId) :=
    Withheld.pairwise h hrecorded.events fun _ _ _ _ h₁ h₂ hne => by rwa [h₁.eventId, h₂.eventId]
  refine ⟨g, hg, ?_, contested_iff hevents' (hrecorded.versions.withheld h hrecorded.events) hg⟩
  rw [hresult, hfolded]
  exact hbelow.version

/-- With nothing withheld the claim stays contested. -/
theorem contested_withheld_none : ∃ f g,
    foldScientificRows refutedReader [refutedClaimRow, refutingReviewRow] = .ok f
      ∧ f.reviewStateOf 1 = .contested
      ∧ foldScientificRows refutedReader [refutedClaimRow, refutingReviewRow] = .ok g
      ∧ g.reviewStateOf 1 = .contested := by
  have hfull : (foldScientificRows refutedReader [refutedClaimRow, refutingReviewRow]).map
      (·.reviewStateOf 1) = .ok .contested := by decide +kernel
  obtain ⟨f, hf, hstate⟩ := ExceptRun.map_ok.mp hfull
  have hcontested : f.reviewStateOf 1 = .contested := hstate
  obtain ⟨hreadable, g, hg, -, hiff⟩ := contested_withheld_iff refutedReader refuted_recorded
    (.cons (.inl rfl) (.cons (.inl rfl) .nil)) hf hcontested
  exact ⟨f, g, hf, hcontested, hg, hiff.mpr hreadable⟩

/-- A weighted refutation of the current version is recorded, and the claim
is contested; with the payload of that review withheld it is unreviewed. -/
theorem withheld_refutation_uncontests :
    refutingReviewRow.type = .reviewCreated ∧ refutingReviewRow.weightedRefutation = true
      ∧ refutingReviewRow.targetVersion = 1
      ∧ (foldScientificRows refutedReader [refutedClaimRow, refutingReviewRow]).map
          (fun f => (f.fold.currentVersion, f.reviewStateOf 1)) = .ok (some 1, .contested)
      ∧ (foldScientificRows refutedReader
            [refutedClaimRow, { refutingReviewRow with payloadJson := none }]).map
          (fun f => (f.fold.currentVersion, f.reviewStateOf 1)) = .ok (some 1, .unreviewed) :=
  ⟨rfl, rfl, rfl, by decide +kernel, by decide +kernel⟩

end Asimposium
