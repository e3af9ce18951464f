import Mathlib.Data.Finset.Card
import Asimposium.Ledger.Dispositions

/-!
# What the unmet lists ask for

`corroborationUnmet` and `strongSupportUnmet` scan rows for replays and
conflicts before they count. On rows with distinct review ids the scan
is the identity, and a replayed last row is absorbed
(`distinctSupportingReviews_replay`), so an empty unmet list is a plain
condition on the set of supporting reviews (`corroborationUnmet_eq_nil`,
`strongSupportUnmet_eq_nil`). Both conditions are monotone in the
reviews, the attempts and the certificate, and blind to the order of
the rows.
-/

namespace Asimposium

structure Supporting (reviews : List VerifiedReview) : Prop where
  support : ∀ review ∈ reviews, review.finding = .support
  distinct : (reviews.map (·.reviewId)).Nodup

/-! ## The scan on distinct rows -/

theorem foldl_scanReview {seen reviews : List VerifiedReview}
    (h : ((seen ++ reviews).map (·.reviewId)).Nodup) :
    reviews.foldl scanReview (seen, []) = (seen ++ reviews, []) := by
  induction reviews generalizing seen with
  | nil => simp
  | cons review rest ih =>
      have hnew : seen.find? (·.reviewId == review.reviewId) = none := by
        rw [List.find?_eq_none]
        intro first hfirst heq
        rw [List.map_append, List.nodup_append] at h
        exact h.2.2 _ (List.mem_map_of_mem hfirst) _ (List.mem_map_of_mem List.mem_cons_self)
          (beq_iff_eq.mp heq)
      rw [List.foldl_cons, show scanReview (seen, []) review = (seen ++ [review], []) by
        simp [scanReview, hnew], ih (by simpa using h)]
      simp

theorem find?_reviewId {reviews : List VerifiedReview} {review : VerifiedReview}
    (h : (reviews.map (·.reviewId)).Nodup) (hmem : review ∈ reviews) :
    reviews.find? (·.reviewId == review.reviewId) = some review := by
  induction reviews with
  | nil => cases hmem
  | cons first rest ih =>
      rw [List.map_cons, List.nodup_cons] at h
      rcases List.mem_cons.mp hmem with rfl | hrest
      · simp
      · have hne : first.reviewId ≠ review.reviewId := by
          intro heq
          exact h.1 (heq ▸ List.mem_map_of_mem hrest)
        simp [hne, ih h.2 hrest]

theorem distinctSupportingReviews_eq {reviews : List VerifiedReview} (h : Supporting reviews) :
    distinctSupportingReviews reviews = reviews := by
  unfold distinctSupportingReviews
  rw [foldl_scanReview (by simpa using h.distinct)]
  simpa using h.support

theorem distinctSupportingReviews_replay {reviews : List VerifiedReview}
    {review : VerifiedReview} (h : Supporting reviews) (hmem : review ∈ reviews) :
    distinctSupportingReviews (reviews ++ [review]) = reviews := by
  unfold distinctSupportingReviews
  rw [List.foldl_append, foldl_scanReview (by simpa using h.distinct), List.nil_append]
  have hreplay : scanReview (reviews, []) review = (reviews, []) := by
    simp [scanReview, find?_reviewId h.distinct hmem]
  rw [List.foldl_cons, List.foldl_nil, hreplay]
  simpa using h.support

/-! ## Empty unmet lists -/

theorem foldl_betterTier (reviews : List VerifiedReview) (best : Option IndependenceTier)
    (floor : IndependenceTier) :
    (∃ tier, reviews.foldl betterTier best = some tier ∧ tierAtLeast tier floor = true)
      ↔ (∃ tier, best = some tier ∧ tierAtLeast tier floor = true)
        ∨ ∃ review ∈ reviews, tierAtLeast review.tier floor = true := by
  induction reviews generalizing best with
  | nil => simp
  | cons review rest ih =>
      rw [List.foldl_cons, ih]
      cases best with
      | none => simp [betterTier]
      | some tier =>
          by_cases hlt : tier.rank < review.tier.rank
          · simp only [betterTier, hlt, ↓reduceIte, Option.some.injEq, exists_eq_left',
              List.mem_cons, exists_eq_or_imp, tierAtLeast, decide_eq_true_eq]
            have hlift : floor.rank ≤ tier.rank → floor.rank ≤ review.tier.rank := by omega
            tauto
          · simp only [betterTier, hlt, ↓reduceIte, Option.some.injEq, exists_eq_left',
              List.mem_cons, exists_eq_or_imp, tierAtLeast, decide_eq_true_eq]
            have hlift : floor.rank ≤ review.tier.rank → floor.rank ≤ tier.rank := by omega
            tauto

theorem bestTier_atLeast (reviews : List VerifiedReview) (floor : IndependenceTier) :
    (∃ tier, bestTier reviews = some tier ∧ tierAtLeast tier floor = true)
      ↔ ∃ review ∈ reviews, tierAtLeast review.tier floor = true := by
  unfold bestTier
  rw [foldl_betterTier]
  simp

/-- The people behind the cross-family full-write-up rows. -/
def writeUpReviewers (reviews : List VerifiedReview) : List String :=
  (reviews.filter fun review =>
    review.crossFamily && review.fullWriteUp && tierAtLeast review.tier .T2).map (·.reviewerId)

section Unmet

variable {rows reviews : List VerifiedReview} {context : ClaimTransitionContext}

theorem corroborationUnmet_eq_nil (h : distinctSupportingReviews rows = reviews) :
    corroborationUnmet rows context = [] ↔
      (∃ review ∈ reviews, tierAtLeast review.tier .T1 = true)
        ∧ 1 ≤ context.recordedRefutationAttempts := by
  unfold corroborationUnmet
  rw [h, List.append_eq_nil_iff]
  simp [Nat.one_le_iff_ne_zero]

theorem strongSupportUnmet_eq_nil (h : distinctSupportingReviews rows = reviews) :
    strongSupportUnmet rows context = [] ↔
      (context.hasCertifiedArtifact = true ∨ 2 ≤ (writeUpReviewers reviews).toFinset.card)
        ∧ ∃ review ∈ reviews, tierAtLeast review.tier .T2 = true := by
  unfold strongSupportUnmet crossFamilyFullWriteUpReviewers
  rw [h, List.append_eq_nil_iff, ← bestTier_atLeast, List.card_toFinset]
  refine and_congr ?_ ?_
  · have hcount : (writeUpReviewers reviews).dedup.length < 2 ↔
        ¬ 2 ≤ (writeUpReviewers reviews).dedup.length := Nat.not_le.symm
    unfold writeUpReviewers at hcount ⊢
    by_cases htwo : 2 ≤ ((reviews.filter fun review =>
        review.crossFamily && review.fullWriteUp && tierAtLeast review.tier .T2).map
          (·.reviewerId)).dedup.length <;>
      cases context.hasCertifiedArtifact <;> simp only [hcount, htwo] <;> simp
  · cases bestTier reviews <;> simp

end Unmet

/-! ## Monotonicity -/

theorem writeUpReviewers_subset {reviews reviews' : List VerifiedReview}
    (h : reviews ⊆ reviews') : writeUpReviewers reviews ⊆ writeUpReviewers reviews' :=
  List.map_subset _ (List.filter_subset _ h)

/-- The support of `context` is part of the support of `context'`. -/
structure SupportLe (reviews reviews' : List VerifiedReview)
    (context context' : ClaimTransitionContext) : Prop where
  reviews : reviews ⊆ reviews'
  attempts : 1 ≤ context.recordedRefutationAttempts → 1 ≤ context'.recordedRefutationAttempts
  certified : context.hasCertifiedArtifact = true → context'.hasCertifiedArtifact = true

section Monotone

variable {rows rows' reviews reviews' : List VerifiedReview}
  {context context' : ClaimTransitionContext}

theorem corroborationUnmet_mono (h : distinctSupportingReviews rows = reviews)
    (h' : distinctSupportingReviews rows' = reviews')
    (hle : SupportLe reviews reviews' context context')
    (hempty : corroborationUnmet rows context = []) : corroborationUnmet rows' context' = [] := by
  rw [corroborationUnmet_eq_nil h] at hempty
  rw [corroborationUnmet_eq_nil h']
  obtain ⟨⟨review, hmem, htier⟩, hattempts⟩ := hempty
  exact ⟨⟨review, hle.reviews hmem, htier⟩, hle.attempts hattempts⟩

theorem strongSupportUnmet_mono (h : distinctSupportingReviews rows = reviews)
    (h' : distinctSupportingReviews rows' = reviews')
    (hle : SupportLe reviews reviews' context context')
    (hempty : strongSupportUnmet rows context = []) : strongSupportUnmet rows' context' = [] := by
  rw [strongSupportUnmet_eq_nil h] at hempty
  rw [strongSupportUnmet_eq_nil h']
  obtain ⟨hartifact, review, hmem, htier⟩ := hempty
  refine ⟨hartifact.imp hle.certified fun htwo => htwo.trans (Finset.card_le_card ?_),
    review, hle.reviews hmem, htier⟩
  intro reviewer hreviewer
  rw [List.mem_toFinset] at hreviewer ⊢
  exact writeUpReviewers_subset hle.reviews hreviewer

end Monotone

/-! ## The disposition a live claim has earned -/

/-- The fixed point of the two support gates over the rows. -/
def settle (rows : List VerifiedReview) (context : ClaimTransitionContext) : ClaimDisposition :=
  if corroborationUnmet rows context = [] then
    if strongSupportUnmet rows context = [] then .stronglySupported else .corroborated
  else .open

theorem settle_congr {rows rows' reviews reviews' : List VerifiedReview}
    {context context' : ClaimTransitionContext}
    (h : distinctSupportingReviews rows = reviews)
    (h' : distinctSupportingReviews rows' = reviews')
    (hle : SupportLe reviews reviews' context context')
    (hge : SupportLe reviews' reviews context' context) :
    settle rows context = settle rows' context' := by
  unfold settle
  have hcorroborated : corroborationUnmet rows context = [] ↔
      corroborationUnmet rows' context' = [] :=
    ⟨corroborationUnmet_mono h h' hle, corroborationUnmet_mono h' h hge⟩
  have hstrong : strongSupportUnmet rows context = [] ↔
      strongSupportUnmet rows' context' = [] :=
    ⟨strongSupportUnmet_mono h h' hle, strongSupportUnmet_mono h' h hge⟩
  simp only [hcorroborated, hstrong]

end Asimposium
