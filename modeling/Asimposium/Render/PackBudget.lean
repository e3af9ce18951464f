import Asimposium.Render.PackAssertions
import Asimposium.Render.PackEstimate

/-!
# The budget of a composed pack

Every loop of the composer settles, and what `finalize` lets through was
rendered under the estimate it publishes.
-/

namespace Asimposium

open Text Json ExceptRun Settle

/-! ## Settling -/

def Settles {α : Type} (x : Except PackFailure α) : Prop := x ≠ .error .unsettled

section Settles

variable {α β : Type}

theorem settles_ok (a : α) : Settles (.ok a) := fun h => nomatch h

theorem settles_of_refuses {x : Except PackFailure α} (h : Refuses x) : Settles x := by
  intro hunsettled
  obtain ⟨_, herror⟩ := h _ hunsettled
  cases herror

theorem settles_bind {x : Except PackFailure α} {f : α → Except PackFailure β} (hx : Settles x)
    (hf : ∀ a, x = .ok a → Settles (f a)) : Settles (x >>= f) := by
  intro h
  rcases bind_error.mp h with h | ⟨a, ha, h⟩
  · exact hx h
  · exact hf a ha h

theorem settles_map {x : Except PackFailure α} {f : α → β} (hx : Settles x) : Settles (x.map f) :=
  fun h => hx (map_error.mp h)

end Settles

section Loops

variable (renderer : Renderer) (draft : Draft)

theorem settles_renderedBytes (projection : Projection) :
    Settles (renderedBytes renderer projection) := renderedBytes_ne_unsettled

theorem settles_ensureAnchor (phase : OmissionPhase) (omitted : List OmittedEntry) (tokenSum : Nat)
    (selection : Selection) :
    Settles (ensureAnchor renderer draft phase omitted tokenSum selection) := by
  unfold ensureAnchor
  dsimp only
  split
  · exact settles_map (settles_renderedBytes renderer _)
  · split
    · exact settles_ok _
    · exact settles_map (settles_renderedBytes renderer _)

theorem settles_envelopeFloorTokens (phase : OmissionPhase) (omitted : List OmittedEntry)
    (selection : Selection) :
    Settles (envelopeFloorTokens renderer draft phase omitted selection) := by
  unfold envelopeFloorTokens
  split
  · exact settles_ok _
  · exact settles_bind (estimatePackTokens_ne_unsettled renderer _) fun _ _ => settles_ok _

theorem accountedBytes_mono (anchor : Anchor) (selection : Selection) :
    Monotone fun estimate => (accountedBytes anchor selection estimate).toNat := by
  intro m n h
  have hwidth := width_mono h
  refine Int.toNat_le_toNat ?_
  simp only [accountedBytes]
  omega

theorem settles_quickEstimate (legacy : Bool) (phase : OmissionPhase)
    (omitted : List OmittedEntry) (tokenSum : Nat) (selection : Selection) :
    Settles (quickEstimate renderer draft legacy phase omitted tokenSum selection) := by
  cases legacy with
  | true => exact settles_map (estimatePackTokens_ne_unsettled renderer _)
  | false =>
      refine settles_bind (settles_envelopeFloorTokens renderer draft phase omitted selection) ?_
      rintro ⟨measured, selection⟩ -
      dsimp only
      split
      · exact settles_ok _
      rename_i hfloor
      refine settles_bind (settles_ensureAnchor renderer draft phase omitted tokenSum selection) ?_
      intro anchor _
      refine settles_bind ?_ fun _ _ => settles_ok _
      refine settle_not_exhausted_of_mono (f := fun estimate =>
          max (addNumber tokenSum measured)
            (ceilQuarter (accountedBytes anchor selection estimate).toNat))
        (fun m n h => max_le_max le_rfl (ceilQuarter_mono (accountedBytes_mono anchor selection h)))
        (fun _ _ h => (Except.ok.inj h).symm) (fun _ h => nomatch h) (Nat.not_lt.mp hfloor) ?_
        (Nat.lt_add_of_pos_right (by decide))
      intro value _ hover
      exact Nat.not_lt.mp (of_decide_eq_false hover)

theorem settles_composeItem (candidate : PackCandidate) :
    Settles (composeItem renderer.toSanitizer candidate) := by
  obtain ⟨tokens, htokens, _⟩ :=
    wholeItemTokenUpperBound_ok renderer.toSanitizer candidate candidate.tokens.toNat
  refine settles_bind ?_ fun _ _ => settles_ok _
  rw [htokens]
  exact settles_ok _

theorem settles_selectItems (legacy : Bool) (candidates : List PackCandidate)
    (selection : Selection) :
    Settles (selectItems renderer draft legacy candidates selection) := by
  induction candidates generalizing selection with
  | nil => exact settles_ok _
  | cons candidate rest ih =>
      refine settles_bind (settles_composeItem renderer candidate) ?_
      rintro ⟨item, delta⟩ -
      refine settles_bind (settles_quickEstimate renderer draft legacy _ _ _ _) ?_
      rintro ⟨estimate, pushed⟩ -
      dsimp only
      split
      · exact ih pushed
      · exact settles_ok _

theorem settles_dropTail (legacy : Bool) (left : Nat) (selection : Selection) :
    Settles (dropTail renderer draft legacy left selection) := by
  induction left generalizing selection with
  | zero => exact settles_ok _
  | succ left ih =>
      refine settles_bind (settles_quickEstimate renderer draft legacy _ _ _ _) ?_
      rintro ⟨estimate, selection⟩ -
      dsimp only
      split
      · exact settles_ok _
      · exact ih _

theorem settles_finalize (pack : PackContents) : Settles (finalize renderer pack) :=
  settles_bind (estimatePackTokens_ne_unsettled renderer pack) fun _ _ =>
    settles_bind (settles_of_refuses (refuses_assertThat _ _ _)) fun _ _ => settles_ok _

theorem settles_composeDraft (legacy : Bool) : Settles (composeDraft renderer draft legacy) :=
  settles_bind (settles_selectItems renderer draft legacy _ _) fun _ _ =>
    settles_bind (settles_dropTail renderer draft legacy _ _) fun _ _ => settles_finalize renderer _

theorem settles_composePackWithSelectionEstimator (input : PackComposerInput) (legacy : Bool) :
    Settles (composePackWithSelectionEstimator renderer input legacy) := by
  refine settles_bind (settles_of_refuses (refuses_assertViewer _)) fun viewer _ => ?_
  refine settles_bind (settles_of_refuses (refuses_commonContents _ _)) fun common _ => ?_
  split
  · exact settles_finalize renderer _
  · exact settles_bind (settles_of_refuses (refuses_draftPack _ _ _)) fun draft _ =>
      settles_composeDraft renderer draft legacy

end Loops

/-! ## What is let through -/

/-- The face of a pack costs its bytes over four, rounded up. -/
def chargedTokens (prepared : PreparedProjection) : Nat :=
  ceilQuarter (byteLength (renderJsonFace prepared))

theorem finalize_honest {renderer : Renderer} {contents : PackContents} {pack : ComposedPack}
    (h : finalize renderer contents = .ok pack) :
    pack.toPackContents = contents ∧ pack.tokensEstimate ≤ contents.budgetTokens
      ∧ ∃ prepared, prepareProjection renderer (composedPackToProjection pack) = .ok prepared
        ∧ chargedTokens prepared ≤ pack.tokensEstimate := by
  rw [finalize, bind_ok] at h
  obtain ⟨estimate, hestimate, h⟩ := h
  rw [bind_unit_ok, assertThat_ok, decide_eq_true_eq] at h
  obtain ⟨hle, h⟩ := h
  cases h
  obtain ⟨_, _, hrendered⟩ := estimatePackTokens_ok hestimate
  exact ⟨rfl, hle, renderedFaceTokenEstimate_rendered hrendered hle⟩

theorem itemTokens_le {renderer : Renderer} {pack : ComposedPack} {prepared : PreparedProjection}
    (h : prepareProjection renderer (composedPackToProjection pack) = .ok prepared) :
    itemTokens pack.items ≤ pack.tokensEstimate := by
  obtain ⟨projection, items, total, hsnapshot, _, hitems, htotal, _⟩ := prepareProjection_ok.mp h
  obtain ⟨_, provenance, _, rfl⟩ := snapshotProjection_ok.mp hsnapshot
  obtain ⟨_, rfl, _⟩ := prepareItems_inv hitems
  have hle : (!true || decide ((0 : Int) + tokenTotal (pack.items.map (·.toProjectionItem))
      ≤ pack.tokensEstimate)) = true := assertThat_ok.mp htotal
  rw [tokenTotal_pack, Bool.not_true, Bool.false_or, decide_eq_true_eq] at hle
  omega

theorem commonContents_budget {viewer : PackViewer} {input : PackComposerInput}
    {common : PackContents} (h : commonContents viewer input = .ok common) :
    bucketizePackBudget input.requestedMaxTokens = .ok common.budgetTokens := by
  rw [commonContents, bind_ok] at h
  obtain ⟨_, _, h⟩ := h
  rw [bind_ok] at h
  obtain ⟨budget, hbudget, h⟩ := h
  simp only [bind_ok] at h
  obtain ⟨_, _, _, _, _, _, _, _, _, _, _, _, h⟩ := h
  cases h
  exact hbudget

theorem draftPack_budget {renderer : Renderer} {common : PackContents}
    {input : PackComposerInput} {draft : Draft} (h : draftPack renderer common input = .ok draft) :
    draft.contents.budgetTokens = common.budgetTokens := by
  simp only [draftPack, bind_ok] at h
  obtain ⟨_, _, _, _, _, _, h⟩ := h
  cases h
  rfl

theorem composed_finalized {renderer : Renderer} {input : PackComposerInput} {legacy : Bool}
    {pack : ComposedPack}
    (h : composePackWithSelectionEstimator renderer input legacy = .ok pack) :
    ∃ contents, finalize renderer contents = .ok pack
      ∧ bucketizePackBudget input.requestedMaxTokens = .ok contents.budgetTokens := by
  rw [composePackWithSelectionEstimator, bind_ok] at h
  obtain ⟨viewer, _, h⟩ := h
  rw [bind_ok] at h
  obtain ⟨common, hcommon, h⟩ := h
  have hbudget := commonContents_budget hcommon
  split at h
  · exact ⟨_, h, hbudget⟩
  · rw [bind_ok] at h
    obtain ⟨draft, hdraft, h⟩ := h
    simp only [composeDraft, bind_ok] at h
    obtain ⟨_, _, _, _, h⟩ := h
    refine ⟨_, h, ?_⟩
    rw [hbudget, ← draftPack_budget hdraft]
    rfl

/-- The published estimate is honest: it covers the rendered face and the
items, and stays in the bucket. Every loop on the way settles. -/
theorem composePack_budget_honest (renderer : Renderer) (input : PackComposerInput) :
    composePack renderer input ≠ .error .unsettled
      ∧ ∀ pack, composePack renderer input = .ok pack →
        (∃ prepared, prepareProjection renderer (composedPackToProjection pack) = .ok prepared
          ∧ chargedTokens prepared ≤ pack.tokensEstimate)
        ∧ pack.tokensEstimate ≤ pack.budgetTokens
        ∧ bucketizePackBudget input.requestedMaxTokens = .ok pack.budgetTokens
        ∧ (pack.items.map (·.tokens)).sum ≤ pack.tokensEstimate := by
  refine ⟨settles_composePackWithSelectionEstimator renderer input false, fun pack hpack => ?_⟩
  obtain ⟨contents, hfinal, hbudget⟩ := composed_finalized hpack
  obtain ⟨hcontents, hle, prepared, hprepared, hcharged⟩ := finalize_honest hfinal
  have hbudgetTokens : pack.budgetTokens = contents.budgetTokens := by rw [← hcontents]
  rw [hbudgetTokens]
  exact ⟨⟨prepared, hprepared, hcharged⟩, hle, hbudget, itemTokens_le hprepared⟩

/-- A runtime on which every text is its own normal form, as every ASCII
text is. -/
def asciiRenderer : Renderer where
  nfkc := id
  nfkd := id
  toLowerCase := List.map foldAscii
  isMarkOrFormat := fun _ => false
  countActiveHtml := fun _ => 0
  isOffsetDateTime := fun _ => true

def sampleCandidate (id : String) (tokens : Int) : PackCandidate where
  kind := text "claim"
  id := text id
  scope := .ledger
  tokens := tokens
  untrusted := true
  body := text "x"
  whyIncluded := text "w"
  screeningNotice := none
  stablePrefix := 0
  requires := none
  composedSection := none

def sampleInput (requestedMaxTokens : Int) (candidates : List PackCandidate) :
    PackComposerInput where
  schema := text "s"
  session := text "s"
  provenance := none
  problem := text "p"
  profile := text "w"
  cursor := 0
  requestedMaxTokens := requestedMaxTokens
  viewer := { audience := .public, membership := .none, effectivePermissions := [] }
  candidates := candidates
  actionCandidates := []
  omitted := none
  degraded := none
  promotionBudget := none

theorem sampleInput_composes : ∃ pack,
    composePack asciiRenderer (sampleInput 800 [sampleCandidate "C-1" 5]) = .ok pack
      ∧ pack.items ≠ [] := by
  have hitems : (composePack asciiRenderer
      (sampleInput 800 [sampleCandidate "C-1" 5])).toOption.any (·.items ≠ []) = true := by
    decide +kernel
  cases hpack : composePack asciiRenderer (sampleInput 800 [sampleCandidate "C-1" 5]) with
  | error failure => rw [hpack] at hitems; cases hitems
  | ok pack =>
      rw [hpack] at hitems
      exact ⟨pack, rfl, of_decide_eq_true hitems⟩

theorem composePack_budget_honest_sample : ∃ pack,
    composePack asciiRenderer (sampleInput 800 [sampleCandidate "C-1" 5]) = .ok pack
      ∧ pack.items ≠ [] ∧ pack.tokensEstimate ≤ pack.budgetTokens := by
  obtain ⟨pack, hpack, hitems⟩ := sampleInput_composes
  have honest := (composePack_budget_honest asciiRenderer
    (sampleInput 800 [sampleCandidate "C-1" 5])).2 pack hpack
  exact ⟨pack, hpack, hitems, honest.2.1⟩

end Asimposium
