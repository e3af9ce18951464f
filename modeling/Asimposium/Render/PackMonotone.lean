import Mathlib
import Asimposium.Render.PackAgreement

/-!
# Packs under larger budgets

A larger bucket takes at most one digit more in the face. One more token
pays for the digits it may add, so what fits a bucket fits every larger one
(`Draft.PrefixFits.raise`). The composition under the larger bucket reaches
at least as far, and unless its running sum drifts it keeps at least what
the smaller one kept.
-/

namespace Asimposium

open Text Json ExceptRun

/-! ## Larger buckets -/

def Draft.withBudget (draft : Draft) (budgetTokens : Nat) : Draft :=
  { draft with contents := { draft.contents with budgetTokens } }

/-- A bucket and a larger one, with the digits it may add. -/
structure Raises (budget budget' : Nat) : Prop where
  lt : budget < budget'
  width : width budget' ≤ width budget + 1
  safe : budget' ≤ maxSafeInteger

theorem raises_of_mem {budget budget' : Nat} (h : budget ∈ packBudgetBuckets)
    (h' : budget' ∈ packBudgetBuckets) (hlt : budget < budget') : Raises budget budget' := by
  have hall : ∀ b ∈ packBudgetBuckets, ∀ b' ∈ packBudgetBuckets,
      width b' ≤ width b + 1 ∧ b' ≤ maxSafeInteger := by decide
  exact ⟨hlt, (hall budget h budget' h').1, (hall budget h budget' h').2⟩

section Raise

variable {renderer : Renderer} {draft : Draft} {budget' : Nat}

theorem fixedSize_withBudget (pack : PackContents) (budget' : Nat) :
    fixedSize { pack with budgetTokens := budget' } + width pack.budgetTokens
      = fixedSize pack + width budget' := by
  have hbudget : ∀ budget : Nat, membersSize 2 2 (member "budget_tokens" (.num budget))
      = 4 + keySize 2 (text "budget_tokens") + width budget := by
    intro budget
    change 4 + keySize 2 (text "budget_tokens") + size 2 4 (.num budget) = _
    rw [size, ofInt_natCast]
    rfl
  simp only [fixedSize, fixedMembers, membersSize_append, hbudget]
  omega

theorem prefixSize_withBudget (omitted : List OmittedEntry) (count : Nat) :
    (draft.withBudget budget').prefixSize renderer.toSanitizer omitted count
        + width draft.contents.budgetTokens
      = draft.prefixSize renderer.toSanitizer omitted count + width budget' := by
  have hfixed : fixedSize (draft.withBudget budget').contents + width draft.contents.budgetTokens
      = fixedSize draft.contents + width budget' := fixedSize_withBudget draft.contents budget'
  have hface : ∀ draft : Draft, draft.prefixSize renderer.toSanitizer omitted count
      = fixedSize draft.contents + arraySize ((prefixItems renderer.toSanitizer draft count).map
        (itemSize renderer.toSanitizer)) + arraySize (omitted.map omissionSize) := fun _ => rfl
  have hitems : prefixItems renderer.toSanitizer (draft.withBudget budget') count
      = prefixItems renderer.toSanitizer draft count := rfl
  rw [hface, hface, hitems]
  omega

theorem Covers.raise {size size' estimate : Nat} (h : Covers size estimate)
    (hsize : size' ≤ size + 1) : Covers size' (estimate + 1) := by
  have hwidth := width_succ_le estimate
  unfold Covers at h ⊢
  omega

theorem envelopeTokens_raise (hdraft : DraftAccepted renderer draft)
    (hdraft' : DraftAccepted renderer (draft.withBudget budget'))
    (hraises : Raises draft.contents.budgetTokens budget') {omitted : List OmittedEntry}
    (homitted : OmittedAccepted renderer.toUnicode omitted)
    (hinside : draft.envelopeTokens renderer omitted ≤ draft.contents.budgetTokens) :
    (draft.withBudget budget').envelopeTokens renderer omitted
      ≤ draft.envelopeTokens renderer omitted + 1 := by
  have henvelope := renderedFaceTokenEstimate_ok (hdraft.envelope_ok homitted)
  have henvelope' := renderedFaceTokenEstimate_ok (hdraft'.envelope_ok homitted)
  have hsize := @prefixSize_withBudget renderer draft budget' (markedOmitted omitted) 0
  have hwidth := hraises.width
  have habove := henvelope.above
  refine henvelope'.least _ (by omega) ((henvelope.covers hinside).raise ?_)
  change (draft.withBudget budget').prefixSize renderer.toSanitizer (markedOmitted omitted) 0
    ≤ draft.prefixSize renderer.toSanitizer (markedOmitted omitted) 0 + 1
  omega

theorem Draft.PrefixFits.raise (hdraft : DraftAccepted renderer draft)
    (hdraft' : DraftAccepted renderer (draft.withBudget budget'))
    (hraises : Raises draft.contents.budgetTokens budget') {omitted : List OmittedEntry}
    (homitted : OmittedAccepted renderer.toUnicode omitted) {count tokenSum : Nat}
    (h : draft.PrefixFits renderer omitted count tokenSum) :
    (draft.withBudget budget').PrefixFits renderer omitted count tokenSum := by
  obtain ⟨hexact, hinside⟩ := PrefixFits.sum_le hdraft h
  obtain ⟨estimate, habove, hle, hcovers⟩ := h
  have henvelope := envelopeTokens_raise hdraft hdraft' hraises homitted (by omega)
  have hsize := @prefixSize_withBudget renderer draft budget' omitted count
  have hwidth := hraises.width
  have hlt := hraises.lt
  have hsafe := hraises.safe
  unfold maxSafeInteger at hsafe
  have hsum : addNumber tokenSum ((draft.withBudget budget').envelopeTokens renderer omitted)
      = tokenSum + (draft.withBudget budget').envelopeTokens renderer omitted :=
    addNumber_of_lt (by omega)
  refine ⟨estimate + 1, by omega, ?_, hcovers.raise (by omega)⟩
  change estimate + 1 ≤ budget'
  omega

end Raise

/-! ## Larger compositions -/

/-- The pack of a prefix is finalized when the prefix fits. -/
def Draft.FinalFits (renderer : Renderer) (draft : Draft) (kept : Nat) : Prop :=
  draft.PrefixFits renderer (draft.finalOmitted renderer.toSanitizer kept) kept
    (runTokens (prefixItems renderer.toSanitizer draft kept))

section Compositions

variable {renderer : Renderer} {draft : Draft} {budget' : Nat}

theorem finalize_contents_ok_iff (hdraft : DraftAccepted renderer draft)
    {omitted : List OmittedEntry} (homitted : OmittedAccepted renderer.toUnicode omitted)
    (count : Nat) (hne : prefixItems renderer.toSanitizer draft count ≠ [] ∨ omitted ≠ []) :
    (∃ pack, finalize renderer
        (draft.contentsWith (prefixItems renderer.toSanitizer draft count) omitted) = .ok pack)
      ↔ draft.PrefixFits renderer omitted count
        (runTokens (prefixItems renderer.toSanitizer draft count)) := by
  obtain ⟨estimate, hestimate, hestimates⟩ := hdraft.estimate homitted count hne
  have hiff : estimate ≤ draft.contents.budgetTokens ↔ draft.PrefixFits renderer omitted count
      (runTokens (prefixItems renderer.toSanitizer draft count)) := hestimates.le_iff
  rw [← hiff]
  rcases finalize_estimate hestimate with ⟨hle, pack, hpack, _⟩ | ⟨hover, herror⟩
  · exact iff_of_true ⟨pack, hpack⟩ hle
  · refine iff_of_false ?_ (Nat.not_le.mpr hover)
    rintro ⟨pack, hpack⟩
    rw [herror] at hpack
    cases hpack

theorem finalize_ok_iff (hdraft : DraftAccepted renderer draft) (kept : Nat) :
    (∃ pack, finalize renderer (draft.finalContents renderer.toSanitizer kept) = .ok pack)
      ↔ draft.FinalFits renderer kept :=
  finalize_contents_ok_iff hdraft (hdraft.finalOmitted kept).1 kept (hdraft.finalOmitted kept).2

theorem finalize_items {kept : Nat} {pack : ComposedPack}
    (h : finalize renderer (draft.finalContents renderer.toSanitizer kept) = .ok pack) :
    pack.items = prefixItems renderer.toSanitizer draft kept := by
  have hcontents := (finalize_honest h).1
  have hitems : pack.toPackContents.items
      = (draft.finalContents renderer.toSanitizer kept).items := by rw [hcontents]
  exact hitems

theorem reaches_raise (hdraft : DraftAccepted renderer draft)
    (hdraft' : DraftAccepted renderer (draft.withBudget budget'))
    (hraises : Raises draft.contents.budgetTokens budget') {reached reached' : Nat}
    (h : draft.Reaches renderer reached)
    (h' : (draft.withBudget budget').Reaches renderer reached') : reached ≤ reached' := by
  by_contra hless
  have hle := h.le
  refine h'.stops (by change reached' < draft.visible.length; omega) ?_
  exact Draft.PrefixFits.raise hdraft hdraft' hraises hdraft.omitted
    (h.fits (reached' + 1) (by omega) (by omega))

theorem finalFits_all (hreaches : draft.Reaches renderer draft.visible.length)
    (hpos : 0 < draft.visible.length) : draft.FinalFits renderer draft.visible.length := by
  have hfits := hreaches.fits _ hpos le_rfl
  have hne := @prefixItems_ne_nil draft renderer.toSanitizer _ hpos le_rfl
  unfold Draft.FinalFits Draft.finalOmitted
  rw [omissions_of_ne_nil hne, Nat.sub_self, if_neg (Nat.lt_irrefl 0), List.append_nil]
  exact hfits

theorem composeDraft_raise (hdraft : DraftAccepted renderer draft)
    (hdraft' : DraftAccepted renderer (draft.withBudget budget'))
    (hraises : Raises draft.contents.budgetTokens budget')
    (hexact : ¬(draft.withBudget budget').Drifts renderer) {pack : ComposedPack}
    (hpack : composeDraft renderer draft false = .ok pack) :
    ∃ pack', composeDraft renderer (draft.withBudget budget') false = .ok pack'
      ∧ pack.items <+: pack'.items := by
  obtain ⟨reached, kept, hreaches, hkeeps, hcompose⟩ := composeDraft_eq hdraft false
  obtain ⟨reached', kept', hreaches', hkeeps', hcompose'⟩ := composeDraft_eq hdraft' false
  rw [hcompose] at hpack
  rw [hcompose', finalize_items hpack]
  have hfits := (finalize_ok_iff hdraft kept).mp ⟨pack, hpack⟩
  have hmore := reaches_raise hdraft hdraft' hraises hreaches hreaches'
  have hkept := hkeeps.le
  have hkept' := hkeeps'.le
  have hlength' : reached' ≤ draft.visible.length := hreaches'.le
  suffices hdone : (draft.withBudget budget').FinalFits renderer kept' ∧ kept ≤ kept' by
    obtain ⟨pack', hpack'⟩ := (finalize_ok_iff hdraft' kept').mpr hdone.1
    refine ⟨pack', hpack', ?_⟩
    rw [finalize_items hpack']
    exact (List.take_prefix_take_left hdone.2).map _
  have hraised : (draft.withBudget budget').FinalFits renderer kept :=
    Draft.PrefixFits.raise hdraft hdraft' hraises (hdraft.finalOmitted kept).1 hfits
  rcases Nat.lt_or_ge reached' draft.visible.length with hshort | hall
  · -- both are under the omissions of a tail
    have htail : ∀ count, count ≤ reached' →
        ((draft.withBudget budget').TailFits renderer true reached' count
          ↔ (draft.withBudget budget').FinalFits renderer count) := by
      intro count hcount
      have homitted := @finalOmitted_tail renderer (draft.withBudget budget') _ _ hcount hshort
      unfold Draft.TailFits Draft.FinalFits
      rw [homitted, if_pos rfl]
    have hsums : ∀ count, 1 ≤ count → count ≤ reached' →
        ((draft.withBudget budget').TailFits renderer false reached' count
          ↔ (draft.withBudget budget').TailFits renderer true reached' count) := by
      intro count hpos hle
      by_contra hdiffer
      exact hexact ⟨reached', count, hreaches', hpos, hle, hdiffer⟩
    have hless : kept ≤ kept' := by
      rcases Nat.eq_zero_or_pos kept with hzero | hpos
      · omega
      · refine (hkeeps'.fits_iff hdraft' hpos (by omega)).mp ?_
        exact (hsums kept hpos (by omega)).mpr ((htail kept (by omega)).mpr hraised)
    refine ⟨?_, hless⟩
    rcases Nat.eq_zero_or_pos kept' with hzero | hpos
    · obtain rfl : kept = kept' := by omega
      exact hraised
    · exact (htail kept' hkept').mp ((hsums kept' hpos hkept').mp (hkeeps'.fits hpos))
  · -- nothing is rejected under the larger bucket
    obtain rfl : reached' = draft.visible.length := by omega
    rcases Nat.eq_zero_or_pos draft.visible.length with hzero | hpos
    · obtain rfl : kept = kept' := by omega
      exact ⟨hraised, le_rfl⟩
    · have hlast : draft.visible.length ≤ kept' :=
        (hkeeps'.fits_iff hdraft' hpos le_rfl).mp (hreaches'.tailFits_all hpos false)
      obtain rfl : kept' = draft.visible.length := by omega
      exact ⟨finalFits_all hreaches' hpos, by omega⟩

theorem finalize_raise {contents : PackContents} (hchecked : ContentsChecked contents)
    (hempty : emptyPack contents = contents) (hnonempty : contents.omitted ≠ [])
    (hbudget' : budget' ∈ packBudgetBuckets) (hlt : contents.budgetTokens < budget')
    {pack : ComposedPack} (hpack : finalize renderer contents = .ok pack) :
    ∃ pack', finalize renderer { contents with budgetTokens := budget' } = .ok pack' := by
  have hclean : CleanContents renderer contents := by
    by_contra hunclean
    rw [← hempty] at hunclean
    obtain ⟨_, _, herror⟩ := finalize_unclean (budget_pos hchecked.budget).1 hunclean
    rw [hpack] at herror
    cases herror
  have hitems : contents.items = [] := by rw [← hempty, emptyPack]
  have hdraft : DraftAccepted renderer { contents, visible := [] } :=
    DraftChecked.accepted ⟨hchecked, fun _ h => absurd h List.not_mem_nil, List.nodup_nil⟩ hclean
  have hdraft' : DraftAccepted renderer (Draft.withBudget { contents, visible := [] } budget') :=
    DraftChecked.accepted ⟨{ hchecked with budget := hbudget' },
      fun _ h => absurd h List.not_mem_nil, List.nodup_nil⟩ { hclean with }
  have hwith : Draft.contentsWith { contents, visible := [] } [] contents.omitted = contents := by
    rw [Draft.contentsWith, ← hitems]
  have hfits := (finalize_contents_ok_iff hdraft hdraft.omitted 0 (.inr hnonempty)).mp
    ⟨pack, by rw [prefixItems_zero]; exact (congrArg _ hwith).trans hpack⟩
  obtain ⟨pack', hpack'⟩ := (finalize_contents_ok_iff hdraft' hdraft.omitted 0
    (.inr hnonempty)).mpr (Draft.PrefixFits.raise hdraft hdraft'
      (raises_of_mem hchecked.budget hbudget' hlt) hdraft.omitted hfits)
  refine ⟨pack', ?_⟩
  rw [← hpack']
  congr 1
  change { contents with budgetTokens := budget' }
    = { contents with budgetTokens := budget', items := [] }
  rw [← hitems]

end Compositions

/-! ## Inputs under two requests -/

def PackComposerInput.requesting (input : PackComposerInput) (requestedMaxTokens : Int) :
    PackComposerInput := { input with requestedMaxTokens }

section Requests

variable {renderer : Renderer} {input : PackComposerInput} {low high : Int}

theorem bucketizePackBudget_iff {requested : Int} {bucket : Nat} :
    bucketizePackBudget requested = .ok bucket ↔ 1 ≤ requested
      ∧ packBudgetBuckets.find? (fun (bucket : Nat) => requested ≤ bucket) = some bucket := by
  rw [bucketizePackBudget, bind_unit_ok, assertThat_ok, Bool.and_eq_true, decide_eq_true_eq,
    isSafeInteger, decide_eq_true_eq]
  cases hfound : packBudgetBuckets.find? fun (bucket : Nat) => decide (requested ≤ bucket) with
  | none => simp
  | some found =>
      have hmem := List.mem_of_find?_eq_some hfound
      have hfits := List.find?_some hfound
      have hle := of_decide_eq_true hfits
      have hsafe := (budget_pos hmem).2
      dsimp only
      constructor
      · rintro ⟨⟨_, hpos⟩, hok⟩
        exact ⟨hpos, congrArg _ (Except.ok.inj hok)⟩
      · rintro ⟨hpos, hsome⟩
        exact ⟨⟨by omega, hpos⟩, congrArg _ (Option.some.inj hsome)⟩

theorem bucketizePackBudget_mono (hle : low ≤ high) (hlargest : high ≤ 8000) {bucket : Nat}
    (h : bucketizePackBudget low = .ok bucket) :
    ∃ bucket', bucketizePackBudget high = .ok bucket' ∧ bucket ≤ bucket' := by
  obtain ⟨hpos, hfound⟩ := bucketizePackBudget_iff.mp h
  have hsome : (packBudgetBuckets.find? fun (bucket : Nat) => decide (high ≤ bucket)).isSome := by
    rw [List.find?_isSome]
    exact ⟨8000, by decide, decide_eq_true hlargest⟩
  obtain ⟨bucket', hfound'⟩ := Option.isSome_iff_exists.mp hsome
  refine ⟨bucket', bucketizePackBudget_iff.mpr ⟨by omega, hfound'⟩, ?_⟩
  have hmem := List.mem_of_find?_eq_some hfound'
  have hfits := List.find?_some hfound'
  have henough := of_decide_eq_true hfits
  obtain ⟨_, before, after, hsplit, hbefore⟩ := List.find?_eq_some_iff_append.mp hfound
  have hsorted : packBudgetBuckets.Pairwise (· < ·) := by decide
  rw [hsplit] at hsorted hmem
  rcases List.mem_append.mp hmem with hearlier | hlater
  · have hnot := hbefore bucket' hearlier
    simp at hnot
    omega
  · rcases List.mem_cons.mp hlater with rfl | hlater
    · exact le_rfl
    · exact ((List.pairwise_cons.mp (List.pairwise_append.mp hsorted).2.1).1 bucket' hlater).le

theorem CommonAccepted.requesting {viewer : PackViewer}
    {provenance : Option (Option SessionProvenance)} {bucket bucket' : Nat} {degraded : List Text}
    (h : CommonAccepted viewer (input.requesting low) provenance bucket degraded)
    (hbucket' : bucketizePackBudget high = .ok bucket') :
    CommonAccepted viewer (input.requesting high) provenance bucket' degraded :=
  ⟨h.provenance, hbucket', h.header, h.degraded, h.cursor⟩

theorem Drafted.bucket {draft : Draft} (h : Drafted renderer input draft) :
    bucketizePackBudget input.requestedMaxTokens = .ok draft.contents.budgetTokens := by
  obtain ⟨_, _, _, _, _, _, hcommon, hdraft⟩ := h
  obtain ⟨_, _, _, rfl⟩ := draftPack_ok.mp hdraft
  exact hcommon.budget

theorem Outside.bucket {contents : PackContents} (h : Outside input contents) :
    bucketizePackBudget input.requestedMaxTokens = .ok contents.budgetTokens := by
  obtain ⟨_, _, _, _, _, _, hcommon, rfl⟩ := h
  exact hcommon.budget

theorem Drafted.requesting {draft : Draft} (h : Drafted renderer (input.requesting low) draft)
    {bucket' : Nat} (hbucket' : bucketizePackBudget high = .ok bucket') :
    Drafted renderer (input.requesting high) (draft.withBudget bucket') := by
  obtain ⟨hmember, viewer, provenance, bucket, degraded, hviewer, hcommon, hdraft⟩ := h
  obtain ⟨hcandidates, hactions, hdeclared, rfl⟩ := draftPack_ok.mp hdraft
  refine ⟨hmember, viewer, provenance, bucket', degraded, hviewer, hcommon.requesting hbucket', ?_⟩
  exact draftPack_ok.mpr ⟨hcandidates, hactions, hdeclared, rfl⟩

theorem Outside.requesting {contents : PackContents} (h : Outside (input.requesting low) contents)
    {bucket' : Nat} (hbucket' : bucketizePackBudget high = .ok bucket') :
    Outside (input.requesting high) { contents with budgetTokens := bucket' } := by
  obtain ⟨houtsider, viewer, provenance, bucket, degraded, hviewer, hcommon, rfl⟩ := h
  exact ⟨houtsider, viewer, provenance, bucket', degraded, hviewer, hcommon.requesting hbucket',
    rfl⟩

/-- A pack for a request has its items in every pack for a larger request
of the supported ones, where the running sum does not drift. -/
theorem composePack_budget_monotone (hle : low ≤ high) (hlargest : high ≤ 8000)
    (hexact : ∀ draft, Drafted renderer (input.requesting high) draft → ¬draft.Drifts renderer)
    {pack : ComposedPack} (hpack : composePack renderer (input.requesting low) = .ok pack) :
    ∃ pack', composePack renderer (input.requesting high) = .ok pack'
      ∧ pack.items <+: pack'.items := by
  rcases compose_cases renderer (input.requesting low) with ⟨_, error, hrefused⟩
    | ⟨contents, houtside, _⟩ | ⟨draft, hdrafted, _⟩
  · rw [composePack, hrefused] at hpack
    cases hpack
  · obtain ⟨hchecked, hitems, homitted, hempty⟩ := houtside.checked
    obtain ⟨bucket', hbucket', hge⟩ := bucketizePackBudget_mono hle hlargest houtside.bucket
    have houtside' := houtside.requesting hbucket'
    rw [composePack, houtside.compose] at hpack
    rw [composePack, houtside'.compose]
    have hnone : pack.items = [] := by rw [(finalize_honest hpack).1, hitems]
    rw [hnone]
    rcases Nat.eq_or_lt_of_le hge with heq | hlt
    · exact ⟨pack, by rw [← heq]; exact hpack, List.nil_prefix⟩
    · obtain ⟨pack', hpack'⟩ := finalize_raise hchecked hempty homitted
        (bucketizePackBudget_ok hbucket') hlt hpack
      exact ⟨pack', hpack', List.nil_prefix⟩
  · have hchecked := hdrafted.checked
    obtain ⟨bucket', hbucket', hge⟩ := bucketizePackBudget_mono hle hlargest hdrafted.bucket
    have hdrafted' := hdrafted.requesting hbucket'
    rw [composePack, hdrafted.compose] at hpack
    rw [composePack, hdrafted'.compose]
    have hclean : CleanContents renderer draft.contents := by
      by_contra hunclean
      obtain ⟨_, herror⟩ := composeDraft_unclean hchecked hunclean
      rw [herror] at hpack
      cases hpack
    rcases Nat.eq_or_lt_of_le hge with heq | hlt
    · exact ⟨pack, by rw [← heq]; exact hpack, List.prefix_rfl⟩
    · exact composeDraft_raise (hchecked.accepted hclean)
        (hdrafted'.checked.accepted { hclean with })
        (raises_of_mem hchecked.contents.budget (bucketizePackBudget_ok hbucket') hlt)
        (hexact _ hdrafted') hpack

end Requests

def plainInput : PackComposerInput := sampleInput 800 [sampleCandidate "C-1" 5]

theorem plainInput_composes :
    ∃ pack, composePack asciiRenderer (plainInput.requesting 800) = .ok pack := by
  obtain ⟨pack, hpack, _⟩ := sampleInput_composes
  exact ⟨pack, hpack⟩

theorem plainInput_visible {draft : Draft}
    (h : Drafted asciiRenderer (plainInput.requesting 1500) draft) :
    draft.visible = [sampleCandidate "C-1" 5] := by
  obtain ⟨_, viewer, _, _, _, hviewer, _, hdraft⟩ := h
  obtain ⟨_, _, _, rfl⟩ := draftPack_ok.mp hdraft
  obtain ⟨_, rfl⟩ := assertViewer_ok hviewer
  rfl

theorem plainInput_exact {draft : Draft}
    (h : Drafted asciiRenderer (plainInput.requesting 1500) draft) :
    ¬draft.Drifts asciiRenderer := by
  refine Draft.not_drifts ?_
  rw [prefixItems, plainInput_visible h]
  decide +kernel

theorem composePack_budget_monotone_sample : ∃ pack pack',
    composePack asciiRenderer (plainInput.requesting 800) = .ok pack
      ∧ composePack asciiRenderer (plainInput.requesting 1500) = .ok pack'
      ∧ pack.items <+: pack'.items := by
  obtain ⟨pack, hpack⟩ := plainInput_composes
  obtain ⟨pack', hpack', hitems⟩ := @composePack_budget_monotone asciiRenderer plainInput 800 1500
    (by decide) (by decide) (fun _ h => plainInput_exact h) pack hpack
  exact ⟨pack, pack', hpack, hpack', hitems⟩

/-- A request above the largest bucket is refused, though a smaller one is
served. -/
theorem composePack_above_buckets :
    (∃ pack, composePack asciiRenderer (plainInput.requesting 800) = .ok pack)
      ∧ ¬∃ pack, composePack asciiRenderer (plainInput.requesting 9000) = .ok pack := by
  refine ⟨plainInput_composes, ?_⟩
  rintro ⟨pack, hpack⟩
  have hnone : (composePack asciiRenderer (plainInput.requesting 9000)).toOption.isNone = true := by
    decide +kernel
  rw [hpack] at hnone
  cases hnone

end Asimposium
