import Asimposium.Render.PackRenderable

/-!
# The two estimators

Both estimators reach the same prefix of the visible candidates, and going
down the tail both keep the last prefix that fits. They read different
sums there: the accounting one adds the estimate of the rejected candidate
to its running sum and takes it back, which is exact only below the limit
of the significand. Smaller prefixes fit when larger ones do
(`Draft.TailFits.pred`), so the prefixes kept are the same exactly when
each reached prefix fits beside both sums or beside neither
(`Draft.keeps_eq_iff`).
-/

namespace Asimposium

open Text Json ExceptRun

section Smaller

variable {renderer : Renderer} {draft : Draft}

theorem arraySize_concat (sizes : List Nat) (size : Nat) :
    arraySize sizes ≤ arraySize (sizes ++ [size]) := by
  rw [arraySize_eq, arraySize_eq, List.sum_append, List.length_append, List.sum_singleton,
    List.length_singleton]
  split <;> split <;> omega

theorem prefixSize_succ (sanitizer : Sanitizer) (draft : Draft) (omitted : List OmittedEntry)
    (count : Nat) : draft.prefixSize sanitizer omitted count
      ≤ draft.prefixSize sanitizer omitted (count + 1) := by
  have hface : ∀ items, faceSize sanitizer (draft.contentsWith items omitted)
      = fixedSize draft.contents + arraySize (items.map (itemSize sanitizer))
        + arraySize (omitted.map omissionSize) := fun _ => rfl
  rw [Draft.prefixSize, Draft.prefixSize, hface, hface]
  rcases Nat.lt_or_ge count draft.visible.length with hlt | hge
  · rw [prefixItems_succ (List.getElem?_eq_getElem hlt), List.map_append, List.map_singleton]
    have harray := arraySize_concat ((prefixItems sanitizer draft count).map (itemSize sanitizer))
      (itemSize sanitizer (packItem sanitizer draft.visible[count]))
    omega
  · rw [prefixItems, prefixItems, List.take_of_length_le hge, List.take_of_length_le (by omega)]

variable {count : Nat}

theorem runTokens_succ {sanitizer : Sanitizer}
    (h : runTokens (prefixItems sanitizer draft (count + 1)) < 2 ^ 53) :
    runTokens (prefixItems sanitizer draft count)
      ≤ runTokens (prefixItems sanitizer draft (count + 1)) := by
  rcases Nat.lt_or_ge count draft.visible.length with hlt | hge
  · rw [prefixItems_succ (List.getElem?_eq_getElem hlt), runTokens_concat] at h ⊢
    have hsum := addNumber_eq_of_lt h
    omega
  · rw [prefixItems, prefixItems, List.take_of_length_le hge, List.take_of_length_le (by omega)]

theorem tailTokens_succ {sanitizer : Sanitizer} {reached dropped : Nat}
    (h : draft.tailTokens sanitizer reached dropped < 2 ^ 53) :
    draft.tailTokens sanitizer reached (dropped + 1)
      ≤ draft.tailTokens sanitizer reached dropped := by
  rw [Draft.tailTokens, subNumber_of_lt h]
  omega

theorem PrefixFits.sum_le (hdraft : DraftAccepted renderer draft) {omitted : List OmittedEntry}
    {tokenSum : Nat} (h : draft.PrefixFits renderer omitted count tokenSum) :
    addNumber tokenSum (draft.envelopeTokens renderer omitted)
        = tokenSum + draft.envelopeTokens renderer omitted
      ∧ tokenSum + draft.envelopeTokens renderer omitted ≤ draft.contents.budgetTokens := by
  have hfloor := h.floor_le
  have hbudget := hdraft.budget_lt
  have hsum := addNumber_eq_of_lt (a := tokenSum) (b := draft.envelopeTokens renderer omitted)
    (by omega)
  exact ⟨hsum, by omega⟩

theorem PrefixFits.mono (hdraft : DraftAccepted renderer draft) {omitted : List OmittedEntry}
    {tokenSum tokenSum' : Nat} (h : draft.PrefixFits renderer omitted (count + 1) tokenSum)
    (hle : tokenSum' ≤ tokenSum) : draft.PrefixFits renderer omitted count tokenSum' := by
  obtain ⟨hexact, hinside⟩ := PrefixFits.sum_le hdraft h
  have hbudget := hdraft.budget_lt
  refine Fits.mono h (prefixSize_succ _ draft omitted count) ?_ le_rfl
  rw [hexact, addNumber_of_lt (by omega)]
  omega

theorem Draft.TailFits.pred (hdraft : DraftAccepted renderer draft) {legacy : Bool}
    {reached : Nat} (hle : count + 1 ≤ reached)
    (h : draft.TailFits renderer legacy reached (count + 1)) :
    draft.TailFits renderer legacy reached count := by
  have hbudget := hdraft.budget_lt
  obtain ⟨_, hinside⟩ := PrefixFits.sum_le hdraft h
  refine PrefixFits.mono hdraft h ?_
  cases legacy with
  | true =>
      rw [if_pos rfl] at hinside
      rw [if_pos rfl, if_pos rfl]
      exact runTokens_succ (by omega)
  | false =>
      have hsteps : reached - count = reached - (count + 1) + 1 := by omega
      rw [if_neg Bool.false_ne_true] at hinside
      rw [if_neg Bool.false_ne_true, if_neg Bool.false_ne_true, hsteps]
      exact tailTokens_succ (by omega)

theorem Draft.Keeps.fits_iff (hdraft : DraftAccepted renderer draft) {legacy : Bool}
    {reached kept : Nat} (h : draft.Keeps renderer legacy reached kept) (hpos : 1 ≤ count)
    (hle : count ≤ reached) : draft.TailFits renderer legacy reached count ↔ count ≤ kept := by
  constructor
  · intro hfits
    by_contra hover
    exact h.drops count (by omega) hle hfits
  · intro hkept
    have hdown : ∀ dropped, dropped + 1 ≤ kept →
        draft.TailFits renderer legacy reached (kept - dropped) := by
      intro dropped
      induction dropped with
      | zero => exact fun hsome => h.fits (by omega)
      | succ dropped ih =>
          intro hmore
          have hlast := ih (by omega)
          have hstep : kept - dropped = kept - (dropped + 1) + 1 := by omega
          rw [hstep] at hlast
          have hreached := h.le
          exact Draft.TailFits.pred hdraft (by omega) hlast
    have hat := hdown (kept - count) (by omega)
    rwa [Nat.sub_sub_self hkept] at hat

end Smaller

/-! ## Outcomes -/

/-- Two compositions select the same items with the same notes, omissions
and estimate, or fail with the same error. -/
def Agree : Except PackFailure ComposedPack → Except PackFailure ComposedPack → Prop
  | .ok pack, .ok other => pack.items = other.items ∧ pack.degraded = other.degraded
      ∧ pack.omitted = other.omitted ∧ pack.tokensEstimate = other.tokensEstimate
  | .error failure, .error other => failure = other
  | _, _ => False

theorem agree_self (composed : Except PackFailure ComposedPack) : Agree composed composed := by
  cases composed with
  | ok pack => exact ⟨rfl, rfl, rfl, rfl⟩
  | error failure => exact rfl

/-- Some reached prefix fits beside the sum that was added to and taken
back from, or beside its own sum, and not beside the other. -/
def Draft.Drifts (renderer : Renderer) (draft : Draft) : Prop :=
  ∃ reached count, draft.Reaches renderer reached ∧ 1 ≤ count ∧ count ≤ reached
    ∧ ¬(draft.TailFits renderer false reached count ↔ draft.TailFits renderer true reached count)

section Outcomes

variable {renderer : Renderer} {draft : Draft}

theorem Draft.keeps_eq_iff (hdraft : DraftAccepted renderer draft) {reached quick full : Nat}
    (hreaches : draft.Reaches renderer reached) (hquick : draft.Keeps renderer false reached quick)
    (hfull : draft.Keeps renderer true reached full) :
    quick = full ↔ ¬draft.Drifts renderer := by
  constructor
  · rintro rfl ⟨reached', count, hreaches', hpos, hle, hdiffer⟩
    obtain rfl := hreaches.unique hreaches'
    exact hdiffer ((hquick.fits_iff hdraft hpos hle).trans (hfull.fits_iff hdraft hpos hle).symm)
  · intro hsame
    by_contra hne
    have hquickLe := hquick.le
    have hfullLe := hfull.le
    refine hsame ⟨reached, max quick full, hreaches, by omega, by omega, fun hiff => ?_⟩
    rw [hquick.fits_iff hdraft (by omega) (by omega),
      hfull.fits_iff hdraft (by omega) (by omega)] at hiff
    omega

theorem finalOmitted_tail {reached kept : Nat} (hkept : kept ≤ reached)
    (hshort : reached < draft.visible.length) :
    draft.finalOmitted renderer.toSanitizer kept = draft.tailOmitted reached := by
  unfold Draft.finalOmitted Draft.omissions Draft.tailOmitted
  dsimp only
  rw [if_pos (by omega : 0 < draft.visible.length - kept), if_pos hshort, if_neg]
  simp

/-- The finalized pack is there when its prefix fits beside its own sum,
under the omissions of the tail. -/
theorem finalize_tail (hdraft : DraftAccepted renderer draft) {reached kept : Nat}
    (hkept : kept ≤ reached) (hshort : reached < draft.visible.length) :
    (draft.TailFits renderer true reached kept ∧ ∃ composed,
        finalize renderer (draft.finalContents renderer.toSanitizer kept) = .ok composed
          ∧ composed.items = prefixItems renderer.toSanitizer draft kept)
      ∨ ¬draft.TailFits renderer true reached kept ∧ ∃ failure,
        finalize renderer (draft.finalContents renderer.toSanitizer kept) = .error failure := by
  obtain ⟨estimate, hestimates, hfinal⟩ := finalize_finalContents hdraft kept
  rw [finalOmitted_tail hkept hshort] at hestimates
  have hiff : estimate ≤ draft.contents.budgetTokens ↔ draft.TailFits renderer true reached kept :=
    hestimates.le_iff
  rcases hfinal with ⟨hle, composed, hcomposed, hcontents⟩ | ⟨hover, herror⟩
  · refine .inl ⟨hiff.mp hle, composed, hcomposed, ?_⟩
    have hitems : composed.toPackContents.items
        = (draft.finalContents renderer.toSanitizer kept).items := by rw [hcontents]
    exact hitems
  · exact .inr ⟨fun hfits => absurd (hiff.mpr hfits) (by omega), _, herror⟩

theorem tailFits_zero (hdraft : DraftAccepted renderer draft) {legacy : Bool}
    {reached count : Nat} (h : draft.TailFits renderer legacy reached count) :
    draft.TailFits renderer true reached 0 := by
  have hbudget := hdraft.budget_lt
  obtain ⟨hexact, hinside⟩ := PrefixFits.sum_le hdraft h
  have hsize := monotone_nat_of_le_succ
    (prefixSize_succ renderer.toSanitizer draft (draft.tailOmitted reached)) (Nat.zero_le count)
  have hzero : addNumber (runTokens (prefixItems renderer.toSanitizer draft 0))
      (draft.envelopeTokens renderer (draft.tailOmitted reached))
        = 0 + draft.envelopeTokens renderer (draft.tailOmitted reached) :=
    addNumber_of_lt (by
      change 0 + _ < _
      omega)
  refine Fits.mono h hsize ?_ le_rfl
  rw [if_pos rfl, hzero, hexact]
  omega

theorem composeDraft_agree_iff (hdraft : DraftAccepted renderer draft) :
    Agree (composeDraft renderer draft false) (composeDraft renderer draft true)
      ↔ ¬draft.Drifts renderer := by
  obtain ⟨reached, quick, hreaches, hquick, hquickEq⟩ := composeDraft_eq hdraft false
  obtain ⟨reached', full, hreaches', hfull, hfullEq⟩ := composeDraft_eq hdraft true
  obtain rfl := hreaches.unique hreaches'
  rw [hquickEq, hfullEq, ← Draft.keeps_eq_iff hdraft hreaches hquick hfull]
  constructor
  · intro hagree
    by_contra hne
    have hquickLe := hquick.le
    have hfullLe := hfull.le
    have hshort : reached < draft.visible.length := by
      by_contra hall
      have hlength := hreaches.le
      obtain rfl : reached = draft.visible.length := by omega
      rcases Nat.eq_zero_or_pos draft.visible.length with hzero | hpos
      · omega
      · have hquickAll := (hquick.fits_iff hdraft hpos le_rfl).mp (hreaches.tailFits_all hpos false)
        have hfullAll := (hfull.fits_iff hdraft hpos le_rfl).mp (hreaches.tailFits_all hpos true)
        omega
    rcases Nat.lt_or_ge quick full with hless | hmore
    · -- the accounting keeps fewer items, and the full renders deliver more
      obtain ⟨_, pack, hpack, hitems⟩ := (finalize_tail hdraft hfullLe hshort).resolve_right
        fun h => h.1 (hfull.fits (by omega))
      rw [hpack] at hagree
      rcases finalize_tail hdraft hquickLe hshort with ⟨_, other, hother, hotherItems⟩
        | ⟨_, failure, hfailure⟩
      · rw [hother] at hagree
        have hlength := congrArg List.length hagree.1
        rw [hitems, hotherItems, prefixItems_length _ (by omega), prefixItems_length _ (by omega)]
          at hlength
        omega
      · rw [hfailure] at hagree
        exact hagree
    · -- the accounting keeps a prefix that does not fit beside its own sum
      have hpos : 0 < quick := by omega
      have hquickFits := hquick.fits hpos
      obtain ⟨_, failure, hfailure⟩ := (finalize_tail hdraft hquickLe hshort).resolve_left
        fun h => hne (by
          have hle := (hfull.fits_iff hdraft hpos hquickLe).mp h.1
          omega)
      have hfullFits : draft.TailFits renderer true reached full := by
        rcases Nat.eq_zero_or_pos full with hzero | hsome
        · rw [hzero]
          exact tailFits_zero hdraft hquickFits
        · exact hfull.fits hsome
      obtain ⟨_, pack, hpack, _⟩ := (finalize_tail hdraft hfullLe hshort).resolve_right
        fun h => h.1 hfullFits
      rw [hfailure, hpack] at hagree
      exact hagree
  · rintro rfl
    exact agree_self _

end Outcomes

section Exact

variable {renderer : Renderer} {draft : Draft}

theorem prefixTokens_succ {sanitizer : Sanitizer} {count : Nat}
    (h : count < draft.visible.length) :
    itemTokens (prefixItems sanitizer draft (count + 1))
      = itemTokens (prefixItems sanitizer draft count) + draft.tokensAt sanitizer count := by
  have hcandidate : draft.visible[count]? = some draft.visible[count] := List.getElem?_eq_getElem h
  rw [prefixItems_succ hcandidate, itemTokens_concat, Draft.tokensAt, hcandidate]

theorem prefixTokens_le {sanitizer : Sanitizer} {count bound : Nat} (h : count ≤ bound) :
    itemTokens (prefixItems sanitizer draft count)
      ≤ itemTokens (prefixItems sanitizer draft bound) := by
  refine monotone_nat_of_le_succ
    (f := fun count => itemTokens (prefixItems sanitizer draft count)) (fun count => ?_) h
  rcases Nat.lt_or_ge count draft.visible.length with hlt | hge
  · have hsucc := @prefixTokens_succ draft sanitizer count hlt
    omega
  · rw [prefixItems, prefixItems, List.take_of_length_le hge, List.take_of_length_le (by omega)]

theorem tailTokens_exact {sanitizer : Sanitizer} {reached : Nat}
    (hreached : reached ≤ draft.visible.length)
    (h : itemTokens (prefixItems sanitizer draft draft.visible.length) < 2 ^ 53) {dropped : Nat}
    (hdropped : dropped ≤ reached) : draft.tailTokens sanitizer reached dropped
      = runTokens (prefixItems sanitizer draft (reached - dropped)) := by
  have hrun : ∀ count, count ≤ draft.visible.length →
      runTokens (prefixItems sanitizer draft count)
        = itemTokens (prefixItems sanitizer draft count) := fun count hcount =>
    runTokens_of_lt ((prefixTokens_le hcount).trans_lt h)
  have hback : ∀ count, count < draft.visible.length →
      subNumber (runTokens (prefixItems sanitizer draft (count + 1)))
          (draft.tokensAt sanitizer count) = runTokens (prefixItems sanitizer draft count) := by
    intro count hcount
    rw [hrun _ hcount, hrun _ hcount.le,
      subNumber_of_lt ((prefixTokens_le hcount).trans_lt h), prefixTokens_succ hcount]
    omega
  induction dropped with
  | zero =>
      rw [Draft.tailTokens, Draft.tokensAfter, Nat.sub_zero]
      split
      · rename_i hshort
        exact hback reached hshort
      · rfl
  | succ dropped ih =>
      have hsplit : reached - dropped = reached - (dropped + 1) + 1 := by omega
      have hindex : reached - dropped - 1 = reached - (dropped + 1) := by omega
      rw [Draft.tailTokens, ih (by omega), hindex, hsplit, hback _ (by omega)]

theorem Draft.not_drifts (h : itemTokens (prefixItems renderer.toSanitizer draft
    draft.visible.length) < 2 ^ 53) : ¬draft.Drifts renderer := by
  rintro ⟨reached, count, hreaches, _, hle, hdiffer⟩
  refine hdiffer (iff_of_eq ?_)
  unfold Draft.TailFits
  rw [tailTokens_exact hreaches.le h (Nat.sub_le reached count), Nat.sub_sub_self hle, ite_self,
    ite_self]

end Exact

/-! ## The two composers -/

/-- The composers agree exactly when the input is refused by an assertion
or by the renderer, tells an outsider nothing, or has a draft that does not
drift. -/
theorem composers_agree_iff (renderer : Renderer) (input : PackComposerInput) :
    Agree (composePack renderer input) (composePackWithLegacyEstimatorForTest renderer input)
      ↔ ∀ draft, Drafted renderer input draft → CleanInput renderer input →
        ¬draft.Drifts renderer := by
  unfold composePack composePackWithLegacyEstimatorForTest
  rcases compose_cases renderer input with ⟨hnone, error, hrefused⟩ | ⟨contents, houtside, hfinal⟩
    | ⟨draft, hdrafted, hcompose⟩
  · rw [hrefused, hrefused]
    exact iff_of_true rfl fun draft hdrafted => absurd (.inr ⟨draft, hdrafted⟩) hnone
  · rw [hfinal, hfinal]
    refine iff_of_true (agree_self _) fun draft hdrafted => ?_
    have hmember := hdrafted.member
    rw [houtside.outsider] at hmember
    cases hmember
  · rw [hcompose, hcompose]
    by_cases hclean : CleanInput renderer input
    · have hdraft := hdrafted.checked.accepted (hdrafted.clean_iff.mpr hclean)
      rw [composeDraft_agree_iff hdraft]
      constructor
      · intro hsame other hother _
        rwa [← hdrafted.unique hother]
      · intro hall
        exact hall draft hdrafted hclean
    · obtain ⟨error, herror⟩ := composeDraft_unclean hdrafted.checked fun h =>
        hclean (hdrafted.clean_iff.mp h)
      rw [herror, herror]
      exact iff_of_true rfl fun _ _ h => absurd h hclean

/-- A candidate that fills the rest of the budget, before one whose
estimate is the largest that is admitted. -/
def driftInput : PackComposerInput :=
  sampleInput 800 [sampleCandidate "C-1" 652,
    { sampleCandidate "C-2" maxSafeInteger with stablePrefix := 1 }]

/-- The first candidate is selected with full renders only. -/
theorem composers_disagree : ¬Agree (composePack asciiRenderer driftInput)
    (composePackWithLegacyEstimatorForTest asciiRenderer driftInput) := by
  have hquick : (composePack asciiRenderer driftInput).toOption.map (·.items.length) = some 0 := by
    decide +kernel
  have hfull : (composePackWithLegacyEstimatorForTest asciiRenderer driftInput).toOption.map
      (·.items.length) = some 1 := by decide +kernel
  intro hagree
  cases hpack : composePack asciiRenderer driftInput with
  | error failure => rw [hpack] at hquick; cases hquick
  | ok pack =>
      cases hother : composePackWithLegacyEstimatorForTest asciiRenderer driftInput with
      | error failure => rw [hother] at hfull; cases hfull
      | ok other =>
          rw [hpack, hother] at hagree
          rw [hpack] at hquick
          rw [hother] at hfull
          have hlength := congrArg List.length hagree.1
          have hzero : pack.items.length = 0 := Option.some.inj hquick
          have hone : other.items.length = 1 := Option.some.inj hfull
          omega

end Asimposium
