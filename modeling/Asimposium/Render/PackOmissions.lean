import Asimposium.Render.PackMonotone

/-!
# Packs under more omissions

A declared omission takes bytes of every prefix. Of two compositions of the
same candidates, let the second declare omissions of at least the bytes of
those that the first one published. Then the second keeps no more
candidates (`kept_le`): it stops no later on the way up, and on the way down
its mark of the budget costs more than the token by which the running sum of
the first one may have drifted.
-/

namespace Asimposium

open Text Json ExceptRun

/-! ## Sizes -/

def omittedSize (omitted : List OmittedEntry) : Nat := arraySize (omitted.map omissionSize)

theorem omittedSize_eq (omitted : List OmittedEntry) : omittedSize omitted
    = 2 + (omitted.map omissionSize).sum + if 0 < omitted.length then 6 * omitted.length + 2 else 0 := by
  rw [omittedSize, arraySize_eq, List.length_map]

theorem omittedSize_perm {omitted omitted' : List OmittedEntry} (h : omitted.Perm omitted') :
    omittedSize omitted = omittedSize omitted' := by
  rw [omittedSize_eq, omittedSize_eq, (h.map omissionSize).sum_eq, h.length_eq]

theorem omittedSize_append (omitted more : List OmittedEntry) :
    omittedSize omitted ≤ omittedSize (omitted ++ more) := by
  rw [omittedSize_eq, omittedSize_eq, List.map_append, List.sum_append, List.length_append]
  split <;> split <;> omega

theorem omittedSize_concat (omitted : List OmittedEntry) (entry : OmittedEntry) :
    omittedSize omitted + 4 ≤ omittedSize (omitted ++ [entry]) := by
  rw [omittedSize_eq, omittedSize_eq, List.map_append, List.sum_append, List.length_append,
    List.length_singleton]
  split <;> split <;> omega

theorem omittedSize_replaced {entry entry' : OmittedEntry}
    (h : omissionSize entry ≤ omissionSize entry') (omitted : List OmittedEntry) :
    omittedSize (omitted ++ [entry]) ≤ omittedSize (omitted ++ [entry']) := by
  rw [omittedSize_eq, omittedSize_eq, List.map_append, List.map_append, List.sum_append,
    List.sum_append, List.length_append, List.length_append, List.map_singleton,
    List.map_singleton, List.sum_singleton, List.sum_singleton, List.length_singleton,
    List.length_singleton]
  split <;> omega

theorem markedOmitted_of_ne {omitted : List OmittedEntry} (h : omitted ≠ []) :
    markedOmitted omitted = omitted := by
  rw [markedOmitted, if_neg]
  simpa [List.isEmpty_iff] using h

/-! ## Prefixes under other omissions -/

/-- The same draft with other omissions known before the selection. -/
def Draft.withOmitted (draft : Draft) (omitted : List OmittedEntry) : Draft :=
  { draft with contents := { draft.contents with omitted } }

section Omitted

variable {renderer : Renderer} {draft : Draft} {omitted omitted' : List OmittedEntry}

theorem prefixSize_omitted (sanitizer : Sanitizer) (count : Nat)
    (h : omittedSize omitted ≤ omittedSize omitted') :
    draft.prefixSize sanitizer omitted count ≤ draft.prefixSize sanitizer omitted' count :=
  Nat.add_le_add_left h _

theorem envelopeTokens_omitted (hdraft : DraftAccepted renderer draft)
    (haccepted : OmittedAccepted renderer.toUnicode omitted)
    (haccepted' : OmittedAccepted renderer.toUnicode omitted') {tokens : Nat}
    (hsize : omittedSize (markedOmitted omitted) + 4 * tokens
      ≤ omittedSize (markedOmitted omitted'))
    (hinside : draft.envelopeTokens renderer omitted' ≤ draft.contents.budgetTokens) :
    draft.envelopeTokens renderer omitted + tokens ≤ draft.envelopeTokens renderer omitted' := by
  have henvelope := renderedFaceTokenEstimate_ok (hdraft.envelope_ok haccepted)
  have henvelope' := renderedFaceTokenEstimate_ok (hdraft.envelope_ok haccepted')
  have hcovers := henvelope'.covers hinside
  have hface : ∀ omitted, faceSize renderer.toSanitizer (draft.contentsWith [] omitted)
      = fixedSize draft.contents + arraySize [] + omittedSize omitted := fun _ => rfl
  rw [hface] at henvelope
  rw [Covers, hface] at hcovers
  set size := omittedSize (markedOmitted omitted)
  set size' := omittedSize (markedOmitted omitted')
  set estimate := draft.envelopeTokens renderer omitted'
  have hwidth : width (estimate - tokens) ≤ width estimate := width_mono (Nat.sub_le ..)
  have hpos : 0 < width estimate := width_pos estimate
  have hempty : arraySize [] = 2 := rfl
  have hleast := henvelope.least (estimate - tokens) (by omega) (by unfold Covers; omega)
  omega

/-- What fits under some omissions fits under smaller ones, beside a sum
that is larger by no more than they save. -/
theorem Draft.PrefixFits.omitting (hdraft : DraftAccepted renderer draft)
    (haccepted : OmittedAccepted renderer.toUnicode omitted)
    (haccepted' : OmittedAccepted renderer.toUnicode omitted') {count tokenSum tokenSum' extra : Nat}
    (hsize : omittedSize omitted ≤ omittedSize omitted')
    (hmarked : omittedSize (markedOmitted omitted) + 4 * extra
      ≤ omittedSize (markedOmitted omitted'))
    (hsum : tokenSum ≤ tokenSum' + extra)
    (h : draft.PrefixFits renderer omitted' count tokenSum') :
    draft.PrefixFits renderer omitted count tokenSum := by
  obtain ⟨hexact, hinside⟩ := PrefixFits.sum_le hdraft h
  have hbudget := hdraft.budget_lt
  have henvelope := envelopeTokens_omitted hdraft haccepted haccepted' hmarked (by omega)
  refine Fits.mono h (prefixSize_omitted _ count hsize) ?_ le_rfl
  rw [hexact, addNumber_of_lt (by omega)]
  omega

end Omitted

/-! ## The drift of the running sum -/

section Drift

variable {renderer : Renderer} {draft : Draft}

theorem addNumber_le {a b : Nat} (h : a + b < 2 ^ 54) : addNumber a b ≤ a + b + 1 := by
  have hround := @Significand.round_le 53 (a + b)
  have hulp : Significand.ulp 53 (a + b) ≤ 2 := by
    have hlog : (a + b).log2 ≤ 53 := by
      rcases Nat.eq_zero_or_pos (a + b) with hzero | hpos
      · rw [hzero, Nat.log2_zero]
        exact Nat.zero_le _
      · exact Nat.le_of_lt_succ ((Nat.log2_lt (by omega)).mpr h)
    exact Nat.pow_le_pow_right (by decide) (by omega : (a + b).log2 + 1 - 53 ≤ 1)
  unfold addNumber
  omega

theorem tokensAfter_le {reached : Nat}
    (hsafe : ∀ candidate ∈ draft.visible, wholeItemTokens renderer.toSanitizer candidate
      ≤ maxSafeInteger)
    (hsum : runTokens (prefixItems renderer.toSanitizer draft reached) + 1 < 2 ^ 53) :
    draft.tokensAfter renderer.toSanitizer reached
      ≤ runTokens (prefixItems renderer.toSanitizer draft reached) + 1 := by
  unfold Draft.tokensAfter
  split
  · rename_i hshort
    have hget := List.getElem?_eq_getElem hshort
    have htokens : draft.tokensAt renderer.toSanitizer reached
        = (packItem renderer.toSanitizer draft.visible[reached]).tokens := by
      rw [Draft.tokensAt, hget]
    have hle : (packItem renderer.toSanitizer draft.visible[reached]).tokens ≤ maxSafeInteger :=
      hsafe _ (List.getElem_mem hshort)
    unfold maxSafeInteger at hle
    rw [prefixItems_succ hget, runTokens_concat, htokens]
    have hadd := @addNumber_le (runTokens (prefixItems renderer.toSanitizer draft reached))
      (packItem renderer.toSanitizer draft.visible[reached]).tokens (by omega)
    rw [subNumber, Significand.round_of_lt (by decide) (by omega)]
    omega
  · exact Nat.le_succ _

theorem tailTokens_le {reached dropped : Nat} (hreached : reached ≤ draft.visible.length)
    (hsafe : ∀ candidate ∈ draft.visible, wholeItemTokens renderer.toSanitizer candidate
      ≤ maxSafeInteger)
    (hsum : runTokens (prefixItems renderer.toSanitizer draft reached) + 1 < 2 ^ 53)
    (hdropped : dropped ≤ reached) :
    draft.tailTokens renderer.toSanitizer reached dropped
      ≤ runTokens (prefixItems renderer.toSanitizer draft (reached - dropped)) + 1
      ∧ runTokens (prefixItems renderer.toSanitizer draft (reached - dropped)) + 1 < 2 ^ 53 := by
  induction dropped with
  | zero => exact ⟨tokensAfter_le hsafe hsum, hsum⟩
  | succ dropped ih =>
      obtain ⟨hle, hlt⟩ := ih (by omega)
      have hindex : reached - dropped - 1 = reached - (dropped + 1) := by omega
      have hsplit : reached - dropped = reached - (dropped + 1) + 1 := by omega
      have hget := List.getElem?_eq_getElem
        (show reached - (dropped + 1) < draft.visible.length by omega)
      have htokens : draft.tokensAt renderer.toSanitizer (reached - (dropped + 1))
          = (packItem renderer.toSanitizer draft.visible[reached - (dropped + 1)]).tokens := by
        rw [Draft.tokensAt, hget]
      rw [hsplit, prefixItems_succ hget, runTokens_concat] at hle hlt
      have hexact := addNumber_eq_of_lt (show addNumber
        (runTokens (prefixItems renderer.toSanitizer draft (reached - (dropped + 1))))
        (packItem renderer.toSanitizer draft.visible[reached - (dropped + 1)]).tokens < 2 ^ 53 by
          omega)
      rw [Draft.tailTokens, hindex, htokens, subNumber_of_lt (by omega)]
      omega

end Drift

/-! ## Compositions -/

section Compositions

variable {renderer : Renderer} {draft : Draft} {omitted : List OmittedEntry}

theorem marked_le_tail {static : List OmittedEntry} :
    omittedSize (markedOmitted static) ≤ omittedSize (static ++ [omission "budget_exceeded"]) := by
  rcases List.eq_nil_or_concat static with rfl | ⟨_, _, rfl⟩
  · exact le_rfl
  · rw [markedOmitted_of_ne (by simp)]
    exact omittedSize_append _ _

theorem reaches_omitted (hdraft : DraftAccepted renderer draft)
    (hdraft' : DraftAccepted renderer (draft.withOmitted omitted)) {reached reached' : Nat}
    (hreaches : draft.Reaches renderer reached)
    (hreaches' : (draft.withOmitted omitted).Reaches renderer reached')
    (hne : omitted ≠ [])
    (hsize : omittedSize (draft.staticOmitted ++ [omission "budget_exceeded"])
      ≤ omittedSize omitted) : reached' ≤ reached := by
  by_contra hmore
  have hle' : reached' ≤ draft.visible.length := hreaches'.le
  refine hreaches.stops (by omega) ?_
  have hfits : draft.PrefixFits renderer omitted (reached + 1)
      (runTokens (prefixItems renderer.toSanitizer draft (reached + 1))) :=
    hreaches'.fits (reached + 1) (by omega) (by omega)
  have haccepted : OmittedAccepted renderer.toUnicode omitted := hdraft'.omitted
  have hmarked : omittedSize (markedOmitted draft.staticOmitted) + 4 * 0
      ≤ omittedSize (markedOmitted omitted) := by
    rw [markedOmitted_of_ne hne]
    exact marked_le_tail.trans hsize
  exact Draft.PrefixFits.omitting hdraft hdraft.omitted haccepted
    ((omittedSize_append _ _).trans hsize) hmarked le_rfl hfits

/-- A finalized composition keeps no more than another that published no
more omissions than it declares. -/
theorem kept_le (hdraft : DraftAccepted renderer draft)
    (hdraft' : DraftAccepted renderer (draft.withOmitted omitted))
    (hsafe : ∀ candidate ∈ draft.visible, wholeItemTokens renderer.toSanitizer candidate
      ≤ maxSafeInteger) {reached reached' kept kept' : Nat}
    (hreaches : draft.Reaches renderer reached) (hkeeps : draft.Keeps renderer false reached kept)
    (hreaches' : (draft.withOmitted omitted).Reaches renderer reached')
    (hkeeps' : (draft.withOmitted omitted).Keeps renderer false reached' kept')
    (hfinal : (draft.withOmitted omitted).FinalFits renderer kept') (hne : omitted ≠ [])
    (hsize : omittedSize (draft.finalOmitted renderer.toSanitizer kept) ≤ omittedSize omitted) :
    kept' ≤ kept := by
  have hlength := hreaches.le
  have hlength' : reached' ≤ draft.visible.length := hreaches'.le
  have hkept := hkeeps.le
  have hkept' := hkeeps'.le
  by_contra hmore
  rcases Nat.lt_or_ge reached draft.visible.length with hshort | hall
  · rw [@finalOmitted_tail renderer draft _ _ hkept hshort] at hsize
    have htail : draft.tailOmitted reached
        = draft.staticOmitted ++ [omission "budget_exceeded"] := by
      rw [Draft.tailOmitted, if_pos hshort]
    have hless := reaches_omitted hdraft hdraft' hreaches hreaches' hne (by rw [← htail]; exact hsize)
    have hshort' : reached' < (draft.withOmitted omitted).visible.length := by
      show reached' < draft.visible.length
      omega
    have hfits : draft.PrefixFits renderer (omitted ++ [omission "budget_exceeded"]) kept'
        (runTokens (prefixItems renderer.toSanitizer draft kept')) := by
      have htail' : (draft.withOmitted omitted).tailOmitted reached'
          = omitted ++ [omission "budget_exceeded"] := by
        rw [Draft.tailOmitted, if_pos hshort']
        rfl
      unfold Draft.FinalFits at hfinal
      rw [@finalOmitted_tail renderer _ _ _ hkept' hshort', htail'] at hfinal
      exact hfinal
    have hreachedSum : runTokens (prefixItems renderer.toSanitizer draft reached) + 1 < 2 ^ 53 := by
      have hfit := hreaches.fits reached (by omega) le_rfl
      obtain ⟨_, hinside⟩ := PrefixFits.sum_le hdraft hfit
      have hpos := (renderedFaceTokenEstimate_ok (hdraft.envelope_ok hdraft.omitted)).above
      have hbudget := hdraft.budget_lt
      omega
    obtain ⟨htokens, _⟩ := tailTokens_le hlength hsafe hreachedSum (Nat.sub_le reached kept')
    rw [Nat.sub_sub_self (by omega)] at htokens
    -- the mark in the tail of the second pays for the drift of the first
    refine hkeeps.drops kept' (by omega) (by omega) ?_
    unfold Draft.TailFits
    rw [if_neg Bool.false_ne_true]
    have haccepted : OmittedAccepted renderer.toUnicode
        (omitted ++ [omission "budget_exceeded"]) :=
      OmittedAccepted.append hdraft'.omitted (budgetExceeded_accepted _)
    have hmarked : omittedSize (markedOmitted (draft.tailOmitted reached)) + 4 * 1
        ≤ omittedSize (markedOmitted (omitted ++ [omission "budget_exceeded"])) := by
      rw [markedOmitted_of_ne (by rw [htail]; simp), markedOmitted_of_ne (by simp)]
      exact (Nat.add_le_add_right hsize 4).trans (omittedSize_concat _ _)
    exact Draft.PrefixFits.omitting hdraft (hdraft.tailOmitted reached) haccepted
      (hsize.trans (omittedSize_append _ _)) hmarked htokens hfits
  · -- nothing was rejected, so everything was kept
    obtain rfl : reached = draft.visible.length := by omega
    have hkeptAll : draft.visible.length ≤ kept := by
      rcases Nat.eq_zero_or_pos draft.visible.length with hzero | hpos
      · omega
      · exact (hkeeps.fits_iff hdraft hpos le_rfl).mp (hreaches.tailFits_all hpos false)
    omega

end Compositions

/-! ## Declared omissions -/

def PackComposerInput.omitting (input : PackComposerInput) (omitted : Option (List OmittedEntry)) :
    PackComposerInput := { input with omitted }

/-- The sections that visible candidates declare composed. -/
def Draft.sections (draft : Draft) : List Text :=
  composedSections draft.contents.profile draft.visible

/-- The composition of a pack: its draft, how far the way up went and what
the tail kept. -/
structure Composition (renderer : Renderer) (input : PackComposerInput) (draft : Draft)
    (kept : Nat) (pack : ComposedPack) : Prop where
  drafted : Drafted renderer input draft
  accepted : DraftAccepted renderer draft
  keeps : ∃ reached, draft.Reaches renderer reached ∧ draft.Keeps renderer false reached kept
  fits : draft.FinalFits renderer kept
  items : pack.items = prefixItems renderer.toSanitizer draft kept
  omitted : pack.omitted = draft.finalOmitted renderer.toSanitizer kept

section Declared

variable {renderer : Renderer} {input : PackComposerInput} {pack pack' : ComposedPack}

theorem composition_of_ok (hmember : input.isOutsider = false)
    (h : composePack renderer input = .ok pack) :
    ∃ draft kept, Composition renderer input draft kept pack := by
  rcases compose_cases renderer input with ⟨_, error, hrefused⟩ | ⟨contents, houtside, _⟩
    | ⟨draft, hdrafted, hcompose⟩
  · rw [composePack, hrefused] at h
    cases h
  · rw [houtside.outsider] at hmember
    cases hmember
  · rw [composePack, hcompose] at h
    have hclean : CleanContents renderer draft.contents := by
      by_contra hunclean
      obtain ⟨_, herror⟩ := composeDraft_unclean hdrafted.checked hunclean
      rw [herror] at h
      cases h
    have haccepted := hdrafted.checked.accepted hclean
    obtain ⟨reached, kept, hreaches, hkeeps, hfinal⟩ := composeDraft_eq haccepted false
    rw [hfinal] at h
    refine ⟨draft, kept, hdrafted, haccepted, ⟨reached, hreaches, hkeeps⟩,
      (finalize_ok_iff haccepted kept).mp ⟨pack, h⟩, finalize_items h, ?_⟩
    show pack.toPackContents.omitted = (draft.finalContents renderer.toSanitizer kept).omitted
    rw [(finalize_honest h).1]

/-- The drafts of an input differ in their omissions only, and these are
the declared ones that stay and what the composer adds. -/
theorem Drafted.omitting {omitted : Option (List OmittedEntry)} {draft draft' : Draft}
    (h : Drafted renderer input draft) (h' : Drafted renderer (input.omitting omitted) draft') :
    draft' = draft.withOmitted draft'.contents.omitted
      ∧ ∃ added, (∀ entry ∈ added, entry.detail = none
          ∧ entry.reason ≠ text "profile_section_not_composed")
        ∧ draft.contents.omitted
          = (listedOmitted input.omitted).filter (staysOmitted draft.sections) ++ added
        ∧ draft'.contents.omitted
          = (listedOmitted omitted).filter (staysOmitted draft.sections) ++ added := by
  obtain ⟨_, viewer, provenance, budgetTokens, degraded, hviewer, hcommon, hdraft⟩ := h
  obtain ⟨_, viewer', provenance', budgetTokens', degraded', hviewer', hcommon', hdraft'⟩ := h'
  obtain rfl := Except.ok.inj (hviewer.symm.trans hviewer')
  have hsame : contentsOf viewer input provenance budgetTokens degraded
      = contentsOf viewer (input.omitting omitted) provenance' budgetTokens' degraded' := by
    have hok := commonContents_ok.mpr ⟨_, _, _, hcommon, rfl⟩
    have hok' := commonContents_ok.mpr ⟨_, _, _, hcommon', rfl⟩
    exact Except.ok.inj (hok.symm.trans hok')
  rw [← hsame] at hdraft'
  obtain ⟨_, _, _, rfl⟩ := draftPack_ok.mp hdraft
  obtain ⟨_, _, _, rfl⟩ := draftPack_ok.mp hdraft'
  refine ⟨rfl, _, ?_, by simp only [draftOf, List.append_assoc]; rfl,
    by simp only [draftOf, List.append_assoc]; rfl⟩
  have hplain : ∀ (count : Nat) (reason : String), text reason ≠ text "profile_section_not_composed" →
      ∀ entry ∈ omissionOf count reason, entry.detail = none
        ∧ entry.reason ≠ text "profile_section_not_composed" := by
    intro count reason hreason entry hentry
    unfold omissionOf at hentry
    split at hentry
    · obtain rfl := List.mem_singleton.mp hentry
      exact ⟨rfl, hreason⟩
    · cases hentry
  intro entry hentry
  simp only [List.mem_append] at hentry
  rcases hentry with hentry | hentry | hentry | hentry
  · exact hplain _ _ (by decide) entry hentry
  · exact hplain _ _ (by decide) entry hentry
  · exact hplain _ _ (by decide) entry hentry
  · exact hplain _ _ (by decide) entry hentry

theorem staysOmitted_plain (sections : List Text) {entry : OmittedEntry}
    (h : entry.reason ≠ text "profile_section_not_composed") :
    staysOmitted sections entry = true := by
  simp [staysOmitted, h]

theorem mem_finalOmitted {sanitizer : Sanitizer} {draft : Draft} {kept : Nat}
    {entry : OmittedEntry} (h : entry ∈ draft.finalOmitted sanitizer kept) :
    entry ∈ draft.contents.omitted ∨ entry = omission "budget_exceeded"
      ∨ entry = omission "no_items_available" := by
  unfold Draft.finalOmitted Draft.omissions at h
  dsimp only at h
  have hmark : ∀ entry ∈ (if 0 < draft.visible.length - kept then [omission "budget_exceeded"]
      else []), entry = omission "budget_exceeded" := by
    intro entry hentry
    split at hentry
    · exact List.mem_singleton.mp hentry
    · cases hentry
  generalize (if 0 < draft.visible.length - kept then [omission "budget_exceeded"] else []) = mark
    at h hmark
  split at h
  · exact .inr (.inr (List.mem_singleton.mp h))
  · rcases List.mem_append.mp h with h | h
    · exact .inl h
    · exact .inr (.inl (hmark entry h))

theorem Composition.stays {draft : Draft} {kept : Nat}
    (h : Composition renderer input draft kept pack) :
    ∀ entry ∈ pack.omitted, staysOmitted draft.sections entry = true := by
  have hdrafted : Drafted renderer (input.omitting input.omitted) draft := h.drafted
  obtain ⟨_, added, hadded, homitted, _⟩ := h.drafted.omitting hdrafted
  intro entry hentry
  rw [h.omitted] at hentry
  rcases mem_finalOmitted hentry with hmem | rfl | rfl
  · rw [homitted] at hmem
    rcases List.mem_append.mp hmem with hmem | hmem
    · exact (List.mem_filter.mp hmem).2
    · exact staysOmitted_plain _ (hadded entry hmem).2
  · exact staysOmitted_plain _ (by decide)
  · exact staysOmitted_plain _ (by decide)

theorem Composition.kept_le {omitted : List OmittedEntry} {draft draft' : Draft}
    {kept kept' : Nat} (h : Composition renderer input draft kept pack)
    (h' : Composition renderer (input.omitting (some omitted)) draft' kept' pack')
    (hsafe : ∀ candidate ∈ draft.visible, wholeItemTokens renderer.toSanitizer candidate
      ≤ maxSafeInteger)
    (hne : omitted ≠ []) (hstays : ∀ entry ∈ omitted, staysOmitted draft.sections entry = true)
    (hsize : omittedSize pack.omitted ≤ omittedSize omitted) : kept' ≤ kept := by
  obtain ⟨hdraft', added, _, _, homitted⟩ := h.drafted.omitting h'.drafted
  have hlisted : (listedOmitted (some omitted)).filter (staysOmitted draft.sections)
      = listedOmitted (some omitted) := by
    rw [List.filter_eq_self]
    intro entry hentry
    exact hstays entry ((List.mem_insertionSort _).mp hentry)
  rw [hlisted] at homitted
  have hperm : (listedOmitted (some omitted)).Perm omitted := List.perm_insertionSort _ _
  have hsize' : omittedSize (draft.finalOmitted renderer.toSanitizer kept)
      ≤ omittedSize draft'.contents.omitted := by
    rw [← h.omitted, homitted]
    exact (hsize.trans_eq (omittedSize_perm hperm).symm).trans (omittedSize_append _ _)
  have hne' : draft'.contents.omitted ≠ [] := by
    intro hnil
    rw [homitted] at hnil
    have hnone := (List.append_eq_nil_iff.mp hnil).1
    rw [hnone] at hperm
    exact hne hperm.symm.eq_nil
  obtain ⟨reached, hreaches, hkeeps⟩ := h.keeps
  obtain ⟨reached', hreaches', hkeeps'⟩ := h'.keeps
  have haccepted' := h'.accepted
  have hfits' := h'.fits
  rw [hdraft'] at hreaches' hkeeps' haccepted' hfits'
  exact Asimposium.kept_le h.accepted haccepted' hsafe hreaches hkeeps hreaches' hkeeps' hfits'
    hne' hsize'

end Declared

end Asimposium
