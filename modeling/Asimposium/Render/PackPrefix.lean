import Asimposium.Render.PackBudget
import Asimposium.Render.PackSelection

/-!
# The prefix a composition selects

The loop over the candidates stops before the first prefix that does not
fit (`selectItems_reaches`), the loop over the tail goes down to the last
prefix that fits beside the mark of the budget (`dropTail_reaches`), and
what is left is finalized. The two estimators read the same token sums on
the way up. On the way down the accounting one starts from a sum the
rejected candidate was added to and taken back from.
-/

namespace Asimposium

open Text Json ExceptRun

/-! ## Token sums on the way -/

def Draft.tokensAt (sanitizer : Sanitizer) (draft : Draft) (index : Nat) : Nat :=
  match draft.visible[index]? with
  | some candidate => (packItem sanitizer candidate).tokens
  | none => 0

/-- The running sum after the loop over the candidates: a candidate that
was rejected has been added and taken back. -/
def Draft.tokensAfter (sanitizer : Sanitizer) (draft : Draft) (reached : Nat) : Nat :=
  if reached < draft.visible.length then
    subNumber (runTokens (prefixItems sanitizer draft (reached + 1)))
      (draft.tokensAt sanitizer reached)
  else runTokens (prefixItems sanitizer draft reached)

/-- The running sum once so many items were dropped from the tail. -/
def Draft.tailTokens (sanitizer : Sanitizer) (draft : Draft) (reached : Nat) : Nat → Nat
  | 0 => draft.tokensAfter sanitizer reached
  | dropped + 1 => subNumber (draft.tailTokens sanitizer reached dropped)
      (draft.tokensAt sanitizer (reached - dropped - 1))

section Prefix

variable {renderer : Renderer} {draft : Draft}

theorem prefixItems_succ {sanitizer : Sanitizer} {count : Nat} {candidate : PackCandidate}
    (h : draft.visible[count]? = some candidate) :
    prefixItems sanitizer draft (count + 1)
      = prefixItems sanitizer draft count ++ [packItem sanitizer candidate] := by
  rw [prefixItems, prefixItems, List.take_add_one, h]
  simp

theorem prefixItems_ne_nil {sanitizer : Sanitizer} {count : Nat} (hpos : 0 < count)
    (hle : count ≤ draft.visible.length) : prefixItems sanitizer draft count ≠ [] := by
  intro hnil
  have hlength := @prefixItems_length draft sanitizer _ hle
  rw [hnil] at hlength
  exact absurd hlength (by simp; omega)

theorem Accounted.push {omittedOf : OmissionPhase → List OmittedEntry} {count : Nat}
    {selection : Selection} (h : Accounted renderer draft omittedOf count selection)
    {candidate : PackCandidate} (hcandidate : draft.visible[count]? = some candidate) :
    Accounted renderer draft omittedOf (count + 1)
      (selection.push (packItem renderer.toSanitizer candidate)
        (itemSize renderer.toSanitizer (packItem renderer.toSanitizer candidate))) where
  items := by
    rw [prefixItems_succ hcandidate, ← h.items]
    rfl
  deltas := by
    change selection.includedDeltas ++ _ = (selection.items ++ _).map _
    rw [h.deltas, List.map_append]
    rfl
  bytes := by
    change selection.includedItemBytes + _ = ((selection.items ++ _).map _).sum
    rw [h.bytes, List.map_append, List.sum_append]
    rfl
  anchor := h.anchor
  floors := h.floors

theorem Accounted.pop {omittedOf : OmissionPhase → List OmittedEntry} {count : Nat}
    {selection : Selection} (h : Accounted renderer draft omittedOf (count + 1) selection)
    (hcount : count < draft.visible.length) :
    Accounted renderer draft omittedOf count selection.pop
      ∧ selection.pop.runningItemTokens = subNumber selection.runningItemTokens
        (draft.tokensAt renderer.toSanitizer count) := by
  have hcandidate : draft.visible[count]? = some draft.visible[count] :=
    List.getElem?_eq_getElem hcount
  have hitems := h.items
  rw [prefixItems_succ hcandidate] at hitems
  have hlast : selection.items.getLast? = some (packItem renderer.toSanitizer draft.visible[count]) := by
    rw [hitems, List.getLast?_concat]
  have hdelta : selection.includedDeltas.getLast?
      = some (itemSize renderer.toSanitizer
        (packItem renderer.toSanitizer draft.visible[count])) := by
    rw [h.deltas, hitems, List.map_append, List.map_singleton, List.getLast?_concat]
  have hpop : selection.pop =
      { selection with
        items := selection.items.dropLast
        includedItemBytes := selection.includedItemBytes
          - itemSize renderer.toSanitizer (packItem renderer.toSanitizer draft.visible[count])
        includedDeltas := selection.includedDeltas.dropLast
        runningItemTokens := subNumber selection.runningItemTokens
          (packItem renderer.toSanitizer draft.visible[count]).tokens } := by
    rw [Selection.pop, hlast, hdelta]
  have hdropped : selection.items.dropLast = prefixItems renderer.toSanitizer draft count := by
    rw [hitems, List.dropLast_concat]
  have htokens : draft.tokensAt renderer.toSanitizer count
      = (packItem renderer.toSanitizer draft.visible[count]).tokens := by
    rw [Draft.tokensAt, hcandidate]
  rw [hpop]
  refine ⟨⟨hdropped, ?_, ?_, h.anchor, h.floors⟩, by rw [htokens]⟩
  · dsimp only
    rw [h.deltas, List.map_dropLast]
  · dsimp only
    rw [h.bytes, hdropped, hitems, List.map_append, List.sum_append, List.map_singleton,
      List.sum_singleton, Nat.add_sub_cancel]

end Prefix

/-! ## The way up -/

def Draft.StaticFits (renderer : Renderer) (draft : Draft) (count : Nat) : Prop :=
  draft.PrefixFits renderer draft.staticOmitted count
    (runTokens (prefixItems renderer.toSanitizer draft count))

/-- The loop over the candidates reaches so many: all these prefixes fit,
and the next one does not. -/
structure Draft.Reaches (renderer : Renderer) (draft : Draft) (reached : Nat) : Prop where
  le : reached ≤ draft.visible.length
  fits : ∀ count, 1 ≤ count → count ≤ reached → draft.StaticFits renderer count
  stops : reached < draft.visible.length → ¬draft.StaticFits renderer (reached + 1)

section Up

variable {renderer : Renderer} {draft : Draft} {omittedOf : OmissionPhase → List OmittedEntry}

theorem Draft.Reaches.unique {m n : Nat} (hm : draft.Reaches renderer m)
    (hn : draft.Reaches renderer n) : m = n := by
  rcases Nat.lt_trichotomy m n with hlt | heq | hlt
  · exact absurd (hn.fits (m + 1) (by omega) hlt) (hm.stops (hlt.trans_le hn.le))
  · exact heq
  · exact absurd (hm.fits (n + 1) (by omega) hlt) (hn.stops (hlt.trans_le hm.le))

structure Reached (renderer : Renderer) (draft : Draft)
    (omittedOf : OmissionPhase → List OmittedEntry) (reached : Nat) (selection : Selection) :
    Prop where
  accounted : Accounted renderer draft omittedOf reached selection
  running : selection.runningItemTokens = draft.tokensAfter renderer.toSanitizer reached
  excluded : selection.budgetExcluded = draft.visible.length - reached

theorem selectItems_reaches (hdraft : DraftAccepted renderer draft) (legacy : Bool)
    (hstatic : omittedOf .static = draft.staticOmitted) {count : Nat} {selection : Selection}
    (hcount : count ≤ draft.visible.length)
    (haccounted : Accounted renderer draft omittedOf count selection)
    (hrunning : selection.runningItemTokens
      = runTokens (prefixItems renderer.toSanitizer draft count))
    (hexcluded : selection.budgetExcluded = 0)
    (hfits : ∀ k, 1 ≤ k → k ≤ count → draft.StaticFits renderer k) :
    ∃ selection' reached,
      selectItems renderer draft legacy (draft.visible.drop count) selection = .ok selection'
        ∧ draft.Reaches renderer reached ∧ Reached renderer draft omittedOf reached selection' := by
  induction hleft : draft.visible.length - count generalizing count selection with
  | zero =>
      obtain rfl : count = draft.visible.length := by omega
      rw [List.drop_length]
      refine ⟨selection, _, rfl, ⟨le_rfl, hfits, fun h => absurd h (Nat.lt_irrefl _)⟩, haccounted,
        ?_, by omega⟩
      rw [hrunning, Draft.tokensAfter, if_neg (Nat.lt_irrefl _)]
  | succ left ih =>
      have hlt : count < draft.visible.length := by omega
      have hcandidate : draft.visible[count]? = some draft.visible[count] :=
        List.getElem?_eq_getElem hlt
      have hmem := hdraft.candidates _ (List.getElem_mem hlt)
      have hpushed := haccounted.push hcandidate
      have hpushedRunning : (selection.push (packItem renderer.toSanitizer draft.visible[count])
          (itemSize renderer.toSanitizer
            (packItem renderer.toSanitizer draft.visible[count]))).runningItemTokens
          = runTokens (prefixItems renderer.toSanitizer draft (count + 1)) := by
        rw [prefixItems_succ hcandidate, runTokens_concat, ← hrunning]
        rfl
      obtain ⟨estimate, anchor, floors, hquick, hquickAccounted, hiff⟩ :=
        hpushed.quickEstimate hdraft legacy .static (by rw [hstatic]; exact hdraft.omitted)
          (.inl (prefixItems_ne_nil (Nat.succ_pos count) hlt))
          (runTokens (prefixItems renderer.toSanitizer draft (count + 1)))
      rw [hstatic, ite_self] at hiff
      rw [hstatic, ← hpushedRunning] at hquick
      rw [List.drop_eq_getElem_cons hlt, selectItems, composeItem_eq hmem]
      change ∃ selection' reached, (Asimposium.quickEstimate renderer draft legacy _ _ _ _ >>= _)
        = _ ∧ _
      rw [hquick]
      change ∃ selection' reached, (if estimate ≤ _ then _ else _) = Except.ok selection' ∧ _
      split
      · rename_i hle
        exact ih hlt hquickAccounted hpushedRunning hexcluded
          (fun k hpos hk => by
            rcases Nat.lt_or_ge count k with hgt | hle'
            · obtain rfl : k = count + 1 := by omega
              exact hiff.mp hle
            · exact hfits k hpos hle') (by omega)
      · rename_i hover
        obtain ⟨hpop, hpopRunning⟩ := hquickAccounted.pop hlt
        refine ⟨_, count, rfl, ⟨hcount, hfits, fun _ hfit => hover (hiff.mpr hfit)⟩,
          ⟨hpop.items, hpop.deltas, hpop.bytes, hpop.anchor, hpop.floors⟩, ?_, ?_⟩
        · change Selection.runningItemTokens (Selection.pop _) = _
          rw [hpopRunning, Draft.tokensAfter, if_pos hlt]
          exact congrArg (subNumber · _) hpushedRunning
        · change (draft.visible[count] :: draft.visible.drop (count + 1)).length = _
          rw [List.length_cons, List.length_drop]
          omega

end Up

/-! ## The way down -/

def Draft.tailOmitted (draft : Draft) (reached : Nat) : List OmittedEntry :=
  draft.staticOmitted
    ++ if reached < draft.visible.length then [omission "budget_exceeded"] else []

/-- A prefix fits under the omissions of the tail, beside the sum that the
estimator reads there. -/
def Draft.TailFits (renderer : Renderer) (draft : Draft) (legacy : Bool) (reached count : Nat) :
    Prop :=
  draft.PrefixFits renderer (draft.tailOmitted reached) count
    (if legacy then runTokens (prefixItems renderer.toSanitizer draft count)
      else draft.tailTokens renderer.toSanitizer reached (reached - count))

/-- The loop over the tail keeps so many of the reached: the last prefix
that fits. -/
structure Draft.Keeps (renderer : Renderer) (draft : Draft) (legacy : Bool)
    (reached kept : Nat) : Prop where
  le : kept ≤ reached
  fits : 0 < kept → draft.TailFits renderer legacy reached kept
  drops : ∀ count, kept < count → count ≤ reached → ¬draft.TailFits renderer legacy reached count

section Down

variable {renderer : Renderer} {draft : Draft} {omittedOf : OmissionPhase → List OmittedEntry}

theorem omissions_of_ne_nil {items : List ComposedPackItem} (h : items ≠ []) (excluded : Nat) :
    draft.omissions items excluded = draft.staticOmitted
      ++ if 0 < excluded then [omission "budget_exceeded"] else [] := by
  unfold Draft.omissions
  dsimp only
  rw [if_neg]
  rw [Bool.and_eq_true, List.isEmpty_iff]
  exact fun hboth => h hboth.1

theorem DraftAccepted.tailOmitted (hdraft : DraftAccepted renderer draft) (reached : Nat) :
    OmittedAccepted renderer.toUnicode (draft.tailOmitted reached) := by
  refine hdraft.omitted.append ?_
  split
  · exact budgetExceeded_accepted _
  · exact fun _ h => nomatch h

theorem Draft.Reaches.tailFits_all (h : draft.Reaches renderer draft.visible.length)
    (hpos : 0 < draft.visible.length) (legacy : Bool) :
    draft.TailFits renderer legacy draft.visible.length draft.visible.length := by
  have hfits := h.fits _ hpos le_rfl
  unfold Draft.TailFits Draft.tailOmitted
  rw [if_neg (Nat.lt_irrefl _), List.append_nil, Nat.sub_self, Draft.tailTokens, Draft.tokensAfter,
    if_neg (Nat.lt_irrefl _), ite_self]
  exact hfits

theorem dropTail_reaches (hdraft : DraftAccepted renderer draft) (legacy : Bool) {reached : Nat}
    (hreaches : draft.Reaches renderer reached)
    (htail : omittedOf (.tail false) = draft.tailOmitted reached) {count : Nat}
    {selection : Selection} (hcount : count ≤ reached)
    (haccounted : Accounted renderer draft omittedOf count selection)
    (hrunning : selection.runningItemTokens
      = draft.tailTokens renderer.toSanitizer reached (reached - count))
    (hexcluded : selection.budgetExcluded = draft.visible.length - count)
    (hdropped : count < reached → reached < draft.visible.length)
    (hdrops : ∀ k, count < k → k ≤ reached → ¬draft.TailFits renderer legacy reached k) :
    ∃ selection' kept, dropTail renderer draft legacy count selection = .ok selection'
      ∧ draft.Keeps renderer legacy reached kept
      ∧ selection'.items = prefixItems renderer.toSanitizer draft kept
      ∧ selection'.budgetExcluded = draft.visible.length - kept := by
  induction count generalizing selection with
  | zero =>
      exact ⟨selection, 0, rfl, ⟨Nat.zero_le _, fun h => absurd h (Nat.lt_irrefl 0), hdrops⟩,
        haccounted.items, hexcluded⟩
  | succ count ih =>
      have hlength := hreaches.le
      have hlt : count < draft.visible.length := by omega
      have hne := @prefixItems_ne_nil draft renderer.toSanitizer _ (Nat.succ_pos count) hlt
      have hempty : selection.items.isEmpty = false := by
        rw [haccounted.items]
        simpa [List.isEmpty_iff] using hne
      have homissions : draft.omissions selection.items selection.budgetExcluded
          = draft.tailOmitted reached := by
        rw [omissions_of_ne_nil (by rw [haccounted.items]; exact hne), hexcluded,
          Draft.tailOmitted]
        congr 1
        rcases Nat.lt_or_ge reached draft.visible.length with hshort | hall
        · rw [if_pos (by omega), if_pos hshort]
        · have hsame : count + 1 = reached := by
            by_contra hne'
            have := hdropped (by omega)
            omega
          rw [if_neg (by omega), if_neg (by omega)]
      obtain ⟨estimate, anchor, floors, hquick, hquickAccounted, hiff⟩ :=
        haccounted.quickEstimate hdraft legacy (.tail false)
          (by rw [htail]; exact hdraft.tailOmitted reached) (.inl hne) selection.runningItemTokens
      rw [htail, hrunning] at hiff
      rw [htail] at hquick
      rw [dropTail, hempty, homissions, hquick]
      change ∃ selection' kept, (if estimate ≤ _ then _ else _) = Except.ok selection' ∧ _
      split
      · rename_i hle
        exact ⟨_, count + 1, rfl, ⟨hcount, fun _ => hiff.mp hle, hdrops⟩, haccounted.items,
          hexcluded⟩
      · rename_i hover
        have hnot : ¬draft.TailFits renderer legacy reached (count + 1) :=
          fun hfits => hover (hiff.mpr hfits)
        have hshort : reached < draft.visible.length := by
          by_contra hall
          obtain rfl : reached = draft.visible.length := by omega
          rcases Nat.lt_or_ge (count + 1) draft.visible.length with hless | hge
          · exact absurd (hdropped hless) (Nat.lt_irrefl _)
          · obtain heq : count + 1 = draft.visible.length := by omega
            rw [heq] at hnot
            exact hnot (hreaches.tailFits_all (by omega) legacy)
        obtain ⟨hpop, hpopRunning⟩ := hquickAccounted.pop hlt
        refine ih (by omega) ⟨hpop.items, hpop.deltas, hpop.bytes, hpop.anchor, hpop.floors⟩ ?_ ?_
          (fun _ => hshort) ?_
        · change Selection.runningItemTokens (Selection.pop _) = _
          rw [hpopRunning]
          change subNumber selection.runningItemTokens _ = _
          have hsteps : reached - count = reached - (count + 1) + 1 := by omega
          have hindex : reached - (reached - (count + 1)) - 1 = count := by omega
          rw [hrunning, hsteps, Draft.tailTokens, hindex]
        · change draft.visible.length - (Selection.pop _).items.length = _
          rw [hpop.items, prefixItems_length _ hlt.le]
        · intro k hk hle
          rcases Nat.lt_or_ge (count + 1) k with hgt | hge
          · exact hdrops k hgt hle
          · obtain rfl : k = count + 1 := by omega
            exact hnot

end Down

/-! ## The selected prefix -/

def Draft.finalOmitted (sanitizer : Sanitizer) (draft : Draft) (kept : Nat) : List OmittedEntry :=
  draft.omissions (prefixItems sanitizer draft kept) (draft.visible.length - kept)

def Draft.finalContents (sanitizer : Sanitizer) (draft : Draft) (kept : Nat) : PackContents :=
  draft.contentsWith (prefixItems sanitizer draft kept) (draft.finalOmitted sanitizer kept)

theorem accounted_start (renderer : Renderer) (draft : Draft)
    (omittedOf : OmissionPhase → List OmittedEntry) :
    Accounted renderer draft omittedOf 0 {} :=
  ⟨rfl, rfl, rfl, (fun _ h => nomatch h), (fun _ _ h => nomatch h)⟩

/-- The omissions of each phase, once it is known how far the loop over
the candidates reached. -/
def Draft.omittedOf (draft : Draft) (reached : Nat) : OmissionPhase → List OmittedEntry
  | .static => draft.staticOmitted
  | .tail _ => draft.tailOmitted reached

theorem composeDraft_eq {renderer : Renderer} {draft : Draft}
    (hdraft : DraftAccepted renderer draft) (legacy : Bool) :
    ∃ reached kept, draft.Reaches renderer reached ∧ draft.Keeps renderer legacy reached kept
      ∧ composeDraft renderer draft legacy
        = finalize renderer (draft.finalContents renderer.toSanitizer kept) := by
  have hup : ∀ reached, ∃ selection reached',
      selectItems renderer draft legacy draft.visible {} = .ok selection
        ∧ draft.Reaches renderer reached'
        ∧ Reached renderer draft (draft.omittedOf reached) reached' selection := fun reached =>
    selectItems_reaches hdraft legacy rfl (Nat.zero_le _) (accounted_start renderer draft _) rfl rfl
      fun k hpos hk => absurd hpos (by omega)
  -- how far the loop reaches is known only now, and its caches fit that
  obtain ⟨selection, reached, hselect, hreaches, _⟩ := hup 0
  obtain ⟨selection', reached', hselect', hreaches', hreached⟩ := hup reached
  obtain rfl := Except.ok.inj (hselect.symm.trans hselect')
  obtain rfl := hreaches.unique hreaches'
  obtain ⟨selection', kept, hdrop, hkeeps, hitems, hexcluded⟩ :=
    dropTail_reaches hdraft legacy hreaches rfl le_rfl hreached.accounted
      (by rw [hreached.running, Nat.sub_self, Draft.tailTokens]) hreached.excluded
      (fun h => absurd h (Nat.lt_irrefl _)) fun k hk hle => absurd hk (by omega)
  refine ⟨reached, kept, hreaches, hkeeps, ?_⟩
  have hlength : selection.items.length = reached := by
    rw [hreached.accounted.items, prefixItems_length _ hreaches.le]
  rw [composeDraft, hselect]
  change (dropTail renderer draft legacy selection.items.length selection >>= _) = _
  rw [hlength, hdrop]
  change finalize renderer (draft.contentsWith selection'.items
    (draft.omissions selection'.items selection'.budgetExcluded)) = _
  rw [hitems, hexcluded]
  rfl

section Final

variable {renderer : Renderer} {draft : Draft}

theorem DraftAccepted.finalOmitted (hdraft : DraftAccepted renderer draft) (kept : Nat) :
    OmittedAccepted renderer.toUnicode (draft.finalOmitted renderer.toSanitizer kept)
      ∧ (prefixItems renderer.toSanitizer draft kept ≠ []
        ∨ draft.finalOmitted renderer.toSanitizer kept ≠ []) := by
  have hmark : OmittedAccepted renderer.toUnicode
      (if 0 < draft.visible.length - kept then [omission "budget_exceeded"] else []) := by
    split
    · exact budgetExceeded_accepted _
    · exact fun _ h => nomatch h
  unfold Draft.finalOmitted Draft.omissions
  dsimp only
  generalize (if 0 < draft.visible.length - kept then [omission "budget_exceeded"] else []) = mark
    at hmark ⊢
  split
  · exact ⟨noItems_accepted _, .inr (List.cons_ne_nil _ _)⟩
  · rename_i hsome
    refine ⟨hdraft.omitted.append hmark, ?_⟩
    · by_contra hnone
      rw [not_or, not_not, not_not] at hnone
      rw [hnone.1, hnone.2] at hsome
      exact hsome rfl

theorem finalize_estimate {pack : PackContents} {estimate : Nat}
    (h : estimatePackTokens renderer pack = .ok estimate) :
    (estimate ≤ pack.budgetTokens ∧ ∃ composed, finalize renderer pack = .ok composed
        ∧ composed.toPackContents = pack)
      ∨ (pack.budgetTokens < estimate
        ∧ finalize renderer pack = .error (refuseOverhead estimate pack.budgetTokens)) := by
  rcases Nat.lt_or_ge pack.budgetTokens estimate with hover | hle
  · refine .inr ⟨hover, ?_⟩
    rw [finalize, h]
    change (assertThat _ _ >>= _) = _
    rw [assertThat, if_neg (by simpa using hover)]
    rfl
  · have hfinal : ∃ composed, finalize renderer pack = .ok composed := by
      refine ⟨_, bind_ok.mpr ⟨estimate, h, bind_unit_ok.mpr ⟨?_, rfl⟩⟩⟩
      rw [assertThat_ok]
      exact decide_eq_true hle
    obtain ⟨composed, hcomposed⟩ := hfinal
    exact .inl ⟨hle, composed, hcomposed, (finalize_honest hcomposed).1⟩

theorem finalize_finalContents (hdraft : DraftAccepted renderer draft) (kept : Nat) :
    ∃ estimate, Estimates
        (draft.prefixSize renderer.toSanitizer (draft.finalOmitted renderer.toSanitizer kept) kept)
        (addNumber (runTokens (prefixItems renderer.toSanitizer draft kept))
          (draft.envelopeTokens renderer (draft.finalOmitted renderer.toSanitizer kept)))
        draft.contents.budgetTokens estimate
      ∧ ((estimate ≤ draft.contents.budgetTokens ∧ ∃ composed,
          finalize renderer (draft.finalContents renderer.toSanitizer kept) = .ok composed
            ∧ composed.toPackContents = draft.finalContents renderer.toSanitizer kept)
        ∨ draft.contents.budgetTokens < estimate
          ∧ finalize renderer (draft.finalContents renderer.toSanitizer kept)
            = .error (refuseOverhead estimate draft.contents.budgetTokens)) := by
  obtain ⟨haccepted, hne⟩ := hdraft.finalOmitted kept
  obtain ⟨estimate, hestimate, hestimates⟩ := hdraft.estimate haccepted kept hne
  have hfinal := @finalize_estimate renderer (draft.finalContents renderer.toSanitizer kept) estimate
    hestimate
  have hbudget : (draft.finalContents renderer.toSanitizer kept).budgetTokens
      = draft.contents.budgetTokens := rfl
  rw [hbudget] at hfinal
  exact ⟨estimate, hestimates, hfinal⟩

end Final

end Asimposium