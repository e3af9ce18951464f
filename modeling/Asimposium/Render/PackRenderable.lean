import Asimposium.Render.PackDraft

/-!
# When a composition renders

The assertions do not ask everything the renderer asks: the notes, the
omissions, the actions and the slow mode of an input reach it unchecked.
Clean contents render; a composition whose envelope the renderer refuses
fails at its first rendering (`composeDraft_unclean`), with an error that
is not the composer's own.
-/

namespace Asimposium

open Text Json ExceptRun Settle

/-! ## What the assertions leave to the renderer -/

/-- What the renderer asks of contents and the assertions do not: no
control comment in an omission, an action or a note, and a slow mode of its
schema. -/
structure CleanContents (renderer : Renderer) (pack : PackContents) : Prop where
  omitted : ∀ entry ∈ pack.omitted,
    hasAsimpControlComment renderer.toUnicode entry.reason = false
      ∧ ∀ detail ∈ entry.detail, hasAsimpControlComment renderer.toUnicode detail = false
  nextActions : ∀ action ∈ pack.nextActions,
    hasAsimpControlComment renderer.toUnicode action.url = false
      ∧ hasAsimpControlComment renderer.toUnicode action.why = false
  degraded : ∀ note ∈ pack.degraded, hasAsimpControlComment renderer.toUnicode note = false
  slowMode : (pack.promotionBudget.bind (·.slowMode)).all (·.valid renderer) = true

section Checked

variable {renderer : Renderer} {pack : PackContents}

theorem structuralText_plain {unicode : Unicode} {t : Text}
    (hscalar : firstUnpairedUtf16SurrogateOffset t = none)
    (hplain : ∀ u ∈ t, u ≠ 0 ∧ u ≠ unit '<' ∧ u ≠ unit '`') : StructuralText unicode t :=
  ⟨⟨⟨hscalar, fun h => (hplain _ h).1 rfl⟩,
    hasAsimpControlComment_plain unicode fun h => (hplain _ h).2.1 rfl⟩,
    fun h => (hplain _ h).2.2 rfl⟩

theorem ActionMethod.spelling_prose (unicode : Unicode) (method : ActionMethod) :
    ProseText unicode method.spelling := by
  cases method with
  | GET => exact (structuralText_plain (by decide) (by decide)).1
  | POST => exact (structuralText_plain (by decide) (by decide)).1

theorem packPreamble_structural (unicode : Unicode) : StructuralText unicode packPreamble :=
  structuralText_plain (by decide +kernel) (by decide +kernel)

theorem ContentsChecked.accepted (h : ContentsChecked pack) (hclean : CleanContents renderer pack)
    (hitems : pack.items = []) (homitted : pack.omitted ≠ []) : PackAccepted renderer pack where
  viewer := h.viewer
  provenance := h.provenance
  slowMode := hclean.slowMode
  wellSpelled :=
    { header := by
        intro t ht
        simp only [packProjection, List.mem_cons, List.not_mem_nil, or_false] at ht
        rcases ht with rfl | rfl | rfl | rfl
        · exact (h.header pack.schema (by simp)).1
        · exact ⟨by decide, by decide⟩
        · exact (h.header pack.problem (by simp)).1
        · exact (h.header pack.profile (by simp)).1
      title := structuralText_plain (t := text "ASImposium pack") (by decide) (by decide)
      preamble := by
        change StructuralText _ pack.preamble
        rw [h.preamble]
        exact packPreamble_structural _
      session := by
        rintro t ⟨⟩
        exact (h.header pack.session (by simp)).1
      permissions := by
        rintro viewer ⟨⟩ t ht
        unfold toProjectionViewer at ht
        split at ht
        · cases ht
        · exact h.permissions t ht
      items := by
        intro item hitem
        simp [packProjection, hitems] at hitem
      omitted := fun entry hentry =>
        ⟨⟨(h.omitted entry hentry).1, (hclean.omitted entry hentry).1⟩, fun detail hdetail =>
          ⟨(h.omitted entry hentry).2 detail hdetail, (hclean.omitted entry hentry).2 detail hdetail⟩⟩
      nextActions := fun action haction =>
        ⟨action.method.spelling_prose _,
          ⟨(h.nextActions action haction).url.1, (hclean.nextActions action haction).1⟩,
          (h.nextActions action haction).why, (hclean.nextActions action haction).2⟩
      degraded := fun note hnote => ⟨h.degraded note hnote, hclean.degraded note hnote⟩ }
  notEmpty := .inr homitted
  cursor := h.cursor
  budget := (budget_pos h.budget).2
  headers := by
    intro header hheader
    simp only [Projection.headerValues, packProjection, Option.toList, List.map_cons, List.map_nil,
      List.cons_append, List.nil_append, List.mem_cons, List.not_mem_nil, or_false] at hheader
    rcases hheader with rfl | rfl | rfl | rfl | rfl
    · exact (h.header pack.schema (by simp)).2
    · decide
    · exact (h.header pack.problem (by simp)).2
    · exact (h.header pack.profile (by simp)).2
    · exact (h.header pack.session (by simp)).2
  paths := fun action haction => (h.nextActions action haction).url.2
  notices := by
    intro item hitem
    simp [hitems] at hitem
  items := by
    intro item hitem
    simp [hitems] at hitem
  tokens := by
    intro item hitem
    simp [hitems] at hitem
  ids := by simp [hitems]

theorem prepared_clean {estimate : Nat} {prepared : PreparedProjection}
    (h : prepareProjection renderer (packProjection pack estimate) = .ok prepared) :
    CleanContents renderer pack := by
  obtain ⟨projection, _, _, hsnapshot, henvelope, _, _, _⟩ := prepareProjection_ok.mp h
  obtain ⟨hsnapshotAccepted, provenance, _, rfl⟩ := snapshotProjection_ok.mp hsnapshot
  have hspelled := henvelope.wellSpelled
  exact
    { omitted := fun entry hentry => ⟨(hspelled.omitted entry hentry).1.2, fun detail hdetail =>
        ((hspelled.omitted entry hentry).2 detail hdetail).2⟩
      nextActions := fun action haction => ⟨(hspelled.nextActions action haction).2.1.2,
        (hspelled.nextActions action haction).2.2.2⟩
      degraded := fun note hnote => (hspelled.degraded note hnote).2
      slowMode := hsnapshotAccepted.slowMode }

end Checked

/-! ## The first rendering -/

section First

variable {renderer : Renderer} {pack : PackContents}

theorem renderedFaceTokenEstimate_first (hbudget : 1 ≤ pack.budgetTokens)
    {error : RenderContractError}
    (h : prepareProjection renderer (packProjection pack 1) = .error error) :
    renderedFaceTokenEstimate renderer pack 0 = .error (.unrenderable error) := by
  have hfirst : renderedBytes renderer (packProjection pack 1) = .error (.unrenderable error) := by
    rw [renderedBytes, h]
  unfold renderedFaceTokenEstimate
  dsimp only
  rw [if_neg (by omega), settle_succ]
  change (Except.map _ (renderedBytes renderer (packProjection pack 1))).bind _ = _
  rw [hfirst]
  rfl

theorem estimatePackTokens_unclean (hbudget : 1 ≤ pack.budgetTokens)
    (hunclean : ¬CleanContents renderer (emptyPack pack)) :
    ∃ error, renderedFaceTokenEstimate renderer (emptyPack pack) 0 = .error (.unrenderable error)
      ∧ estimatePackTokens renderer pack = .error (.unrenderable error) := by
  cases hprepared : prepareProjection renderer (packProjection (emptyPack pack) 1) with
  | ok prepared => exact absurd (prepared_clean hprepared) hunclean
  | error error =>
      have hfirst := @renderedFaceTokenEstimate_first renderer (emptyPack pack) hbudget _ hprepared
      refine ⟨error, hfirst, ?_⟩
      rw [estimatePackTokens, hfirst]
      rfl

theorem finalize_unclean (hbudget : 1 ≤ pack.budgetTokens)
    (hunclean : ¬CleanContents renderer (emptyPack pack)) :
    ∃ error, renderedFaceTokenEstimate renderer (emptyPack pack) 0 = .error (.unrenderable error)
      ∧ finalize renderer pack = .error (.unrenderable error) := by
  obtain ⟨error, hfirst, hestimate⟩ := estimatePackTokens_unclean hbudget hunclean
  refine ⟨error, hfirst, ?_⟩
  rw [finalize, hestimate]
  rfl

end First

/-! ### Omissions of the composer's own -/

def CleanOmitted (unicode : Unicode) (omitted : List OmittedEntry) : Prop :=
  ∀ entry ∈ omitted, hasAsimpControlComment unicode entry.reason = false
    ∧ ∀ detail ∈ entry.detail, hasAsimpControlComment unicode detail = false

theorem CleanOmitted.append {unicode : Unicode} {omitted omitted' : List OmittedEntry} :
    CleanOmitted unicode (omitted ++ omitted')
      ↔ CleanOmitted unicode omitted ∧ CleanOmitted unicode omitted' := List.forall_mem_append

theorem OmittedAccepted.clean {unicode : Unicode} {omitted : List OmittedEntry}
    (h : OmittedAccepted unicode omitted) : CleanOmitted unicode omitted := fun entry hentry =>
  ⟨(h entry hentry).1.2, fun detail hdetail => ((h entry hentry).2 detail hdetail).2⟩

theorem CleanOmitted.marked {unicode : Unicode} {omitted : List OmittedEntry} :
    CleanOmitted unicode (markedOmitted omitted) ↔ CleanOmitted unicode omitted := by
  unfold markedOmitted
  split
  · rename_i hempty
    rw [List.isEmpty_iff.mp hempty]
    exact iff_of_true (budgetExceeded_accepted unicode).clean fun _ h => nomatch h
  · rfl

/-! ### Drafts -/

section Drafts

variable {renderer : Renderer} {draft : Draft}

theorem DraftChecked.accepted (h : DraftChecked renderer draft)
    (hclean : CleanContents renderer draft.contents) : DraftAccepted renderer draft where
  envelope := by
    have hmark := budgetExceeded_accepted renderer.toUnicode
    refine ContentsChecked.accepted ?_ ⟨hmark.clean, hclean.nextActions, hclean.degraded,
      hclean.slowMode⟩ rfl (List.cons_ne_nil _ _)
    exact { h.contents with
            omitted := fun entry hentry => ⟨(hmark entry hentry).1.1, fun detail hdetail =>
              ((hmark entry hentry).2 detail hdetail).1⟩ }
  omitted := fun entry hentry =>
    ⟨⟨(h.contents.omitted entry hentry).1, (hclean.omitted entry hentry).1⟩,
      fun detail hdetail => ⟨(h.contents.omitted entry hentry).2 detail hdetail,
        (hclean.omitted entry hentry).2 detail hdetail⟩⟩
  candidates := h.candidates
  ids := h.ids

theorem emptyPack_clean {items : List ComposedPackItem} {omitted : List OmittedEntry}
    (homitted : CleanOmitted renderer.toUnicode omitted
      ↔ CleanOmitted renderer.toUnicode draft.staticOmitted) :
    CleanContents renderer (emptyPack (draft.contentsWith items omitted))
      ↔ CleanContents renderer draft.contents := by
  constructor
  · intro h
    exact ⟨homitted.mp (CleanOmitted.marked.mp h.omitted), h.nextActions, h.degraded, h.slowMode⟩
  · intro h
    exact ⟨CleanOmitted.marked.mpr (homitted.mpr h.omitted), h.nextActions, h.degraded,
      h.slowMode⟩

theorem omissions_nil_clean : CleanOmitted renderer.toUnicode (draft.omissions [] 0)
    ↔ CleanOmitted renderer.toUnicode draft.staticOmitted := by
  unfold Draft.omissions
  dsimp only
  rw [if_neg (Nat.lt_irrefl 0), List.append_nil]
  split
  · rename_i hempty
    rw [Bool.and_eq_true] at hempty
    rw [List.isEmpty_iff.mp hempty.2]
    exact iff_of_true (noItems_accepted _).clean fun _ h => nomatch h
  · rfl

/-- A composition from a draft that is not clean fails at its first
rendering, whatever the estimator. -/
theorem composeDraft_unclean (h : DraftChecked renderer draft)
    (hunclean : ¬CleanContents renderer draft.contents) :
    ∃ error, ∀ legacy, composeDraft renderer draft legacy = .error (.unrenderable error) := by
  have hbudget := (budget_pos h.contents.budget).1
  cases hvisible : draft.visible with
  | nil =>
      obtain ⟨error, _, herror⟩ := @finalize_unclean renderer
        (draft.contentsWith [] (draft.omissions [] 0)) hbudget
        fun hclean => hunclean ((emptyPack_clean omissions_nil_clean).mp hclean)
      refine ⟨error, fun legacy => ?_⟩
      rw [composeDraft, hvisible]
      exact herror
  | cons candidate rest =>
      obtain ⟨error, hfirst, _⟩ := @estimatePackTokens_unclean renderer
        (draft.contentsWith [] draft.staticOmitted) hbudget
        fun hclean => hunclean ((emptyPack_clean Iff.rfl).mp hclean)
      rw [emptyPack_contentsWith] at hfirst
      have hestimate : ∀ items omitted, markedOmitted omitted = markedOmitted draft.staticOmitted →
          estimatePackTokens renderer (draft.contentsWith items omitted)
            = .error (.unrenderable error) := by
        intro items omitted hmarked
        rw [estimatePackTokens, emptyPack_contentsWith, hmarked, hfirst]
        rfl
      refine ⟨error, fun legacy => ?_⟩
      -- the first candidate is estimated under the static omissions
      have hquick : ∀ selection : Selection, selection.envelopeFloors = [] →
          ∀ tokenSum, quickEstimate renderer draft legacy .static draft.staticOmitted tokenSum
            selection = .error (.unrenderable error) := by
        intro selection hfloors tokenSum
        cases legacy with
        | true =>
            rw [quickEstimate, if_pos rfl, hestimate _ _ rfl]
            rfl
        | false =>
            rw [quickEstimate, if_neg Bool.false_ne_true, envelopeFloorTokens, hfloors,
              List.lookup_nil]
            dsimp only
            rw [hestimate _ _ (markedOmitted_marked _)]
            rfl
      have hcandidate := h.candidates candidate (by rw [hvisible]; exact List.mem_cons_self ..)
      rw [composeDraft, hvisible, selectItems, composeItem_eq hcandidate]
      change ((quickEstimate renderer draft legacy .static draft.staticOmitted _
        (Selection.push {} _ _) >>= _) >>= _) = _
      rw [hquick _ rfl]
      rfl

end Drafts

/-! ### Inputs -/

section Inputs

theorem omissionOf_clean {unicode : Unicode} {count : Nat} {reason : String}
    (h : unit '<' ∉ text reason) : CleanOmitted unicode (omissionOf count reason) := by
  unfold omissionOf
  split
  · intro entry hentry
    obtain rfl := List.mem_singleton.mp hentry
    exact ⟨hasAsimpControlComment_plain unicode h, fun _ h => nomatch h⟩
  · exact fun _ h => nomatch h

variable {renderer : Renderer} {input : PackComposerInput} {viewer : PackViewer}
  {provenance : Option (Option SessionProvenance)} {budgetTokens : Nat} {degraded : List Text}

theorem draftOf_clean_omitted (hviewer : assertViewer input.viewer = .ok viewer)
    (unicode : Unicode) :
    CleanOmitted unicode (draftOf (contentsOf viewer input provenance budgetTokens degraded)
        input).contents.omitted
      ↔ CleanOmitted unicode input.remainingOmitted := by
  change CleanOmitted unicode (List.filter (staysOmitted (composedSections input.profile
      (draftOf (contentsOf viewer input provenance budgetTokens degraded) input).visible)) _
    ++ _ ++ _ ++ _ ++ _) ↔ _
  rw [CleanOmitted.append, CleanOmitted.append, CleanOmitted.append, CleanOmitted.append,
    draftOf_stays hviewer]
  have hlisted : CleanOmitted unicode ((listedOmitted input.omitted).filter
      (staysOmitted (composedSections input.profile input.visible)))
        ↔ CleanOmitted unicode input.remainingOmitted := by
    simp only [CleanOmitted, List.mem_filter, listedOmitted, List.mem_insertionSort,
      PackComposerInput.remainingOmitted]
  rw [hlisted]
  exact ⟨fun h => h.1.1.1.1, fun h => ⟨⟨⟨⟨h, omissionOf_clean (by decide)⟩,
    omissionOf_clean (by decide)⟩, omissionOf_clean (by decide)⟩, omissionOf_clean (by decide)⟩⟩

end Inputs

/-- What an input must keep clean: the notes of every pack, and what a pack
for its reader advertises and omits. -/
structure CleanInput (renderer : Renderer) (input : PackComposerInput) : Prop where
  degraded : ∀ notes ∈ input.degraded, ∀ note ∈ notes,
    hasAsimpControlComment renderer.toUnicode note = false
  slowMode : (input.promotionBudget.bind (·.slowMode)).all (·.valid renderer) = true
  omitted : input.isOutsider = false → CleanOmitted renderer.toUnicode input.remainingOmitted
  nextActions : input.isOutsider = false → ∀ action ∈ input.advertised,
    hasAsimpControlComment renderer.toUnicode action.url = false
      ∧ hasAsimpControlComment renderer.toUnicode action.why = false

section Inputs

variable {renderer : Renderer} {input : PackComposerInput}

theorem assertDegraded_clean {notes : List Text} (h : assertDegraded input.degraded = .ok notes)
    (unicode : Unicode) : (∀ note ∈ notes, hasAsimpControlComment unicode note = false)
      ↔ ∀ given ∈ input.degraded, ∀ note ∈ given, hasAsimpControlComment unicode note = false := by
  have hmem := (assertDegraded_ok h).2
  constructor
  · intro hall given hgiven note hnote
    exact hall note ((hmem note).mpr ⟨given, hgiven, hnote⟩)
  · intro hall note hnote
    obtain ⟨given, hgiven, hmember⟩ := (hmem note).mp hnote
    exact hall given hgiven note hmember

theorem Outside.clean_iff {contents : PackContents} (h : Outside input contents) :
    CleanContents renderer contents ↔ CleanInput renderer input := by
  obtain ⟨houtsider, viewer, provenance, budgetTokens, degraded, _, hcommon, rfl⟩ := h
  have hdegraded := assertDegraded_clean hcommon.degraded renderer.toUnicode
  have hmember : ∀ {P : Prop}, input.isOutsider = false → P := fun hfalse => by
    rw [houtsider] at hfalse
    cases hfalse
  constructor
  · intro hclean
    exact ⟨hdegraded.mp hclean.degraded, hclean.slowMode, hmember, hmember⟩
  · intro hclean
    exact ⟨(omission_accepted _ ⟨by decide, by decide⟩ (by decide)).clean, fun _ h => (nomatch h),
      hdegraded.mpr hclean.degraded, hclean.slowMode⟩

theorem Drafted.clean_iff {draft : Draft} (h : Drafted renderer input draft) :
    CleanContents renderer draft.contents ↔ CleanInput renderer input := by
  obtain ⟨hmember, viewer, provenance, budgetTokens, degraded, hviewer, hcommon, hdraft⟩ := h
  obtain ⟨_, _, _, rfl⟩ := draftPack_ok.mp hdraft
  have hdegraded := assertDegraded_clean hcommon.degraded renderer.toUnicode
  have homitted := @draftOf_clean_omitted input viewer provenance budgetTokens degraded hviewer
    renderer.toUnicode
  constructor
  · intro hclean
    refine ⟨hdegraded.mp hclean.degraded, hclean.slowMode, fun _ => homitted.mp hclean.omitted, ?_⟩
    intro _ action haction
    exact hclean.nextActions _ ((mem_draftOf_nextActions hviewer _).mpr ⟨action, haction, rfl⟩)
  · intro hclean
    refine ⟨homitted.mpr (hclean.omitted hmember), ?_, hdegraded.mpr hclean.degraded,
      hclean.slowMode⟩
    intro action haction
    obtain ⟨given, hgiven, rfl⟩ := (mem_draftOf_nextActions hviewer action).mp haction
    exact hclean.nextActions hmember given hgiven

end Inputs

/-! ## Compositions -/

section Compositions

variable {renderer : Renderer} {input : PackComposerInput}

theorem Outside.checked {contents : PackContents} (h : Outside input contents) :
    ContentsChecked contents ∧ contents.items = [] ∧ contents.omitted ≠ []
      ∧ emptyPack contents = contents := by
  obtain ⟨_, viewer, provenance, budgetTokens, degraded, hviewer, hcommon, rfl⟩ := h
  have hpermissions : ∀ t ∈ viewer.effectivePermissions, ScalarText t := by
    obtain ⟨hscalar, rfl⟩ := assertViewer_ok hviewer
    exact fun t ht => (hscalar t (mem_sortedSet.mp ht)).2
  refine ⟨hcommon.checked hpermissions (List.forall_mem_nil _) ?_, rfl, List.cons_ne_nil _ _, rfl⟩
  exact @omissionOf_scalar 1 "no_membership" ⟨by decide, by decide⟩

theorem refuses_finalize {contents : PackContents} (h : PackAccepted renderer contents)
    (hempty : emptyPack contents = contents) : Refuses (finalize renderer contents) := by
  have hitems : contents.items = [] := by rw [← hempty, emptyPack]
  have hrendered : ∃ envelope, renderedFaceTokenEstimate renderer contents 0 = .ok envelope :=
    renderedFaceTokenEstimate_accepted h fun _ => by
      rw [hitems, itemTokens]
      exact le_rfl
  obtain ⟨envelope, henvelope⟩ := hrendered
  rw [← hempty] at henvelope
  obtain ⟨estimate, hestimate, _⟩ := estimatePackTokens_accepted h henvelope
  rw [finalize, hestimate]
  exact refuses_bind (refuses_ok estimate) fun _ _ =>
    refuses_bind (refuses_assertThat _ _ _) fun _ _ => refuses_ok _

theorem refuses_composeDraft {draft : Draft} (h : DraftAccepted renderer draft) (legacy : Bool) :
    Refuses (composeDraft renderer draft legacy) := by
  obtain ⟨_, kept, _, _, hcompose⟩ := composeDraft_eq h legacy
  rw [hcompose]
  obtain ⟨estimate, _, ⟨_, pack, hpack, _⟩ | ⟨_, hover⟩⟩ := finalize_finalContents h kept
  · rw [hpack]
    exact refuses_ok _
  · rw [hover]
    exact refuses_error _ _

/-- A composition ends as the composer's own refusal or in a pack the
renderer prepares. -/
def EndsRenderable (renderer : Renderer) (composed : Except PackFailure ComposedPack) : Prop :=
  Refuses composed ∧ ∀ pack, composed = .ok pack →
    ∃ prepared, prepareProjection renderer (composedPackToProjection pack) = .ok prepared

theorem composed_prepares {legacy : Bool} {pack : ComposedPack}
    (h : composePackWithSelectionEstimator renderer input legacy = .ok pack) :
    ∃ prepared, prepareProjection renderer (composedPackToProjection pack) = .ok prepared := by
  obtain ⟨contents, hfinal, _⟩ := composed_finalized h
  obtain ⟨_, _, prepared, hprepared, _⟩ := finalize_honest hfinal
  exact ⟨prepared, hprepared⟩

/-- A composition ends renderable exactly when an assertion refuses its
input or the input is clean. -/
theorem composePack_renderable_iff (renderer : Renderer) (input : PackComposerInput) :
    EndsRenderable renderer (composePack renderer input)
      ↔ (PackAdmitted renderer input → CleanInput renderer input) := by
  have hends : EndsRenderable renderer (composePack renderer input)
      ↔ Refuses (composePack renderer input) :=
    ⟨fun h => h.1, fun h => ⟨h, fun _ hpack => composed_prepares hpack⟩⟩
  rw [hends]
  rcases compose_cases renderer input with ⟨hnone, error, hrefused⟩ | ⟨contents, houtside, hfinal⟩
    | ⟨draft, hdrafted, hcompose⟩
  · refine iff_of_true ?_ fun hadmitted => absurd hadmitted hnone
    intro failure hfailure
    rw [composePack, hrefused] at hfailure
    cases hfailure
    exact ⟨error, rfl⟩
  · obtain ⟨hchecked, hitems, homitted, hempty⟩ := houtside.checked
    rw [composePack, hfinal, ← houtside.clean_iff]
    constructor
    · intro hrefuses _
      by_contra hunclean
      rw [← hempty] at hunclean
      obtain ⟨error, _, herror⟩ := finalize_unclean (budget_pos hchecked.budget).1 hunclean
      obtain ⟨_, hrefused⟩ := hrefuses _ herror
      cases hrefused
    · intro hclean
      exact refuses_finalize
        (hchecked.accepted (hclean (.inl ⟨contents, houtside⟩)) hitems homitted) hempty
  · have hchecked := hdrafted.checked
    rw [composePack, hcompose, ← hdrafted.clean_iff]
    constructor
    · intro hrefuses _
      by_contra hunclean
      obtain ⟨error, herror⟩ := composeDraft_unclean hchecked hunclean
      obtain ⟨_, hrefused⟩ := hrefuses _ (herror false)
      cases hrefused
    · intro hclean
      exact refuses_composeDraft (hchecked.accepted (hclean (.inr ⟨draft, hdrafted⟩))) false

end Compositions

/-- A composition that ended in an error of the renderer. -/
def isUnrenderable : Except PackFailure ComposedPack → Bool
  | .error (.unrenderable _) => true
  | _ => false

def notedInput : PackComposerInput :=
  { sampleInput 800 [] with degraded := some [text "<!-- asimp -->"] }

/-- The composer admits such a note, and the renderer refuses it. -/
theorem composePack_unrenderable_note :
    ¬EndsRenderable asciiRenderer (composePack asciiRenderer notedInput) := by
  rintro ⟨hrefuses, _⟩
  have hunrenderable : isUnrenderable (composePack asciiRenderer notedInput) = true := by
    decide +kernel
  cases hcomposed : composePack asciiRenderer notedInput with
  | ok pack => rw [hcomposed] at hunrenderable; cases hunrenderable
  | error failure =>
      obtain ⟨error, rfl⟩ := hrefuses failure hcomposed
      rw [hcomposed] at hunrenderable
      cases hunrenderable

end Asimposium
