import Asimposium.Render.MarkdownDelimiters

/-!
# Reading a Markdown face

What preparation accepts is printed as `FacePrinted` asks, so a reader of
the whole face finds the renderer's own delimiters, and beside them only
what the title and the preamble, or the reason and the body of a trusted
item, spell together.
-/

namespace Asimposium

open Text Json

/-! ## The renderer's own comments -/

theorem ownComments_append (lines lines' : List FaceLine) :
    ownComments (lines ++ lines') = ownComments lines ++ ownComments lines' :=
  List.filterMap_append

theorem ownComments_textLines (contents : List Text) : ownComments (textLines contents) = [] := by
  induction contents with
  | nil => rfl
  | cons content contents ih => exact ih

theorem ownComments_renderItem (item : PreparedItem) :
    ownComments (renderItem item) = [itemComment item, itemEndComment item] := by
  unfold renderItem
  simp only [ownComments_append, ownComments_textLines, List.append_nil]
  rfl

theorem ownComments_itemLines (items : List PreparedItem) :
    ownComments (itemLines items)
      = items.flatMap fun item => [itemComment item, itemEndComment item] := by
  have hall : ownComments (items.flatMap renderItem)
      = items.flatMap fun item => [itemComment item, itemEndComment item] := by
    induction items with
    | nil => rfl
    | cons item items ih =>
        rw [List.flatMap_cons, ownComments_append, ih, ownComments_renderItem, List.flatMap_cons]
  unfold itemLines
  split
  · rename_i hnone
    rw [hnone]
    exact ownComments_textLines _
  · exact hall

theorem ownComments_markdownFaceLines (sanitizer : Sanitizer) (prepared : PreparedProjection) :
    ownComments (markdownFaceLines sanitizer prepared)
      = [headerComment prepared.projection]
        ++ prepared.items.flatMap (fun item => [itemComment item, itemEndComment item])
        ++ [trailerComment prepared, faceEndComment] := by
  have hbegin : ownComments [.control (headerComment prepared.projection), blankLine]
      = [headerComment prepared.projection] := rfl
  have htrailer : ownComments [.control (trailerComment prepared), blankLine]
      = [trailerComment prepared] := rfl
  have hend : ownComments [.control faceEndComment] = [faceEndComment] := rfl
  unfold markdownFaceLines
  simp only [ownComments_append, ownComments_textLines, ownComments_itemLines, hbegin, htrailer,
    hend, List.append_nil]
  simp only [List.append_assoc, List.singleton_append]

/-! ## What preparation gives the face -/

theorem facePrinted {renderer : Renderer} (hdates : renderer.PlainDates) {raw : Projection}
    {prepared : PreparedProjection} (h : prepareProjection renderer raw = .ok prepared) :
    FacePrinted renderer prepared ∧ prepared.items = raw.items.map (preparedItem renderer.toSanitizer)
      ∧ prepared.projection.title = raw.title ∧ prepared.projection.preamble = raw.preamble := by
  obtain ⟨projection, items, total, hsnapshot, henvelope, hitems, -, rfl⟩ :=
    prepareProjection_ok.mp h
  obtain ⟨haccepted, provenance, -, rfl⟩ := snapshotProjection_ok.mp hsnapshot
  obtain ⟨rfl, -, hlisted⟩ := prepareItems_inv hitems
  have hheader : ∀ header ∈ raw.headerValues, unit '<' ∉ header.2 := fun header hmem =>
    isSafeHeaderValue_plain (henvelope.headers header hmem)
  simp only [Projection.headerValues, List.forall_mem_append, List.forall_mem_cons,
    List.not_mem_nil, false_imp_iff, implies_true, and_true] at hheader
  obtain ⟨⟨hschema, hkind, hproblem, hprofile⟩, hsession⟩ := hheader
  refine ⟨?_, rfl, rfl, rfl⟩
  exact
    { header := by simp [hschema, hkind, hproblem, hprofile]
      session := fun t ht => hsession (text "session", t)
        (List.mem_map.mpr ⟨t, Option.mem_toList.mpr ht, rfl⟩)
      fingerprint := fun hmem => absurd (contentFingerprint_plain _ hmem) (by decide)
      claimState := fun state hstate => plain_claimState (by
        have := haccepted.claimState
        rw [show raw.claimState = some state from hstate] at this
        exact this)
      promotionBudget := fun budget hbudget => plain_promotionBudget hdates (by
        have := haccepted.slowMode
        rw [show raw.promotionBudget = some budget from hbudget] at this
        exact this)
      wellSpelled := henvelope.wellSpelled
      items := fun item hitem => by
        obtain ⟨source, hsource, rfl⟩ := List.mem_map.mp hitem
        exact preparedItem_printed (hlisted source hsource)
          (henvelope.wellSpelled.items source hsource).2.2.2.1.2 }

/-! ## Delimiters -/

theorem FacePrinted.delimits_iff {renderer : Renderer} {prepared : PreparedProjection}
    (hdash : renderer.toUnicode.PlainDash) (h : FacePrinted renderer prepared) :
    DelimitsItself renderer.toSanitizer prepared
      ↔ joinedInFace renderer.toUnicode prepared = 0 := by
  obtain ⟨-, hread⟩ := h.reads hdash [] rfl
  obtain ⟨found, hfound, hlength, hown⟩ := hread 0
  have hlines : markdownFaceLines renderer.toSanitizer prepared ≠ [] := by
    simp [markdownFaceLines]
  have hface : controlCommentOffsets renderer.toUnicode 0
      (renderMarkdownFace renderer.toSanitizer prepared) = found := by
    rw [renderMarkdownFace, joinLines_eq hlines, ← List.append_nil (flatLines _), hfound,
      controlCommentOffsets, List.append_nil]
  unfold DelimitsItself
  rw [hface, and_iff_right (ownComments_markdownFaceLines renderer.toSanitizer prepared)]
  constructor
  · intro heq
    rw [heq] at hlength
    omega
  · exact hown

theorem joinedInFace_eq_zero {unicode : Unicode} {prepared : PreparedProjection} :
    joinedInFace unicode prepared = 0
      ↔ hasAsimpControlComment unicode
          (prepared.projection.title ++ text "\n\n" ++ prepared.projection.preamble) = false
        ∧ ∀ item ∈ prepared.items, item.untrusted = false →
          hasAsimpControlComment unicode (item.whyIncluded ++ text "\n\n" ++ item.body) = false := by
  rw [joinedInFace, Nat.add_eq_zero_iff, List.length_eq_zero_iff, controlCommentOffsets_eq_nil,
    List.sum_eq_zero_iff, List.forall_mem_map]
  refine and_congr_right fun _ => forall_congr' fun item => imp_congr_right fun _ => ?_
  unfold joinedComments
  cases item.untrusted with
  | true => simp
  | false => simp [controlCommentOffsets_eq_nil]

/-- A reader of the Markdown face finds the renderer's delimiters and no
others exactly when the title and the preamble spell no control comment
together, nor the reason and the body of a trusted item. -/
theorem renderMarkdownFace_delimits_iff {renderer : Renderer}
    (hdash : renderer.toUnicode.PlainDash) (hdates : renderer.PlainDates) {raw : Projection}
    {prepared : PreparedProjection} (h : prepareProjection renderer raw = .ok prepared) :
    DelimitsItself renderer.toSanitizer prepared
      ↔ hasAsimpControlComment renderer.toUnicode (raw.title ++ text "\n\n" ++ raw.preamble) = false
        ∧ ∀ item ∈ raw.items, item.untrusted = false →
          hasAsimpControlComment renderer.toUnicode
            (item.whyIncluded ++ text "\n\n" ++ item.body) = false := by
  obtain ⟨hprinted, hitems, htitle, hpreamble⟩ := facePrinted hdates h
  rw [hprinted.delimits_iff hdash, joinedInFace_eq_zero, htitle, hpreamble, hitems,
    List.forall_mem_map]
  refine and_congr_right fun _ => forall_congr' fun item => imp_congr_right fun _ => ?_
  refine imp_congr_right fun huntrusted => ?_
  have hraw : item.untrusted = false := huntrusted
  simp [preparedItem, hraw]

def datedRenderer : Renderer :=
  { asciiRenderer with isOffsetDateTime := fun t => t == text "2026-01-01T00:00:00Z" }

theorem datedRenderer_plain :
    datedRenderer.toUnicode.PlainDash ∧ datedRenderer.PlainDates := by
  refine ⟨⟨rfl, rfl, by decide, rfl⟩, fun t ht => ?_⟩
  rw [beq_iff_eq.mp ht]
  decide

def sampleProjection (title preamble : String) : Projection where
  schema := text "s"
  kind := text "page"
  session := none
  provenance := none
  problem := text "p"
  profile := text "w"
  cursor := 0
  budgetTokens := none
  tokensEstimate := none
  title := text title
  preamble := text preamble
  items := []
  omitted := [{ reason := text "none", detail := none }]
  nextActions := []
  degraded := []
  viewer := none
  promotionBudget := none
  claimState := none
  problemStatus := none

theorem renderMarkdownFace_delimits_sample : ∃ prepared,
    prepareProjection datedRenderer (sampleProjection "t" "p") = .ok prepared
      ∧ DelimitsItself datedRenderer.toSanitizer prepared := by
  have hok : (prepareProjection datedRenderer (sampleProjection "t" "p")).toOption.isSome = true := by
    decide +kernel
  cases h : prepareProjection datedRenderer (sampleProjection "t" "p") with
  | error refusal => rw [h] at hok; cases hok
  | ok prepared =>
      refine ⟨prepared, rfl, ?_⟩
      rw [renderMarkdownFace_delimits_iff datedRenderer_plain.1 datedRenderer_plain.2 h]
      exact ⟨by decide +kernel, List.forall_mem_nil _⟩

/-- A title that ends in an opener takes the first word of the preamble. -/
theorem renderMarkdownFace_forges_delimiter : ∃ prepared,
    prepareProjection datedRenderer (sampleProjection "t <!--" "asimp:face-end -->") = .ok prepared
      ∧ ¬DelimitsItself datedRenderer.toSanitizer prepared := by
  have hok : (prepareProjection datedRenderer
      (sampleProjection "t <!--" "asimp:face-end -->")).toOption.isSome = true := by
    decide +kernel
  cases h : prepareProjection datedRenderer (sampleProjection "t <!--" "asimp:face-end -->") with
  | error refusal => rw [h] at hok; cases hok
  | ok prepared =>
      obtain ⟨hprinted, -, htitle, hpreamble⟩ := facePrinted datedRenderer_plain.2 h
      refine ⟨prepared, rfl, fun hdelimits => ?_⟩
      have hnone := (joinedInFace_eq_zero.mp
        ((hprinted.delimits_iff datedRenderer_plain.1).mp hdelimits)).1
      rw [htitle, hpreamble] at hnone
      revert hnone
      decide +kernel

end Asimposium
