import Mathlib
import Asimposium.Lib.ExceptRun
import Asimposium.Render.Prepare

/-!
# What preparation accepts

`prepareProjection` accepts a projection when each of its checks passes.
The checks are independent of each other, so what is accepted is a
conjunction (`prepareProjection_ok`), and what it returns is a function of
the projection alone.
-/

namespace Asimposium

open Text Json ExceptRun

/-! ## Texts -/

def ScalarText (t : Text) : Prop := firstUnpairedUtf16SurrogateOffset t = none ∧ (0 : UInt16) ∉ t

def ProseText (unicode : Unicode) (t : Text) : Prop :=
  ScalarText t ∧ hasAsimpControlComment unicode t = false

def StructuralText (unicode : Unicode) (t : Text) : Prop := ProseText unicode t ∧ unit '`' ∉ t

theorem indexOf_eq_none {t : Text} {u : UInt16} : indexOf t u = none ↔ u ∉ t := by
  rw [indexOf, List.findIdx?_eq_none_iff]
  constructor
  · intro h hmem
    simpa using h u hmem
  · intro h v hv
    exact beq_eq_false_iff_ne.mpr (ne_of_mem_of_not_mem hv h)

theorem assertScalar_ok {string : ProjectionString} :
    assertScalar string = .ok () ↔ ScalarText string.value := by
  unfold assertScalar ScalarText
  cases hsurrogate : firstUnpairedUtf16SurrogateOffset string.value with
  | some offset => simp
  | none =>
      cases hnul : indexOf string.value 0 with
      | some offset =>
          have hmem : ¬(0 : UInt16) ∉ string.value := fun h => by
            rw [indexOf_eq_none.mpr h] at hnul
            cases hnul
          simp [hmem]
      | none => simp [indexOf_eq_none.mp hnul]

theorem assertProse_ok {unicode : Unicode} {string : ProjectionString} :
    assertProse unicode string = .ok () ↔ (string.rejectControlComment = true →
      hasAsimpControlComment unicode string.value = false
        ∧ (string.markdownInterpolated = true → unit '`' ∉ string.value)) := by
  unfold assertProse
  cases string.rejectControlComment with
  | false => simp
  | true =>
      cases hasAsimpControlComment unicode string.value with
      | true => simp
      | false =>
          cases string.markdownInterpolated with
          | false => simp
          | true =>
              cases hindex : indexOf string.value (unit '`') with
              | some offset =>
                  have hmem : ¬unit '`' ∉ string.value := fun h => by
                    rw [indexOf_eq_none.mpr h] at hindex
                    cases hindex
                  simp [hmem]
              | none => simp [indexOf_eq_none.mp hindex]

/-! ### The strings of a projection -/

def SpelledWell (unicode : Unicode) (string : ProjectionString) : Prop :=
  assertScalar string = .ok () ∧ assertProse unicode string = .ok ()

section Fields

variable {unicode : Unicode} {field value : Text}

theorem forall_plainField :
    (∀ string ∈ plainField field value, SpelledWell unicode string) ↔ ScalarText value := by
  simp [plainField, SpelledWell, assertScalar_ok, assertProse_ok]

theorem forall_proseField :
    (∀ string ∈ proseField field value, SpelledWell unicode string) ↔ ProseText unicode value := by
  simp [proseField, SpelledWell, assertScalar_ok, assertProse_ok, ProseText]

theorem forall_structuralField :
    (∀ string ∈ structuralField field value, SpelledWell unicode string)
      ↔ StructuralText unicode value := by
  simp [structuralField, SpelledWell, assertScalar_ok, assertProse_ok, ProseText, StructuralText,
    and_assoc]

end Fields

theorem forall_mem_zipIdx {α : Type} {l : List α} {Q : α → Prop} :
    (∀ p ∈ l.zipIdx, Q p.1) ↔ ∀ a ∈ l, Q a := by
  constructor
  · intro h a ha
    obtain ⟨i, hi, rfl⟩ := List.mem_iff_getElem.mp ha
    exact h (l[i], i) (by simp [List.mem_zipIdx_iff_getElem?])
  · intro h p hp
    exact h p.1 (List.fst_mem_of_mem_zipIdx hp)

theorem forall_mem_flatMap_zipIdx {α β : Type} {l : List α} {f : α × Nat → List β} {P : β → Prop}
    {Q : α → Prop} (h : ∀ a i, (∀ b ∈ f (a, i), P b) ↔ Q a) :
    (∀ b ∈ l.zipIdx.flatMap f, P b) ↔ ∀ a ∈ l, Q a := by
  rw [← @forall_mem_zipIdx α l Q]
  constructor
  · rintro hall ⟨a, i⟩ hp
    exact (h a i).mp fun b hb => hall b (List.mem_flatMap.mpr ⟨(a, i), hp, hb⟩)
  · intro hall b hb
    obtain ⟨⟨a, i⟩, hp, hb⟩ := List.mem_flatMap.mp hb
    exact (h a i).mpr (hall (a, i) hp) b hb

theorem forall_mem_flatMap_toList {α β : Type} {o : Option α} {f : α → List β} {P : β → Prop}
    {Q : α → Prop} (h : ∀ a, (∀ b ∈ f a, P b) ↔ Q a) :
    (∀ b ∈ o.toList.flatMap f, P b) ↔ ∀ a ∈ o, Q a := by
  cases o with
  | none => simp
  | some a => simpa using h a

structure Projection.WellSpelled (unicode : Unicode) (projection : Projection) : Prop where
  header : ∀ t ∈ [projection.schema, projection.kind, projection.problem, projection.profile],
    ScalarText t
  title : StructuralText unicode projection.title
  preamble : StructuralText unicode projection.preamble
  session : ∀ t ∈ projection.session, ScalarText t
  permissions : ∀ viewer ∈ projection.viewer, ∀ t ∈ viewer.effectivePermissions, ScalarText t
  items : ∀ item ∈ projection.items, ScalarText item.kind ∧ ScalarText item.id
    ∧ ScalarText item.body ∧ StructuralText unicode item.whyIncluded
  omitted : ∀ entry ∈ projection.omitted,
    ProseText unicode entry.reason ∧ ∀ detail ∈ entry.detail, ProseText unicode detail
  nextActions : ∀ action ∈ projection.nextActions, ProseText unicode action.method.spelling
    ∧ ProseText unicode action.url ∧ ProseText unicode action.why
  degraded : ∀ note ∈ projection.degraded, ProseText unicode note

theorem ItemScope.spelling_scalar (scope : ItemScope) : ScalarText scope.spelling := by
  cases scope <;> exact ⟨by decide, by decide⟩

theorem PackAudience.spelling_scalar (audience : PackAudience) : ScalarText audience.spelling := by
  cases audience <;> exact ⟨by decide, by decide⟩

theorem PackMembership.spelling_scalar (membership : PackMembership) :
    ScalarText membership.spelling := by
  cases membership <;> exact ⟨by decide, by decide⟩

theorem projectionStrings_ok {unicode : Unicode} {projection : Projection} :
    (∀ string ∈ projectionStrings projection, SpelledWell unicode string)
      ↔ projection.WellSpelled unicode := by
  have hviewer : ∀ viewer : PackViewer,
      (∀ string ∈ plainField (text "viewer.audience") viewer.audience.spelling
        ++ plainField (text "viewer.membership") viewer.membership.spelling
        ++ viewer.effectivePermissions.zipIdx.flatMap (fun p =>
          plainField (indexed "viewer.effective_permissions" p.2) p.1),
        SpelledWell unicode string) ↔ ∀ t ∈ viewer.effectivePermissions, ScalarText t := by
    intro viewer
    rw [List.forall_mem_append, List.forall_mem_append, forall_plainField, forall_plainField,
      forall_mem_flatMap_zipIdx fun _ _ => forall_plainField]
    exact ⟨fun h => h.2, fun h => ⟨⟨viewer.audience.spelling_scalar,
      viewer.membership.spelling_scalar⟩, h⟩⟩
  have hitem : ∀ (item : ProjectionItem) (index : Nat),
      (∀ string ∈ plainField (indexedMember "items" index "kind") item.kind
        ++ plainField (indexedMember "items" index "id") item.id
        ++ plainField (indexedMember "items" index "scope") item.scope.spelling
        ++ plainField (indexedMember "items" index "body") item.body
        ++ structuralField (indexedMember "items" index "why_included") item.whyIncluded,
        SpelledWell unicode string) ↔ ScalarText item.kind ∧ ScalarText item.id
          ∧ ScalarText item.body ∧ StructuralText unicode item.whyIncluded := by
    intro item index
    simp only [List.forall_mem_append, forall_plainField, forall_structuralField]
    constructor
    · rintro ⟨⟨⟨⟨hkind, hid⟩, _⟩, hbody⟩, hwhy⟩
      exact ⟨hkind, hid, hbody, hwhy⟩
    · rintro ⟨hkind, hid, hbody, hwhy⟩
      exact ⟨⟨⟨⟨hkind, hid⟩, item.scope.spelling_scalar⟩, hbody⟩, hwhy⟩
  have homitted : ∀ (entry : OmittedEntry) (index : Nat),
      (∀ string ∈ proseField (indexedMember "omitted" index "reason") entry.reason
        ++ entry.detail.toList.flatMap (proseField (indexedMember "omitted" index "detail")),
        SpelledWell unicode string) ↔ ProseText unicode entry.reason
          ∧ ∀ detail ∈ entry.detail, ProseText unicode detail := by
    intro entry index
    rw [List.forall_mem_append, forall_proseField,
      forall_mem_flatMap_toList fun _ => forall_proseField]
  have haction : ∀ (action : NextAction) (index : Nat),
      (∀ string ∈ proseField (indexedMember "next_actions" index "method") action.method.spelling
        ++ proseField (indexedMember "next_actions" index "url") action.url
        ++ proseField (indexedMember "next_actions" index "why") action.why,
        SpelledWell unicode string) ↔ ProseText unicode action.method.spelling
          ∧ ProseText unicode action.url ∧ ProseText unicode action.why := by
    intro action index
    simp only [List.forall_mem_append, forall_proseField, and_assoc]
  unfold projectionStrings
  simp only [List.forall_mem_append, forall_plainField, forall_structuralField]
  rw [forall_mem_flatMap_toList fun _ => forall_plainField, forall_mem_flatMap_toList hviewer,
    forall_mem_flatMap_zipIdx hitem, forall_mem_flatMap_zipIdx homitted,
    forall_mem_flatMap_zipIdx haction, forall_mem_flatMap_zipIdx fun _ _ => forall_proseField]
  constructor
  · rintro ⟨⟨⟨⟨⟨⟨⟨⟨⟨⟨⟨hschema, hkind⟩, hproblem⟩, hprofile⟩, htitle⟩, hpreamble⟩, hsession⟩, hviewer⟩,
      hitems⟩, homitted⟩, hactions⟩, hdegraded⟩
    exact { header := by simp [hschema, hkind, hproblem, hprofile], title := htitle
            preamble := hpreamble, session := hsession, permissions := hviewer, items := hitems
            omitted := homitted, nextActions := hactions, degraded := hdegraded }
  · intro h
    have hheader := h.header
    simp only [List.forall_mem_cons, List.not_mem_nil, false_imp_iff, implies_true, and_true]
      at hheader
    obtain ⟨hschema, hkind, hproblem, hprofile⟩ := hheader
    exact ⟨⟨⟨⟨⟨⟨⟨⟨⟨⟨⟨hschema, hkind⟩, hproblem⟩, hprofile⟩, h.title⟩, h.preamble⟩, h.session⟩,
      h.permissions⟩, h.items⟩, h.omitted⟩, h.nextActions⟩, h.degraded⟩

theorem validateProjectionStrings_ok {unicode : Unicode} {projection : Projection} :
    validateProjectionStrings unicode projection = .ok () ↔ projection.WellSpelled unicode := by
  rw [← projectionStrings_ok, validateProjectionStrings, bind_ok]
  simp only [SpelledWell, forall_and]
  constructor
  · rintro ⟨_, hscalar, hprose⟩
    exact ⟨fun string hstring => forM_ok.mp hscalar string hstring,
      fun string hstring => forM_ok.mp hprose string hstring⟩
  · rintro ⟨hscalar, hprose⟩
    exact ⟨(), forM_ok.mpr hscalar, forM_ok.mpr hprose⟩

/-! ## Items -/

/-- What is asked of one item besides its id and its estimate. -/
structure ItemAccepted (sanitizer : Sanitizer) (item : ProjectionItem) : Prop where
  body : exceedsBodyLimit item.body = false
  kind : isSafeHeaderValue item.kind = true
  trust : item.scope = .system ↔ item.untrusted = false
  shown : item.untrusted = true →
    exceedsBodyLimit (neutralizeUntrustedBody sanitizer item.body).text = false
  raw : item.untrusted = false →
    hasAsimpControlComment sanitizer.toUnicode item.body = false ∧ unit '`' ∉ item.body
      ∧ unclosedFenceOffset item.body = none

def preparedItem (sanitizer : Sanitizer) (item : ProjectionItem) : PreparedItem where
  kind := item.kind
  id := item.id
  scope := item.scope
  untrusted := item.untrusted
  whyIncluded := item.whyIncluded
  tokens := item.tokens
  screeningNotice := if item.untrusted then item.screeningNotice else none
  body := if item.untrusted then (neutralizeUntrustedBody sanitizer item.body).text else item.body
  neutralized :=
    if item.untrusted then bodyFindings (neutralizeUntrustedBody sanitizer item.body) else []

theorem assertTrustedBody_ok {unicode : Unicode} {item : ProjectionItem} :
    assertTrustedBody unicode item = .ok () ↔ hasAsimpControlComment unicode item.body = false
      ∧ unit '`' ∉ item.body ∧ unclosedFenceOffset item.body = none := by
  rw [assertTrustedBody, bind_unit_ok, assertThat_ok, Bool.not_eq_true']
  refine and_congr_right fun _ => ?_
  cases hindex : indexOf item.body (unit '`') with
  | some offset =>
      have hmem : ¬unit '`' ∉ item.body := fun h => by
        rw [indexOf_eq_none.mpr h] at hindex
        cases hindex
      simp [hmem]
  | none =>
      cases unclosedFenceOffset item.body with
      | some offset => simp
      | none => simp [indexOf_eq_none.mp hindex]

theorem prepareItem_ok {sanitizer : Sanitizer} {item : ProjectionItem} {prepared : PreparedItem} :
    prepareItem sanitizer item = .ok prepared
      ↔ ItemAccepted sanitizer item ∧ prepared = preparedItem sanitizer item := by
  unfold prepareItem
  simp only [bind_unit_ok, assertThat_ok, Bool.not_eq_true']
  cases hflag : item.untrusted with
  | true =>
      simp only [if_true, bind_unit_ok, assertThat_ok, Bool.not_eq_true', Bool.or_true,
        true_and, Bool.not_true, Bool.or_false, bne_iff_ne, ne_eq]
      constructor
      · rintro ⟨hbody, hkind, hscope, hshown, heq⟩
        cases heq
        exact ⟨⟨hbody, hkind, by simp [hflag, hscope], fun _ => hshown, by simp [hflag]⟩,
          by simp [preparedItem, hflag]⟩
      · rintro ⟨h, rfl⟩
        refine ⟨h.body, h.kind, ?_, h.shown hflag, by simp [preparedItem, hflag]⟩
        rw [h.trust, hflag]
        exact Bool.noConfusion
  | false =>
      simp only [if_false, Bool.false_eq_true, bind_unit_ok, assertTrustedBody_ok,
        Bool.or_false, Bool.not_false, Bool.or_true, true_and, beq_iff_eq]
      constructor
      · rintro ⟨hbody, hkind, hscope, hraw, heq⟩
        cases heq
        exact ⟨⟨hbody, hkind, by simp [hflag, hscope], by simp [hflag], fun _ => hraw⟩,
          by simp [preparedItem, hflag]⟩
      · rintro ⟨h, rfl⟩
        exact ⟨h.body, h.kind, h.trust.mpr hflag, h.raw hflag, by simp [preparedItem, hflag]⟩

structure ItemListed (sanitizer : Sanitizer) (item : ProjectionItem) : Prop where
  id : isItemId item.id = true
  idSafe : isSafeHeaderValue item.id = true
  accepted : ItemAccepted sanitizer item

def tokenTotal (items : List ProjectionItem) : Int := (items.map fun item => item.tokens.getD 0).sum

theorem addTokens_total {hasPackMetadata : Bool} {total total' : Int} {item : ProjectionItem}
    (h : addTokens hasPackMetadata total item = .ok total') :
    total' = total + item.tokens.getD 0 := by
  rw [addTokens, bind_ok] at h
  obtain ⟨_, _, h⟩ := h
  cases htokens : item.tokens with
  | none =>
      rw [htokens] at h
      cases h
      simp
  | some tokens =>
      rw [htokens] at h
      simp only [bind_ok] at h
      obtain ⟨_, _, _, _, h⟩ := h
      cases h
      simp

theorem prepareItems_inv {sanitizer : Sanitizer} {hasPackMetadata : Bool} {seen : List Text}
    {total total' : Int} {items : List ProjectionItem} {prepared : List PreparedItem}
    (h : prepareItems sanitizer hasPackMetadata seen total items = .ok (prepared, total')) :
    prepared = items.map (preparedItem sanitizer) ∧ total' = total + tokenTotal items
      ∧ ∀ item ∈ items, ItemListed sanitizer item := by
  induction items generalizing seen total prepared total' with
  | nil =>
      cases h
      exact ⟨rfl, by simp [tokenTotal], by simp⟩
  | cons item rest ih =>
      rw [prepareItems, bind_ok] at h
      simp only [bind_ok, assertThat_ok, exists_const, Bool.and_eq_true] at h
      obtain ⟨⟨hid, hsafe⟩, _, total₁, htotal, this, hitem, ⟨others, total₂⟩, hrest, heq⟩ := h
      cases heq
      obtain ⟨haccepted, rfl⟩ := prepareItem_ok.mp hitem
      obtain ⟨rfl, rfl, hothers⟩ := ih hrest
      obtain rfl := addTokens_total htotal
      refine ⟨rfl, by simp [tokenTotal, add_assoc], ?_⟩
      rw [List.forall_mem_cons]
      exact ⟨⟨hid, hsafe, haccepted⟩, hothers⟩

theorem prepareItems_of {sanitizer : Sanitizer} {seen : List Text} {total : Int}
    {items : List ProjectionItem}
    (hitems : ∀ item ∈ items, ItemListed sanitizer item ∧ ∃ tokens ∈ item.tokens, 1 ≤ tokens)
    (hnodup : (items.map (·.id)).Nodup) (hseen : ∀ item ∈ items, item.id ∉ seen)
    (hnonneg : 0 ≤ total) (hsafe : total + tokenTotal items ≤ maxSafeInteger) :
    prepareItems sanitizer true seen total items
      = .ok (items.map (preparedItem sanitizer), total + tokenTotal items) := by
  induction items generalizing seen total with
  | nil => simp [prepareItems, tokenTotal]
  | cons item rest ih =>
      rw [List.forall_mem_cons] at hitems hseen
      rw [List.map_cons, List.nodup_cons] at hnodup
      obtain ⟨⟨hlisted, tokens, htokens, hpos⟩, hrest⟩ := hitems
      rw [Option.mem_def] at htokens
      have hsum : tokenTotal (item :: rest) = tokens + tokenTotal rest := by
        simp [tokenTotal, htokens]
      have hothers : 0 ≤ tokenTotal rest := by
        refine List.sum_nonneg fun n hn => ?_
        obtain ⟨other, hother, rfl⟩ := List.mem_map.mp hn
        obtain ⟨_, n, hn, hle⟩ := hrest other hother
        rw [Option.mem_def] at hn
        rw [hn, Option.getD_some]
        omega
      have hadd : addTokens true total item = .ok (total + tokens) := by
        have htokensSafe : isSafeInteger tokens = true := by
          rw [isSafeInteger, decide_eq_true_iff]
          omega
        have htotalSafe : isSafeInteger (total + tokens) = true := by
          rw [isSafeInteger, decide_eq_true_iff]
          omega
        simp [addTokens, htokens, assertThat, htokensSafe, htotalSafe, hpos, bind, Except.bind]
      rw [prepareItems, bind_ok]
      simp only [bind_ok, assertThat_ok, exists_const, Bool.and_eq_true]
      refine ⟨⟨hlisted.id, hlisted.idSafe⟩, by simpa using hseen.1, total + tokens, hadd, _,
        prepareItem_ok.mpr ⟨hlisted.accepted, rfl⟩, _, ih hrest hnodup.2 ?_ (by omega) (by omega),
        by rw [hsum, List.map_cons, add_assoc]⟩
      intro other hother
      rw [List.mem_cons, not_or]
      exact ⟨fun heq => hnodup.1 (heq ▸ List.mem_map_of_mem hother), hseen.2 other hother⟩

/-! ## The snapshot -/

/-- What the snapshot asks of a projection besides its provenance. -/
structure SnapshotAccepted (renderer : Renderer) (raw : Projection) : Prop where
  notices : ∀ item ∈ raw.items, item.screeningNotice.isNone = true ∨ item.scope = .ledger
  viewer : snapshotViewer raw.viewer = .ok ()
  slowMode : (raw.promotionBudget.bind (·.slowMode)).all (·.valid renderer) = true
  claimState : raw.claimState.all (·.valid) = true
  problemStatus : snapshotProblemStatus raw = .ok ()
  claimFace : snapshotClaimFace raw = .ok ()

theorem snapshotProjection_ok {renderer : Renderer} {raw projection : Projection} :
    snapshotProjection renderer raw = .ok projection ↔ SnapshotAccepted renderer raw
      ∧ ∃ provenance, snapshotProvenance raw = .ok provenance
        ∧ projection = { raw with provenance } := by
  have hnotices : snapshotItems raw.items = .ok ()
      ↔ ∀ item ∈ raw.items, item.screeningNotice.isNone = true ∨ item.scope = .ledger := by
    rw [snapshotItems, forM_ok, ← @forall_mem_zipIdx _ raw.items]
    simp only [assertThat_ok, Bool.or_eq_true, beq_iff_eq]
  unfold snapshotProjection
  rw [bind_unit_ok, bind_unit_ok, bind_ok, hnotices]
  simp only [bind_unit_ok, snapshotPromotionBudget, snapshotClaimState, assertThat_ok]
  constructor
  · rintro ⟨hnotices, hviewer, provenance, hprovenance, hslow, hclaim, hstatus, hface, heq⟩
    cases heq
    exact ⟨⟨hnotices, hviewer, hslow, hclaim, hstatus, hface⟩, provenance, hprovenance, rfl⟩
  · rintro ⟨h, provenance, hprovenance, rfl⟩
    exact ⟨h.notices, h.viewer, provenance, hprovenance, h.slowMode, h.claimState, h.problemStatus,
      h.claimFace, rfl⟩

/-! ## Projections -/

/-- What is asked of a projection besides its snapshot and its items. -/
structure EnvelopeAccepted (unicode : Unicode) (projection : Projection) : Prop where
  wellSpelled : projection.WellSpelled unicode
  notEmpty : projection.items ≠ [] ∨ projection.omitted ≠ []
  cursor : isSafeInteger projection.cursor = true ∧ 0 ≤ projection.cursor
  metadata : assertPackMetadata projection = .ok ()
  headers : ∀ header ∈ projection.headerValues, isSafeHeaderValue header.2 = true
  paths : ∀ action ∈ projection.nextActions, isSafeWorkerPath action.url = true

theorem prepareProjection_ok {renderer : Renderer} {raw : Projection}
    {prepared : PreparedProjection} :
    prepareProjection renderer raw = .ok prepared ↔ ∃ projection items total,
      snapshotProjection renderer raw = .ok projection
        ∧ EnvelopeAccepted renderer.toUnicode projection
        ∧ prepareItems renderer.toSanitizer projection.hasPackMetadata [] 0 projection.items
          = .ok (items, total)
        ∧ assertItemTotal projection total = .ok ()
        ∧ prepared =
          { projection, items
            fingerprint := contentFingerprint (fingerprintSource projection items)
            neutralized := items.flatMap itemReports } := by
  have hpaths : ∀ actions : List NextAction, assertNextActions actions = .ok ()
      ↔ ∀ action ∈ actions, isSafeWorkerPath action.url = true := by
    intro actions
    rw [assertNextActions, forM_ok, ← @forall_mem_zipIdx _ actions]
    simp only [assertThat_ok]
  unfold prepareProjection
  simp only [bind_ok (α := Projection), bind_ok (α := List PreparedItem × Int), bind_unit_ok,
    validateProjectionStrings_ok, assertNotEmpty, assertCursor, assertHeaders, forM_ok,
    assertThat_ok, hpaths, Bool.not_eq_true', Bool.and_eq_false_iff, List.isEmpty_eq_false_iff,
    Bool.and_eq_true, decide_eq_true_eq, ne_eq]
  constructor
  · rintro ⟨projection, hsnapshot, hspelled, hnotEmpty, hcursor, hmetadata, hheaders, hpaths,
      ⟨items, total⟩, hitems, htotal, heq⟩
    cases heq
    exact ⟨projection, items, total, hsnapshot,
      ⟨hspelled, hnotEmpty, hcursor, hmetadata, hheaders, hpaths⟩, hitems, htotal, rfl⟩
  · rintro ⟨projection, items, total, hsnapshot, h, hitems, htotal, rfl⟩
    exact ⟨projection, hsnapshot, h.wellSpelled, h.notEmpty, h.cursor, h.metadata, h.headers,
      h.paths, (items, total), hitems, htotal, rfl⟩

end Asimposium
