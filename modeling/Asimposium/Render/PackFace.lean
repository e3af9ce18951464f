import Asimposium.Render.PackComposer
import Asimposium.Render.PrepareLaws

/-!
# The JSON face of a pack

The face of a pack takes a fixed number of bytes for everything but its
items, its omissions and the digits of its estimate, and so much for each
of these (`renderedBytes_eq`). Only the width of the estimate depends on
the estimate, which is what lets the estimates settle.
-/

namespace Asimposium

open Text Json ExceptRun

/-! ## Sizes -/

def arraySize (sizes : List Nat) : Nat :=
  match sizes with
  | [] => 2
  | sizes => 4 + (sizes.map fun size => 6 + size).sum

theorem size_arr (vs : List Json) : size 2 2 (.arr vs) = arraySize (vs.map (size 2 4)) := by
  cases vs with
  | nil => rfl
  | cons v vs =>
      rw [size, elementsSize_eq_sum]
      exact congrArg (4 + ·) (congrArg List.sum (List.map_map ..).symm)

def itemSize (sanitizer : Sanitizer) (item : ComposedPackItem) : Nat :=
  size 2 4 (preparedItem sanitizer item.toProjectionItem).toJson

def omissionSize (entry : OmittedEntry) : Nat := size 2 4 entry.toJson

def reparsed (provenance : Option (Option SessionProvenance)) : Option (Option SessionProvenance) :=
  provenance.map (·.map fun declared => declared.parse.getD declared)

/-- The members of the face that selection does not touch. -/
def fixedMembers (pack : PackContents) : List (Text × Json) :=
  member "face" (.str (text "json")) ++ member "schema" (.str pack.schema)
    ++ member "kind" (.str (text "pack")) ++ member "session" (.str pack.session)
    ++ member? "provenance" ((reparsed pack.provenance).map provenanceJson)
    ++ member "problem" (.str pack.problem) ++ member "profile" (.str pack.profile)
    ++ member "cursor" (.num pack.cursor) ++ member "budget_tokens" (.num pack.budgetTokens)
    ++ member "title" (.str (text "ASImposium pack")) ++ member "preamble" (.str pack.preamble)
    ++ member "next_actions" (.arr (pack.nextActions.map (·.toJson)))
    ++ member "degraded" (.arr (pack.degraded.map .str))
    ++ member "viewer" (toProjectionViewer pack.viewer).toJson
    ++ member? "promotion_budget" (pack.promotionBudget.map (·.toJson))

/-- The bytes of the face but for the items, the omissions and the digits
of the estimate. -/
def fixedSize (pack : PackContents) : Nat :=
  3 + membersSize 2 2 (fixedMembers pack) + (4 + keySize 2 (text "fingerprint") + 26)
    + (4 + keySize 2 (text "items")) + (4 + keySize 2 (text "omitted"))
    + (4 + keySize 2 (text "tokens_estimate"))

/-- The bytes of the face but for the digits of the estimate. -/
def faceSize (sanitizer : Sanitizer) (pack : PackContents) : Nat :=
  fixedSize pack + arraySize (pack.items.map (itemSize sanitizer))
    + arraySize (pack.omitted.map omissionSize)

theorem byteLength_quote_contentFingerprint (t : Text) :
    byteLength (quote (contentFingerprint t)) = 26 := by
  rw [byteLength_quote_plain fun _ => contentFingerprint_plain t, contentFingerprint_length]

variable {pack : PackContents} {estimate : Nat}

theorem renderJsonFace_size {prepared : PreparedProjection} {sanitizer : Sanitizer}
    (hprojection : prepared.projection
      = { packProjection pack estimate with provenance := reparsed pack.provenance })
    (hitems : prepared.items
      = pack.items.map fun item => preparedItem sanitizer item.toProjectionItem)
    (hfingerprint : byteLength (quote prepared.fingerprint) = 26) :
    byteLength (renderJsonFace prepared) = faceSize sanitizer pack + width estimate := by
  have hnewline : BeginsAscii [unit '\n'] := .cons (by decide) _
  have hmember : ∀ key value, membersSize 2 2 (member key value)
      = 4 + keySize 2 (text key) + size 2 2 value := fun key value => rfl
  have hitemsArray : size 2 2 (.arr (prepared.items.map (·.toJson)))
      = arraySize (pack.items.map (itemSize sanitizer)) := by
    rw [size_arr, hitems, List.map_map, List.map_map]
    rfl
  have homittedArray : size 2 2 (.arr (pack.omitted.map (·.toJson)))
      = arraySize (pack.omitted.map omissionSize) := by
    rw [size_arr, List.map_map]
    rfl
  have hestimate : size 2 2 (.num estimate) = width estimate := by
    rw [size, ofInt_natCast]
    rfl
  have hstr : size 2 2 (.str prepared.fingerprint) = 26 := hfingerprint
  have hobj : ∀ ms, ms ≠ [] → size 2 0 (.obj ms) = 2 + membersSize 2 2 ms := by
    rintro (_ | ⟨m, ms⟩) hms
    · exact absurd rfl hms
    · rfl
  have hmembers : prepared.projection.members prepared.items
      = member "schema" (.str pack.schema) ++ member "kind" (.str (text "pack"))
        ++ member "session" (.str pack.session)
        ++ member? "provenance" ((reparsed pack.provenance).map provenanceJson)
        ++ member "problem" (.str pack.problem) ++ member "profile" (.str pack.profile)
        ++ member "cursor" (.num pack.cursor)
        ++ (member "budget_tokens" (.num pack.budgetTokens)
          ++ member "tokens_estimate" (.num estimate))
        ++ member "title" (.str (text "ASImposium pack")) ++ member "preamble" (.str pack.preamble)
        ++ member "items" (.arr (prepared.items.map (·.toJson)))
        ++ member "omitted" (.arr (pack.omitted.map (·.toJson)))
        ++ member "next_actions" (.arr (pack.nextActions.map (·.toJson)))
        ++ member "degraded" (.arr (pack.degraded.map .str))
        ++ member "viewer" (toProjectionViewer pack.viewer).toJson
        ++ member? "promotion_budget" (pack.promotionBudget.map (·.toJson)) := by
    rw [hprojection]
    simp only [Projection.members, packProjection, Option.map_some, Option.map_none, member?,
      textMember?, Option.toList_some, Option.toList_none, List.map_cons, List.map_nil,
      List.append_nil]
    rfl
  rw [renderJsonFace, hnewline.byteLength_append, byteLength_stableStringify, hmembers,
    hobj _ (by simp [member])]
  simp only [membersSize_append, hmember, hitemsArray, homittedArray, hestimate, hstr, faceSize,
    fixedSize, fixedMembers]
  have hend : byteLength [unit '\n'] = 1 := by decide
  rw [hend]
  omega

/-! ## Preparation of a pack -/

theorem snapshotProvenance_pack {provenance : Option (Option SessionProvenance)}
    (h : snapshotProvenance (packProjection pack estimate) = .ok provenance) :
    provenance = reparsed pack.provenance := by
  have hprovenance : (packProjection pack estimate).provenance = pack.provenance := rfl
  unfold snapshotProvenance at h
  rw [hprovenance] at h
  unfold reparsed
  rcases hcase : pack.provenance with _ | _ | declared <;> rw [hcase] at h <;> dsimp only at h
  · cases h
    rfl
  · split at h
    · cases h
    · cases h
      rfl
  · split at h
    · cases h
    · cases hparse : declared.parse with
      | none => rw [hparse] at h; cases h
      | some parsed =>
          rw [hparse] at h
          cases h
          simp [hparse]

variable {renderer : Renderer}

theorem renderedBytes_eq {bytes : Nat}
    (h : renderedBytes renderer (packProjection pack estimate) = .ok bytes) :
    bytes = faceSize renderer.toSanitizer pack + width estimate := by
  unfold renderedBytes at h
  split at h
  · cases h
  · rename_i prepared hprepared
    rw [← Except.ok.inj h]
    obtain ⟨projection, items, total, hsnapshot, _, hitems, _, rfl⟩ :=
      prepareProjection_ok.mp hprepared
    obtain ⟨_, provenance, hprovenance, rfl⟩ := snapshotProjection_ok.mp hsnapshot
    refine renderJsonFace_size ?_ ?_ (byteLength_quote_contentFingerprint _)
    · rw [← snapshotProvenance_pack hprovenance]
    · exact (prepareItems_inv hitems).1.trans (List.map_map ..)

/-- What rendering asks of the contents of a pack, whatever the estimate. -/
structure PackAccepted (renderer : Renderer) (pack : PackContents) : Prop where
  viewer : pack.provenance ≠ none → pack.viewer.audience = .session
  provenance : ∀ declared, pack.provenance = some (some declared) → declared.parse ≠ none
  slowMode : (pack.promotionBudget.bind (·.slowMode)).all (·.valid renderer) = true
  wellSpelled : (packProjection pack 1).WellSpelled renderer.toUnicode
  notEmpty : pack.items ≠ [] ∨ pack.omitted ≠ []
  cursor : isSafeInteger pack.cursor = true ∧ 0 ≤ pack.cursor
  budget : pack.budgetTokens ≤ maxSafeInteger
  headers : ∀ header ∈ (packProjection pack 1).headerValues, isSafeHeaderValue header.2 = true
  paths : ∀ action ∈ pack.nextActions, isSafeWorkerPath action.url = true
  notices : ∀ item ∈ pack.items, item.screeningNotice.isNone = true ∨ item.scope = .ledger
  items : ∀ item ∈ pack.items, ItemListed renderer.toSanitizer item.toProjectionItem
  tokens : ∀ item ∈ pack.items, 1 ≤ item.tokens
  ids : (pack.items.map (·.id)).Nodup

def itemTokens (items : List ComposedPackItem) : Nat := (items.map (·.tokens)).sum

theorem tokenTotal_pack (items : List ComposedPackItem) :
    tokenTotal (items.map (·.toProjectionItem)) = itemTokens items := by
  induction items with
  | nil => rfl
  | cons item items ih =>
      have hcons : tokenTotal ((item :: items).map (·.toProjectionItem))
          = item.tokens + tokenTotal (items.map (·.toProjectionItem)) := rfl
      rw [hcons, ih]
      simp [itemTokens]

theorem toProjectionViewer_accepted (viewer : PackViewer) :
    snapshotViewer (some (toProjectionViewer viewer)) = .ok () := by
  unfold toProjectionViewer
  cases h : viewer.audience with
  | «public» => rfl
  | session => simp [snapshotViewer, assertThat, h]

theorem snapshotProvenance_accepted (h : PackAccepted renderer pack) (estimate : Nat) :
    snapshotProvenance (packProjection pack estimate) = .ok (reparsed pack.provenance) := by
  have hprovenance : (packProjection pack estimate).provenance = pack.provenance := rfl
  have hviewer : (packProjection pack estimate).viewer = some (toProjectionViewer pack.viewer) :=
    rfl
  have hsession : (packProjection pack estimate).session.isNone = false := rfl
  have hkind : ¬(packProjection pack estimate).kind ≠ text "pack" := fun hne => hne rfl
  have haudience : (toProjectionViewer pack.viewer).audience = pack.viewer.audience := by
    unfold toProjectionViewer
    cases hcase : pack.viewer.audience <;> simp [hcase]
  unfold snapshotProvenance reparsed
  rw [hprovenance, hviewer, hsession]
  cases hcase : pack.provenance with
  | none => rfl
  | some provenance =>
      have hsessionViewer := h.viewer (by rw [hcase]; exact Option.some_ne_none _)
      simp only [decide_eq_false hkind, Option.map_some, haudience, hsessionViewer,
        Bool.false_or, bne_self_eq_false, Bool.false_eq_true, if_false]
      cases provenance with
      | none => rfl
      | some declared =>
          cases hparse : declared.parse with
          | none => exact absurd hparse (h.provenance declared hcase)
          | some parsed => simp [hparse]

theorem snapshot_pack (h : PackAccepted renderer pack) (estimate : Nat) :
    snapshotProjection renderer (packProjection pack estimate)
      = .ok { packProjection pack estimate with provenance := reparsed pack.provenance } := by
  rw [snapshotProjection_ok]
  refine ⟨⟨?_, toProjectionViewer_accepted pack.viewer, h.slowMode, rfl, ?_, rfl⟩, _,
    snapshotProvenance_accepted h estimate, rfl⟩
  · intro item hitem
    obtain ⟨packItem, hmem, rfl⟩ := List.mem_map.mp hitem
    exact h.notices packItem hmem
  · have hface : (packProjection pack estimate).isProblemFace = false := by
      have hkind : (packProjection pack estimate).kind = text "pack" := rfl
      rw [Projection.isProblemFace, hkind]
      rfl
    rw [snapshotProblemStatus, assertThat_ok, hface]
    rfl

theorem prepare_pack (h : PackAccepted renderer pack) (hpos : 1 ≤ estimate)
    (hbudget : estimate ≤ pack.budgetTokens) (hitems : itemTokens pack.items ≤ estimate) :
    ∃ prepared, prepareProjection renderer (packProjection pack estimate) = .ok prepared := by
  have hmax := h.budget
  have hsafe : ∀ n : Nat, n ≤ maxSafeInteger → isSafeInteger n = true := fun n hn => by
    rw [isSafeInteger, decide_eq_true_iff]
    omega
  have hids : ((pack.items.map (·.toProjectionItem)).map (·.id)).Nodup := by
    rw [List.map_map]
    exact h.ids
  have htotal : (0 : Int) + tokenTotal (pack.items.map (·.toProjectionItem)) ≤ maxSafeInteger := by
    rw [tokenTotal_pack]
    omega
  refine ⟨_, prepareProjection_ok.mpr ⟨_, _, _, snapshot_pack h estimate,
    ⟨?_, ?_, h.cursor, ?_, h.headers, h.paths⟩,
    prepareItems_of ?_ hids (fun _ _ => List.not_mem_nil) le_rfl htotal, ?_, rfl⟩⟩
  · exact ⟨h.wellSpelled.header, h.wellSpelled.title, h.wellSpelled.preamble,
      h.wellSpelled.session, h.wellSpelled.permissions, h.wellSpelled.items,
      h.wellSpelled.omitted, h.wellSpelled.nextActions, h.wellSpelled.degraded⟩
  · rcases h.notEmpty with hne | hne
    · exact .inl fun hnil => hne (List.map_eq_nil_iff.mp hnil)
    · exact .inr hne
  · have hbudgetPos : (1 : Int) ≤ pack.budgetTokens := by omega
    have hestimatePos : (1 : Int) ≤ estimate := by omega
    have hle : (estimate : Int) ≤ pack.budgetTokens := by omega
    simp only [assertPackMetadata, packProjection]
    rw [bind_unit_ok, assertThat_ok, assertThat_ok, hsafe _ hmax, hsafe _ (hbudget.trans hmax)]
    simp [hbudgetPos, hestimatePos, hle]
  · intro item hitem
    obtain ⟨packItem, hmem, rfl⟩ := List.mem_map.mp hitem
    have htokens := h.tokens packItem hmem
    exact ⟨h.items packItem hmem, packItem.tokens, rfl, by omega⟩
  · have hle : (0 : Int) + tokenTotal (pack.items.map (·.toProjectionItem)) ≤ estimate := by
      rw [tokenTotal_pack]
      omega
    simp only [assertItemTotal, packProjection]
    rw [assertThat_ok, Bool.or_eq_true]
    exact .inr (decide_eq_true hle)

theorem renderedBytes_accepted (h : PackAccepted renderer pack) (hpos : 1 ≤ estimate)
    (hbudget : estimate ≤ pack.budgetTokens) (hitems : itemTokens pack.items ≤ estimate) :
    renderedBytes renderer (packProjection pack estimate)
      = .ok (faceSize renderer.toSanitizer pack + width estimate) := by
  obtain ⟨prepared, hprepared⟩ := prepare_pack h hpos hbudget hitems
  have hbytes : renderedBytes renderer (packProjection pack estimate)
      = .ok (byteLength (renderJsonFace prepared)) := by
    rw [renderedBytes, hprepared]
  rw [hbytes, ← renderedBytes_eq hbytes]

end Asimposium
