import Mathlib
import Asimposium.Render.PackComposer
import Asimposium.Render.PrepareLaws

/-!
# What the composer's assertions give

Every assertion refuses with an error of the composer (`Refuses`), and an
accepted value satisfies what the renderer will ask of it.
-/

namespace Asimposium

open Text Json ExceptRun

/-! ## Refusals -/

def Refuses {α : Type} (x : Except PackFailure α) : Prop :=
  ∀ failure, x = .error failure → ∃ error, failure = .refused error

section Refuses

variable {α β : Type}

theorem refuses_ok (a : α) : Refuses (.ok a) := fun _ h => nomatch h

theorem refuses_error (code : PackComposerErrorCode) (detail : Text) :
    Refuses (α := α) (.error (refuse code detail)) := by
  intro failure h
  cases h
  exact ⟨_, rfl⟩

theorem refuses_bind {x : Except PackFailure α} {f : α → Except PackFailure β} (hx : Refuses x)
    (hf : ∀ a, x = .ok a → Refuses (f a)) : Refuses (x >>= f) := by
  intro failure h
  rcases bind_error.mp h with h | ⟨a, ha, h⟩
  · exact hx failure h
  · exact hf a ha failure h

theorem refuses_map {x : Except PackFailure α} {f : α → β} (hx : Refuses x) :
    Refuses (x.map f) := fun failure h => hx failure (map_error.mp h)

theorem refuses_forM {as : List α} {check : α → Except PackFailure Unit}
    (h : ∀ a ∈ as, Refuses (check a)) : Refuses (as.forM check) := by
  intro failure hfailure
  obtain ⟨a, ha, hcheck⟩ := forM_error hfailure
  exact h a ha failure hcheck

theorem refuses_assertThat (condition : Bool) (code : PackComposerErrorCode) (detail : Text) :
    Refuses (assertThat condition (refuse code detail)) := by
  intro failure h
  obtain ⟨_, rfl⟩ := assertThat_error.mp h
  exact ⟨_, rfl⟩

end Refuses

/-! ## Texts -/

theorem refuses_assertScalarText (value field : Text) : Refuses (assertScalarText value field) := by
  unfold assertScalarText
  split
  · exact refuses_error _ _
  · split
    · exact refuses_error _ _
    · split
      · exact refuses_error _ _
      · exact refuses_ok _

variable {field : Text}

theorem assertScalarText_ok {value result : Text} :
    assertScalarText value field = .ok result
      ↔ value ≠ [] ∧ ScalarText value ∧ result = value := by
  unfold assertScalarText ScalarText
  by_cases hempty : value = []
  · simp [hempty]
  · rw [if_neg hempty]
    cases hsurrogate : firstUnpairedUtf16SurrogateOffset value with
    | some offset => simp
    | none =>
        by_cases hnul : (0 : UInt16) ∈ value
        · simp [hnul]
        · simp [hnul, hempty, eq_comm]

theorem refuses_assertCandidateBody (sanitizer : Sanitizer) (value field : Text) :
    Refuses (assertCandidateBody sanitizer value field) := by
  unfold assertCandidateBody refuseBodyLimit
  split
  · exact refuses_error _ _
  split
  · exact refuses_error _ _
  split
  · exact refuses_error _ _
  split
  · exact refuses_error _ _
  split
  · exact refuses_error _ _
  · exact refuses_ok _

theorem assertCandidateBody_ok {sanitizer : Sanitizer} {value result : Text} :
    assertCandidateBody sanitizer value field = .ok result
      ↔ (value ≠ [] ∧ ScalarText value ∧ exceedsBodyLimit value = false
        ∧ exceedsBodyLimit (neutralizeUntrustedBody sanitizer value).text = false)
        ∧ result = value := by
  unfold assertCandidateBody ScalarText
  by_cases hempty : value = []
  · simp [hempty]
  rw [if_neg hempty]
  cases hlimit : exceedsBodyLimit value with
  | true => simp
  | false =>
      cases hsurrogate : firstUnpairedUtf16SurrogateOffset value with
      | some offset => simp
      | none =>
          by_cases hnul : (0 : UInt16) ∈ value
          · simp [hnul]
          · cases hneutralized : exceedsBodyLimit (neutralizeUntrustedBody sanitizer value).text with
            | true => simp [hnul]
            | false => simp [hnul, hempty, eq_comm]

theorem refuses_assertHeaderToken (value field : Text) :
    Refuses (assertHeaderToken value field) :=
  refuses_bind (refuses_assertScalarText value field) fun _ _ =>
    refuses_bind (refuses_assertThat _ _ _) fun _ _ => refuses_ok _

theorem assertHeaderToken_ok {value result : Text} :
    assertHeaderToken value field = .ok result
      ↔ (value ≠ [] ∧ ScalarText value ∧ isSafeHeaderValue value = true) ∧ result = value := by
  rw [assertHeaderToken, bind_ok]
  simp only [assertScalarText_ok, bind_unit_ok, assertThat_ok]
  constructor
  · rintro ⟨_, ⟨hne, hscalar, rfl⟩, hsafe, h⟩
    cases h
    exact ⟨⟨hne, hscalar, hsafe⟩, rfl⟩
  · rintro ⟨⟨hne, hscalar, hsafe⟩, rfl⟩
    exact ⟨result, ⟨hne, hscalar, rfl⟩, hsafe, rfl⟩

theorem refuses_assertTokenEstimate (value : Int) (field : Text) :
    Refuses (assertTokenEstimate value field) :=
  refuses_bind (refuses_assertThat _ _ _) fun _ _ => refuses_ok _

theorem assertTokenEstimate_ok {value result : Int} :
    assertTokenEstimate value field = .ok result
      ↔ (isSafeInteger value = true ∧ 1 ≤ value) ∧ result = value := by
  rw [assertTokenEstimate, bind_unit_ok, assertThat_ok, Bool.and_eq_true, decide_eq_true_eq]
  exact and_congr_right fun _ => ⟨fun h => (Except.ok.inj h).symm, fun h => by rw [h]⟩

theorem refuses_assertStablePrefix (value : Int) (field : Text) :
    Refuses (assertStablePrefix value field) :=
  refuses_bind (refuses_assertThat _ _ _) fun _ _ => refuses_ok _

theorem assertStablePrefix_ok {value result : Int} :
    assertStablePrefix value field = .ok result
      ↔ (isSafeInteger value = true ∧ 0 ≤ value) ∧ result = value := by
  rw [assertStablePrefix, bind_unit_ok, assertThat_ok, Bool.and_eq_true, decide_eq_true_eq]
  exact and_congr_right fun _ => ⟨fun h => (Except.ok.inj h).symm, fun h => by rw [h]⟩

theorem mem_sortedSet {texts : List Text} {t : Text} : t ∈ sortedSet texts ↔ t ∈ texts := by
  rw [sortedSet, List.mem_insertionSort, List.mem_eraseDups]

theorem refuses_assertPermissionList (value : List Text) (field : Text) :
    Refuses (assertPermissionList value field) :=
  refuses_bind (refuses_forM fun _ _ => refuses_map (refuses_assertScalarText _ _)) fun _ _ =>
    refuses_ok _

theorem assertPermissionList_ok {value result : List Text} :
    assertPermissionList value field = .ok result
      ↔ (∀ t ∈ value, t ≠ [] ∧ ScalarText t) ∧ result = sortedSet value := by
  rw [assertPermissionList, bind_unit_ok, forM_ok, ← @forall_mem_zipIdx _ value]
  refine and_congr (forall₂_congr fun p _ => ?_)
    ⟨fun h => (Except.ok.inj h).symm, fun h => by rw [h]⟩
  rw [map_ok]
  simp only [assertScalarText_ok]
  constructor
  · rintro ⟨_, ⟨hne, hscalar, _⟩, _⟩
    exact ⟨hne, hscalar⟩
  · rintro ⟨hne, hscalar⟩
    exact ⟨p.1, ⟨hne, hscalar, rfl⟩, trivial⟩

theorem refuses_assertOptionalPermissionList (value : Option (List Text)) (field : Text) :
    Refuses (assertOptionalPermissionList value field) := by
  cases value with
  | none => exact refuses_ok _
  | some value => exact refuses_assertPermissionList value field

theorem refuses_assertViewer (viewer : PackViewer) : Refuses (assertViewer viewer) :=
  refuses_bind (refuses_assertPermissionList _ _) fun _ _ => refuses_ok _

/-! ## Candidates -/

structure CandidateAccepted (sanitizer : Sanitizer) (candidate : PackCandidate) : Prop where
  id : ScalarText candidate.id ∧ isItemId candidate.id = true
    ∧ isSafeHeaderValue candidate.id = true
  kind : ScalarText candidate.kind ∧ isSafeHeaderValue candidate.kind = true
  whyIncluded : StructuralText sanitizer.toUnicode candidate.whyIncluded
  trust : candidate.scope = .system ↔ candidate.untrusted = false
  body : ScalarText candidate.body ∧ exceedsBodyLimit candidate.body = false
    ∧ exceedsBodyLimit (neutralizeUntrustedBody sanitizer candidate.body).text = false
  raw : candidate.untrusted = false →
    hasAsimpControlComment sanitizer.toUnicode candidate.body = false
      ∧ unit '`' ∉ candidate.body ∧ unclosedFenceOffset candidate.body = none
  notice : candidate.screeningNotice.isNone = true ∨ candidate.scope = .ledger
  tokens : isSafeInteger candidate.tokens = true ∧ 1 ≤ candidate.tokens

section Candidates

variable {sanitizer : Sanitizer} {seen : List Text} {index : Nat} {candidate : PackCandidate}

theorem refuses_assertIdentity : Refuses (assertIdentity seen index candidate) :=
  refuses_bind (refuses_assertScalarText _ _) fun _ _ =>
    refuses_bind (refuses_assertThat _ _ _) fun _ _ =>
      refuses_bind (refuses_assertThat _ _ _) fun _ _ => refuses_assertThat _ _ _

theorem assertIdentity_ok (h : assertIdentity seen index candidate = .ok ()) :
    (ScalarText candidate.id ∧ isItemId candidate.id = true
      ∧ isSafeHeaderValue candidate.id = true)
    ∧ candidate.id ∉ seen ∧ (candidate.scope = .system ↔ candidate.untrusted = false) := by
  rw [assertIdentity, bind_ok] at h
  obtain ⟨id, hid, h⟩ := h
  obtain ⟨_, hscalar, rfl⟩ := assertScalarText_ok.mp hid
  simp only [bind_unit_ok, assertThat_ok, Bool.and_eq_true, Bool.not_eq_true'] at h
  obtain ⟨⟨hitem, hsafe⟩, hseen, htrust⟩ := h
  refine ⟨⟨hscalar, hitem, hsafe⟩, by simpa using hseen, ?_⟩
  cases hscope : candidate.scope <;> cases hflag : candidate.untrusted <;>
    simp [hscope, hflag] at htrust ⊢

theorem refuses_assertEnvelope {unicode : Unicode} :
    Refuses (assertEnvelope unicode index candidate) :=
  refuses_bind (refuses_assertScalarText _ _) fun _ _ =>
    refuses_bind (refuses_assertThat _ _ _) fun _ _ =>
      refuses_bind (refuses_assertScalarText _ _) fun _ _ =>
        refuses_bind (refuses_assertThat _ _ _) fun _ _ => refuses_assertThat _ _ _

theorem assertEnvelope_ok {unicode : Unicode}
    (h : assertEnvelope unicode index candidate = .ok ()) :
    (ScalarText candidate.kind ∧ isSafeHeaderValue candidate.kind = true)
      ∧ StructuralText unicode candidate.whyIncluded := by
  rw [assertEnvelope, bind_ok] at h
  obtain ⟨kind, hkind, h⟩ := h
  obtain ⟨_, hkindScalar, rfl⟩ := assertScalarText_ok.mp hkind
  rw [bind_unit_ok, bind_ok] at h
  obtain ⟨hsafe, why, hwhy, h⟩ := h
  obtain ⟨_, hwhyScalar, rfl⟩ := assertScalarText_ok.mp hwhy
  simp only [bind_unit_ok, assertThat_ok, Bool.not_eq_true', List.contains_eq_mem,
    decide_eq_false_iff_not] at h hsafe
  exact ⟨⟨hkindScalar, hsafe⟩, ⟨hwhyScalar, h.1⟩, h.2⟩

theorem refuses_assertBody : Refuses (assertBody sanitizer index candidate) :=
  refuses_bind (refuses_assertCandidateBody _ _ _) fun _ _ =>
    refuses_bind (refuses_assertThat _ _ _) fun _ _ =>
      refuses_bind (refuses_assertThat _ _ _) fun _ _ => refuses_assertThat _ _ _

theorem assertBody_ok (h : assertBody sanitizer index candidate = .ok ()) :
    (ScalarText candidate.body ∧ exceedsBodyLimit candidate.body = false
      ∧ exceedsBodyLimit (neutralizeUntrustedBody sanitizer candidate.body).text = false)
    ∧ (candidate.untrusted = false →
      hasAsimpControlComment sanitizer.toUnicode candidate.body = false
        ∧ unit '`' ∉ candidate.body ∧ unclosedFenceOffset candidate.body = none) := by
  rw [assertBody, bind_ok] at h
  obtain ⟨body, hbody, h⟩ := h
  obtain ⟨⟨_, hscalar, hlimit, hneutralized⟩, rfl⟩ := assertCandidateBody_ok.mp hbody
  simp only [bind_unit_ok, assertThat_ok] at h
  refine ⟨⟨hscalar, hlimit, hneutralized⟩, fun hflag => ?_⟩
  simpa [hflag] using h

theorem refuses_assertComposedSection {value : Option ComposedSection} {scope : ItemScope}
    {kind : Text} : Refuses (assertComposedSection value scope kind) := by
  cases value with
  | none => exact refuses_ok _
  | some declared =>
      exact refuses_bind (refuses_assertThat _ _ _) fun _ _ =>
        refuses_bind (refuses_assertThat _ _ _) fun _ _ => refuses_ok _

theorem refuses_assertCandidate : Refuses (assertCandidate sanitizer seen index candidate) :=
  refuses_bind refuses_assertIdentity fun _ _ =>
    refuses_bind refuses_assertEnvelope fun _ _ =>
      refuses_bind refuses_assertBody fun _ _ =>
        refuses_bind refuses_assertComposedSection fun _ _ =>
          refuses_bind (refuses_assertThat _ _ _) fun _ _ =>
            refuses_bind (refuses_assertTokenEstimate _ _) fun _ _ =>
              refuses_bind (refuses_assertStablePrefix _ _) fun _ _ =>
                refuses_bind (refuses_assertOptionalPermissionList _ _) fun _ _ => refuses_ok _

theorem assertCandidate_ok {validated : ValidatedCandidate}
    (h : assertCandidate sanitizer seen index candidate = .ok validated) :
    CandidateAccepted sanitizer validated.value ∧ candidate.id ∉ seen
      ∧ validated.value.id = candidate.id := by
  simp only [assertCandidate, bind_unit_ok] at h
  obtain ⟨hidentity, henvelope, hbody, h⟩ := h
  rw [bind_ok] at h
  obtain ⟨composedSection, _, h⟩ := h
  rw [bind_unit_ok, bind_ok] at h
  obtain ⟨hnotice, tokens, htokens, h⟩ := h
  rw [bind_ok] at h
  obtain ⟨stablePrefix, _, h⟩ := h
  rw [bind_ok] at h
  obtain ⟨requires, _, h⟩ := h
  cases h
  obtain ⟨hid, hseen, htrust⟩ := assertIdentity_ok hidentity
  obtain ⟨hkind, hwhy⟩ := assertEnvelope_ok henvelope
  obtain ⟨hbody, hraw⟩ := assertBody_ok hbody
  obtain ⟨hestimate, rfl⟩ := assertTokenEstimate_ok.mp htokens
  have hledger := assertThat_ok.mp hnotice
  rw [Bool.or_eq_true, beq_iff_eq] at hledger
  exact ⟨⟨hid, hkind, hwhy, htrust, hbody, hraw, hledger, hestimate⟩, hseen, rfl⟩

variable {audience : PackAudience}

theorem refuses_assertCandidatesFrom (candidates : List PackCandidate) :
    Refuses (assertCandidatesFrom sanitizer audience seen index candidates) := by
  induction candidates generalizing seen index with
  | nil => exact refuses_ok _
  | cons candidate rest ih =>
      rw [assertCandidatesFrom]
      split
      · exact ih
      · exact refuses_bind refuses_assertCandidate fun _ _ => refuses_bind ih fun _ _ =>
          refuses_ok _

theorem assertCandidatesFrom_ok {candidates : List PackCandidate}
    {validated : List ValidatedCandidate}
    (h : assertCandidatesFrom sanitizer audience seen index candidates = .ok validated) :
    (∀ v ∈ validated, CandidateAccepted sanitizer v.value ∧ v.value.id ∉ seen)
      ∧ (validated.map (·.value.id)).Nodup := by
  induction candidates generalizing seen index validated with
  | nil => cases h; simp
  | cons candidate rest ih =>
      rw [assertCandidatesFrom] at h
      split at h
      · exact ih h
      · rw [bind_ok] at h
        obtain ⟨first, hfirst, h⟩ := h
        rw [bind_ok] at h
        obtain ⟨others, hothers, h⟩ := h
        cases h
        obtain ⟨haccepted, hseen, hid⟩ := assertCandidate_ok hfirst
        obtain ⟨hall, hnodup⟩ := ih hothers
        refine ⟨?_, ?_⟩
        · rw [List.forall_mem_cons]
          refine ⟨⟨haccepted, hid ▸ hseen⟩, fun v hv => ⟨(hall v hv).1, fun hmem => ?_⟩⟩
          exact (hall v hv).2 (List.mem_cons_of_mem _ hmem)
        · rw [List.map_cons, List.nodup_cons]
          refine ⟨fun hmem => ?_, hnodup⟩
          obtain ⟨v, hv, heq⟩ := List.mem_map.mp hmem
          have hne := (hall v hv).2
          rw [heq, hid] at hne
          exact hne (List.mem_cons_self ..)

theorem refuses_assertCandidates (candidates : List PackCandidate) :
    Refuses (assertCandidates sanitizer audience candidates) :=
  refuses_bind (refuses_assertCandidatesFrom candidates) fun _ _ => refuses_ok _

theorem assertCandidates_ok {candidates : List PackCandidate}
    {validated : List ValidatedCandidate}
    (h : assertCandidates sanitizer audience candidates = .ok validated) :
    (∀ v ∈ validated, CandidateAccepted sanitizer v.value)
      ∧ (validated.map (·.value.id)).Nodup := by
  rw [assertCandidates, bind_ok] at h
  obtain ⟨unsorted, hunsorted, h⟩ := h
  cases h
  obtain ⟨hall, hnodup⟩ := assertCandidatesFrom_ok hunsorted
  have hperm := List.perm_insertionSort (fun left right => candidateLe left right = true) unsorted
  exact ⟨fun v hv => (hall v (hperm.mem_iff.mp hv)).1, (hperm.map _).nodup_iff.mpr hnodup⟩

end Candidates

/-! ## Actions -/

structure ActionAccepted (action : NextAction) : Prop where
  url : ScalarText action.url ∧ isSafeWorkerPath action.url = true
  why : ScalarText action.why

theorem refuses_assertAction {index : Nat} {action : PackActionCandidate} :
    Refuses (assertAction index action) :=
  refuses_bind (refuses_assertScalarText _ _) fun _ _ =>
    refuses_bind (refuses_assertThat _ _ _) fun _ _ =>
      refuses_bind (refuses_assertScalarText _ _) fun _ _ =>
        refuses_bind (refuses_assertOptionalPermissionList _ _) fun _ _ => refuses_ok _

theorem assertAction_ok {index : Nat} {action : PackActionCandidate} {validated : ValidatedAction}
    (h : assertAction index action = .ok validated) : ActionAccepted validated.value := by
  rw [assertAction, bind_ok] at h
  obtain ⟨url, hurl, h⟩ := h
  obtain ⟨_, hurlScalar, rfl⟩ := assertScalarText_ok.mp hurl
  rw [bind_unit_ok, bind_ok] at h
  obtain ⟨hsafe, why, hwhy, h⟩ := h
  obtain ⟨_, hwhyScalar, rfl⟩ := assertScalarText_ok.mp hwhy
  rw [bind_ok] at h
  obtain ⟨requires, _, h⟩ := h
  cases h
  exact ⟨⟨hurlScalar, assertThat_ok.mp hsafe⟩, hwhyScalar⟩

variable {audience : PackAudience}

theorem refuses_assertActionsFrom {index : Nat} (actions : List PackActionCandidate) :
    Refuses (assertActionsFrom audience index actions) := by
  induction actions generalizing index with
  | nil => exact refuses_ok _
  | cons action rest ih =>
      rw [assertActionsFrom]
      split
      · exact refuses_bind ih fun _ _ => refuses_ok _
      split
      · exact refuses_bind ih fun _ _ => refuses_ok _
      · exact refuses_bind refuses_assertAction fun _ _ => refuses_bind ih fun _ _ => refuses_ok _

theorem assertActionsFrom_ok {index : Nat} {actions : List PackActionCandidate}
    {validated : ValidatedActions} (h : assertActionsFrom audience index actions = .ok validated) :
    ∀ v ∈ validated.values, ActionAccepted v.value := by
  induction actions generalizing index validated with
  | nil => cases h; simp
  | cons action rest ih =>
      rw [assertActionsFrom] at h
      split at h
      · rw [bind_ok] at h
        obtain ⟨others, hothers, h⟩ := h
        cases h
        intro v hv
        exact ih hothers v hv
      split at h
      · rw [bind_ok] at h
        obtain ⟨others, hothers, h⟩ := h
        cases h
        intro v hv
        exact ih hothers v hv
      · rw [bind_ok] at h
        obtain ⟨first, hfirst, h⟩ := h
        rw [bind_ok] at h
        obtain ⟨others, hothers, h⟩ := h
        cases h
        rw [List.forall_mem_cons]
        exact ⟨assertAction_ok hfirst, ih hothers⟩

theorem refuses_assertActions (actions : List PackActionCandidate) :
    Refuses (assertActions audience actions) :=
  refuses_bind (refuses_assertActionsFrom actions) fun _ _ => refuses_ok _

theorem assertActions_ok {actions : List PackActionCandidate} {validated : ValidatedActions}
    (h : assertActions audience actions = .ok validated) :
    ∀ v ∈ validated.values, ActionAccepted v.value := by
  rw [assertActions, bind_ok] at h
  obtain ⟨unsorted, hunsorted, h⟩ := h
  cases h
  intro v hv
  exact assertActionsFrom_ok hunsorted v ((List.mem_insertionSort _).mp hv)

/-! ## Notes and omissions -/

theorem refuses_assertDegraded (value : Option (List Text)) : Refuses (assertDegraded value) := by
  cases value with
  | none => exact refuses_ok _
  | some notes =>
      exact refuses_bind (refuses_forM fun _ _ => refuses_map (refuses_assertScalarText _ _))
        fun _ _ => refuses_ok _

theorem assertDegraded_ok {value : Option (List Text)} {notes : List Text}
    (h : assertDegraded value = .ok notes) :
    (∀ note ∈ notes, ScalarText note) ∧ ∀ note, note ∈ notes ↔ ∃ given ∈ value, note ∈ given := by
  cases value with
  | none => cases h; simp
  | some given =>
      rw [assertDegraded, bind_unit_ok] at h
      obtain ⟨hall, h⟩ := h
      cases h
      have hscalar : ∀ note ∈ given, ScalarText note := forall_mem_zipIdx.mp fun p hp => by
        obtain ⟨_, hnote, _⟩ := map_ok.mp (forM_ok.mp hall p hp)
        exact (assertScalarText_ok.mp hnote).2.1
      exact ⟨fun note hnote => hscalar note (mem_sortedSet.mp hnote), fun note => by
        simp [mem_sortedSet]⟩

theorem refuses_assertOmission {index : Nat} {entry : OmittedEntry} :
    Refuses (assertOmission index entry) := by
  refine refuses_bind (refuses_assertScalarText _ _) fun _ _ => ?_
  cases entry.detail with
  | none => exact refuses_ok _
  | some detail => exact refuses_bind (refuses_assertScalarText _ _) fun _ _ => refuses_ok _

theorem assertOmission_ok {index : Nat} {entry : OmittedEntry}
    (h : assertOmission index entry = .ok ()) :
    ScalarText entry.reason ∧ ∀ detail ∈ entry.detail, ScalarText detail := by
  rw [assertOmission, bind_ok] at h
  obtain ⟨_, hreason, h⟩ := h
  refine ⟨(assertScalarText_ok.mp hreason).2.1, fun detail hdetail => ?_⟩
  rw [Option.mem_def] at hdetail
  rw [hdetail] at h
  dsimp only at h
  rw [bind_ok] at h
  obtain ⟨_, hscalar, _⟩ := h
  exact (assertScalarText_ok.mp hscalar).2.1

theorem refuses_assertDeclaredOmissions (value : Option (List OmittedEntry)) :
    Refuses (assertDeclaredOmissions value) := by
  cases value with
  | none => exact refuses_ok _
  | some entries =>
      exact refuses_bind (refuses_forM fun _ _ => refuses_assertOmission) fun _ _ => refuses_ok _

theorem assertDeclaredOmissions_ok {value : Option (List OmittedEntry)}
    {entries : List OmittedEntry} (h : assertDeclaredOmissions value = .ok entries) :
    ∀ entry ∈ entries, ScalarText entry.reason ∧ ∀ detail ∈ entry.detail, ScalarText detail := by
  cases value with
  | none => cases h; simp
  | some given =>
      rw [assertDeclaredOmissions, bind_unit_ok] at h
      obtain ⟨hall, h⟩ := h
      cases h
      intro entry hentry
      rw [List.mem_insertionSort] at hentry
      obtain ⟨index, hindex, rfl⟩ := List.mem_iff_getElem.mp hentry
      have hmem : (given[index], index) ∈ given.zipIdx := by
        simp [List.mem_zipIdx_iff_getElem?]
      exact assertOmission_ok (forM_ok.mp hall _ hmem)

/-! ## The draft -/

theorem refuses_bucketizePackBudget (requested : Int) : Refuses (bucketizePackBudget requested) := by
  refine refuses_bind (refuses_assertThat _ _ _) fun _ _ => ?_
  split
  · exact refuses_ok _
  · exact refuses_error _ _

theorem bucketizePackBudget_ok {requested : Int} {bucket : Nat}
    (h : bucketizePackBudget requested = .ok bucket) : bucket ∈ packBudgetBuckets := by
  rw [bucketizePackBudget, bind_unit_ok] at h
  obtain ⟨_, h⟩ := h
  split at h
  · rename_i found hfound
    cases h
    exact List.mem_of_find?_eq_some hfound
  · cases h

theorem refuses_composedProvenance (publicAudience : Bool)
    (provenance : Option (Option SessionProvenance)) :
    Refuses (composedProvenance publicAudience provenance) := by
  unfold composedProvenance
  split
  · exact refuses_ok _
  · exact refuses_ok _
  · split
    · exact refuses_ok _
    · exact refuses_error _ _

theorem refuses_commonContents (viewer : PackViewer) (input : PackComposerInput) :
    Refuses (commonContents viewer input) :=
  refuses_bind (refuses_composedProvenance _ _) fun _ _ =>
    refuses_bind (refuses_bucketizePackBudget _) fun _ _ =>
      refuses_bind (refuses_assertHeaderToken _ _) fun _ _ =>
        refuses_bind (refuses_assertHeaderToken _ _) fun _ _ =>
          refuses_bind (refuses_assertHeaderToken _ _) fun _ _ =>
            refuses_bind (refuses_assertHeaderToken _ _) fun _ _ =>
              refuses_bind (refuses_assertDegraded _) fun _ _ =>
                refuses_bind (refuses_assertThat _ _ _) fun _ _ => refuses_ok _

theorem refuses_draftPack (renderer : Renderer) (common : PackContents)
    (input : PackComposerInput) : Refuses (draftPack renderer common input) :=
  refuses_bind (refuses_assertCandidates _) fun _ _ =>
    refuses_bind (refuses_assertActions _) fun _ _ =>
      refuses_bind (refuses_assertDeclaredOmissions _) fun _ _ => refuses_ok _

end Asimposium
