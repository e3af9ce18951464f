import Asimposium.Render.PackPrefix

/-!
# From an input to a draft

What the assertions keep of an input (`assertCandidates_value`,
`assertActions_value`, `draftPack_ok`). A composition is refused by an
assertion, tells an outsider nothing, or goes on from a draft
(`compose_cases`).
-/

namespace Asimposium

open Text Json ExceptRun

/-! ## Candidates and actions -/

def validatedCandidate (candidate : PackCandidate) : ValidatedCandidate where
  value := { candidate with requires := none }
  requires := sortedSet (candidate.requires.getD [])

def validatedAction (action : PackActionCandidate) : ValidatedAction where
  value := { method := action.method, url := action.url, why := action.why }
  requires := sortedSet (action.requires.getD [])

def isExcludedWrite (audience : PackAudience) (action : PackActionCandidate) : Bool :=
  audience == .public && action.method == .POST

/-- A read that is not public, which no public pack carries. -/
def isExcludedRead (audience : PackAudience) (action : PackActionCandidate) : Bool :=
  audience == .public && action.method != .POST && !action.publicRead

def isInspected (audience : PackAudience) (action : PackActionCandidate) : Bool :=
  !isExcludedWrite audience action && !isExcludedRead audience action

section Values

variable {sanitizer : Sanitizer} {audience : PackAudience}

theorem assertOptionalPermissionList_ok {value : Option (List Text)} {field : Text}
    {result : List Text} (h : assertOptionalPermissionList value field = .ok result) :
    (∀ t ∈ value.getD [], t ≠ [] ∧ ScalarText t) ∧ result = sortedSet (value.getD []) := by
  cases value with
  | none =>
      cases h
      exact ⟨fun _ h => (nomatch h), rfl⟩
  | some value => exact assertPermissionList_ok.mp h

theorem assertComposedSection_ok {value result : Option ComposedSection} {scope : ItemScope}
    {kind : Text} (h : assertComposedSection value scope kind = .ok result) : result = value := by
  cases value with
  | none =>
      cases h
      rfl
  | some declared =>
      simp only [assertComposedSection, bind_unit_ok] at h
      obtain ⟨_, _, h⟩ := h
      cases h
      rfl

variable {index : Nat}

theorem assertCandidate_value {seen : List Text} {candidate : PackCandidate}
    {validated : ValidatedCandidate}
    (h : assertCandidate sanitizer seen index candidate = .ok validated) :
    validated = validatedCandidate candidate := by
  simp only [assertCandidate, bind_unit_ok] at h
  obtain ⟨_, _, _, h⟩ := h
  rw [bind_ok] at h
  obtain ⟨composedSection, hsection, h⟩ := h
  rw [bind_unit_ok, bind_ok] at h
  obtain ⟨_, tokens, htokens, h⟩ := h
  rw [bind_ok] at h
  obtain ⟨stablePrefix, hstable, h⟩ := h
  rw [bind_ok] at h
  obtain ⟨requires, hrequires, h⟩ := h
  cases h
  obtain rfl := assertComposedSection_ok hsection
  obtain ⟨_, rfl⟩ := assertTokenEstimate_ok.mp htokens
  obtain ⟨_, rfl⟩ := assertStablePrefix_ok.mp hstable
  obtain ⟨_, rfl⟩ := assertOptionalPermissionList_ok hrequires
  rfl

theorem assertCandidatesFrom_value {seen : List Text} {candidates : List PackCandidate}
    {validated : List ValidatedCandidate}
    (h : assertCandidatesFrom sanitizer audience seen index candidates = .ok validated) :
    validated
      = (candidates.filter fun candidate => !isPassedOver audience candidate).map
        validatedCandidate := by
  induction candidates generalizing seen index validated with
  | nil =>
      cases h
      rfl
  | cons candidate rest ih =>
      rw [assertCandidatesFrom] at h
      split at h
      · rename_i hpassed
        rw [List.filter_cons_of_neg (by rw [hpassed]; exact Bool.false_ne_true)]
        exact ih h
      · rename_i hkept
        rw [bind_ok] at h
        obtain ⟨first, hfirst, h⟩ := h
        rw [bind_ok] at h
        obtain ⟨others, hothers, h⟩ := h
        cases h
        rw [List.filter_cons_of_pos (by simpa using hkept), List.map_cons, ih hothers,
          assertCandidate_value hfirst]

theorem assertAction_value {action : PackActionCandidate} {validated : ValidatedAction}
    (h : assertAction index action = .ok validated) : validated = validatedAction action := by
  rw [assertAction, bind_ok] at h
  obtain ⟨url, hurl, h⟩ := h
  obtain ⟨_, _, rfl⟩ := assertScalarText_ok.mp hurl
  rw [bind_unit_ok, bind_ok] at h
  obtain ⟨_, why, hwhy, h⟩ := h
  obtain ⟨_, _, rfl⟩ := assertScalarText_ok.mp hwhy
  rw [bind_ok] at h
  obtain ⟨requires, hrequires, h⟩ := h
  cases h
  obtain ⟨_, rfl⟩ := assertOptionalPermissionList_ok hrequires
  rfl

/-- What the loop over the actions leaves: the inspected ones, and how many
it passed over for each reason. -/
def sortedActions (audience : PackAudience) (actions : List PackActionCandidate) :
    ValidatedActions where
  values := (actions.filter (isInspected audience)).map validatedAction
  publicWriteActionsExcluded := actions.countP (isExcludedWrite audience)
  publicNonreadActionsExcluded := actions.countP (isExcludedRead audience)

theorem assertActionsFrom_value {actions : List PackActionCandidate}
    {validated : ValidatedActions} (h : assertActionsFrom audience index actions = .ok validated) :
    validated = sortedActions audience actions := by
  induction actions generalizing index validated with
  | nil =>
      cases h
      rfl
  | cons action rest ih =>
      rw [assertActionsFrom] at h
      split at h
      · rename_i hwrite
        rw [bind_ok] at h
        obtain ⟨others, hothers, h⟩ := h
        cases h
        have hexcluded : isExcludedWrite audience action = true := hwrite
        have hread : isExcludedRead audience action = false := by
          simp only [Bool.and_eq_true, beq_iff_eq] at hwrite
          simp [isExcludedRead, hwrite.2]
        rw [ih hothers]
        simp [sortedActions, isInspected, hexcluded, hread]
      split at h
      · rename_i hnotWrite hread
        rw [bind_ok] at h
        obtain ⟨others, hothers, h⟩ := h
        cases h
        have hkept : isExcludedWrite audience action = false := by
          simpa [isExcludedWrite] using hnotWrite
        have hexcluded : isExcludedRead audience action = true := by
          simp only [Bool.and_eq_true, Bool.not_eq_true'] at hread
          have hmethod : action.method ≠ .POST := by
            intro hpost
            rw [isExcludedWrite, hread.1, hpost] at hkept
            cases hkept
          simp [isExcludedRead, hread, hmethod]
        rw [ih hothers]
        simp [sortedActions, isInspected, hexcluded, hkept]
      · rename_i hnotWrite hnotRead
        rw [bind_ok] at h
        obtain ⟨first, hfirst, h⟩ := h
        rw [bind_ok] at h
        obtain ⟨others, hothers, h⟩ := h
        cases h
        have hkept : isExcludedWrite audience action = false := by
          simpa [isExcludedWrite] using hnotWrite
        have hkeptRead : isExcludedRead audience action = false := by
          simp only [Bool.and_eq_true, Bool.not_eq_true', not_and] at hnotRead
          cases haudience : audience == .public with
          | false => simp [isExcludedRead, haudience]
          | true => simp [isExcludedRead, hnotRead haudience]
        rw [ih hothers, assertAction_value hfirst]
        simp [sortedActions, isInspected, hkept, hkeptRead]

end Values

/-! ## What is checked -/

theorem budget_pos {budget : Nat} (h : budget ∈ packBudgetBuckets) :
    1 ≤ budget ∧ budget ≤ maxSafeInteger := by
  simp only [packBudgetBuckets, List.mem_cons, List.not_mem_nil, or_false] at h
  unfold maxSafeInteger
  omega

structure ContentsChecked (pack : PackContents) : Prop where
  header : ∀ t ∈ [pack.schema, pack.session, pack.problem, pack.profile],
    ScalarText t ∧ isSafeHeaderValue t = true
  provenance : ∀ declared, pack.provenance = some (some declared) → declared.parse ≠ none
  viewer : pack.provenance ≠ none → pack.viewer.audience = .session
  permissions : ∀ t ∈ pack.viewer.effectivePermissions, ScalarText t
  preamble : pack.preamble = packPreamble
  degraded : ∀ note ∈ pack.degraded, ScalarText note
  cursor : isSafeInteger pack.cursor = true ∧ 0 ≤ pack.cursor
  budget : pack.budgetTokens ∈ packBudgetBuckets
  nextActions : ∀ action ∈ pack.nextActions, ActionAccepted action
  omitted : ∀ entry ∈ pack.omitted, ScalarText entry.reason
    ∧ ∀ detail ∈ entry.detail, ScalarText detail

structure DraftChecked (renderer : Renderer) (draft : Draft) : Prop where
  contents : ContentsChecked draft.contents
  candidates : ∀ candidate ∈ draft.visible, CandidateAccepted renderer.toSanitizer candidate
  ids : (draft.visible.map (·.id)).Nodup

/-! ## Contents of an input -/

def HeaderToken (t : Text) : Prop := t ≠ [] ∧ ScalarText t ∧ isSafeHeaderValue t = true

/-- `common`, once its checks have passed. -/
def contentsOf (viewer : PackViewer) (input : PackComposerInput)
    (provenance : Option (Option SessionProvenance)) (budgetTokens : Nat)
    (degraded : List Text) : PackContents where
  schema := input.schema
  session := input.session
  provenance := provenance
  problem := input.problem
  profile := input.profile
  cursor := input.cursor
  budgetTokens := budgetTokens
  preamble := packPreamble
  viewer :=
    { audience := viewer.audience
      membership := if viewer.audience == .public then .none else viewer.membership
      effectivePermissions :=
        if viewer.audience == .public then [] else viewer.effectivePermissions }
  items := []
  omitted := []
  nextActions := []
  degraded := degraded
  promotionBudget := input.promotionBudget

/-- The checks on the way to `common`. -/
structure CommonAccepted (viewer : PackViewer) (input : PackComposerInput)
    (provenance : Option (Option SessionProvenance)) (budgetTokens : Nat)
    (degraded : List Text) : Prop where
  provenance : composedProvenance (viewer.audience == .public) input.provenance = .ok provenance
  budget : bucketizePackBudget input.requestedMaxTokens = .ok budgetTokens
  header : ∀ t ∈ [input.schema, input.session, input.problem, input.profile], HeaderToken t
  degraded : assertDegraded input.degraded = .ok degraded
  cursor : isSafeInteger input.cursor = true ∧ 0 ≤ input.cursor

section Common

variable {viewer : PackViewer} {input : PackComposerInput}

theorem commonContents_ok {common : PackContents} :
    commonContents viewer input = .ok common ↔ ∃ provenance budgetTokens degraded,
      CommonAccepted viewer input provenance budgetTokens degraded
        ∧ common = contentsOf viewer input provenance budgetTokens degraded := by
  unfold commonContents
  simp only [bind_ok (α := Option (Option SessionProvenance)), bind_ok (α := Nat),
    bind_ok (α := Text), bind_ok (α := List Text), bind_unit_ok, assertThat_ok,
    assertHeaderToken_ok, Bool.and_eq_true, decide_eq_true_eq]
  constructor
  · rintro ⟨provenance, hprovenance, budget, hbudget, _, ⟨hschema, rfl⟩, _, ⟨hsession, rfl⟩, _,
      ⟨hproblem, rfl⟩, _, ⟨hprofile, rfl⟩, degraded, hdegraded, hcursor, heq⟩
    cases heq
    refine ⟨provenance, budget, degraded, ⟨hprovenance, hbudget, ?_, hdegraded, hcursor⟩, rfl⟩
    simp only [List.forall_mem_cons, List.not_mem_nil, false_imp_iff, implies_true, and_true]
    exact ⟨hschema, hsession, hproblem, hprofile⟩
  · rintro ⟨provenance, budget, degraded, ⟨hprovenance, hbudget, hheader, hdegraded, hcursor⟩, rfl⟩
    simp only [List.forall_mem_cons, List.not_mem_nil, false_imp_iff, implies_true, and_true]
      at hheader
    obtain ⟨hschema, hsession, hproblem, hprofile⟩ := hheader
    exact ⟨provenance, hprovenance, budget, hbudget, _, ⟨hschema, rfl⟩, _, ⟨hsession, rfl⟩, _,
      ⟨hproblem, rfl⟩, _, ⟨hprofile, rfl⟩, degraded, hdegraded, hcursor, rfl⟩

theorem composedProvenance_ok {publicAudience : Bool}
    {given provenance : Option (Option SessionProvenance)}
    (h : composedProvenance publicAudience given = .ok provenance) :
    (provenance ≠ none → publicAudience = false)
      ∧ ∀ declared, provenance = some (some declared) → declared.parse ≠ none := by
  unfold composedProvenance at h
  cases publicAudience with
  | true =>
      cases h
      exact ⟨fun hne => absurd rfl hne, fun _ h => nomatch h⟩
  | false =>
      refine ⟨fun _ => rfl, fun declared hdeclared => ?_⟩
      rw [if_neg Bool.false_ne_true] at h
      split at h
      · cases h
        cases hdeclared
      · cases h
        cases hdeclared
      · split at h
        · rename_i parsed hparsed
          cases h
          cases hdeclared
          rw [SessionProvenance.parse_idem hparsed]
          exact Option.some_ne_none _
        · cases h

theorem assertViewer_ok {given : PackViewer} (h : assertViewer given = .ok viewer) :
    (∀ t ∈ given.effectivePermissions, t ≠ [] ∧ ScalarText t)
      ∧ viewer = { given with effectivePermissions := sortedSet given.effectivePermissions } := by
  rw [assertViewer, bind_ok] at h
  obtain ⟨permissions, hpermissions, h⟩ := h
  cases h
  obtain ⟨hscalar, rfl⟩ := assertPermissionList_ok.mp hpermissions
  exact ⟨hscalar, rfl⟩

theorem CommonAccepted.checked {provenance : Option (Option SessionProvenance)}
    {budgetTokens : Nat} {degraded : List Text}
    (h : CommonAccepted viewer input provenance budgetTokens degraded)
    (hpermissions : ∀ t ∈ viewer.effectivePermissions, ScalarText t)
    {nextActions : List NextAction} (hactions : ∀ action ∈ nextActions, ActionAccepted action)
    {omitted : List OmittedEntry} (homitted : ∀ entry ∈ omitted, ScalarText entry.reason
      ∧ ∀ detail ∈ entry.detail, ScalarText detail) :
    ContentsChecked { contentsOf viewer input provenance budgetTokens degraded with
      nextActions, omitted } where
  header := fun t ht => (h.header t ht).2
  provenance := (composedProvenance_ok h.provenance).2
  viewer := fun hne => by
    have hsession := (composedProvenance_ok h.provenance).1 hne
    change viewer.audience = .session
    cases haudience : viewer.audience with
    | «public» => rw [haudience] at hsession; cases hsession
    | session => rfl
  permissions := by
    intro t ht
    simp only [contentsOf] at ht
    split at ht
    · cases ht
    · exact hpermissions t ht
  preamble := rfl
  degraded := (assertDegraded_ok h.degraded).1
  cursor := h.cursor
  budget := bucketizePackBudget_ok h.budget
  nextActions := hactions
  omitted := homitted

end Common

/-! ## The draft of an input -/

namespace PackComposerInput

def permissions (input : PackComposerInput) : List Text :=
  if input.viewer.audience == .public then [] else input.viewer.effectivePermissions

def visible (input : PackComposerInput) : List PackCandidate :=
  input.candidates.filter fun candidate => !isPassedOver input.viewer.audience candidate
    && isAuthorized (candidate.requires.getD []) input.permissions

def advertised (input : PackComposerInput) : List PackActionCandidate :=
  input.actionCandidates.filter fun action => isInspected input.viewer.audience action
    && isAdvertised input.viewer.audience input.permissions (validatedAction action)

def remainingOmitted (input : PackComposerInput) : List OmittedEntry :=
  (input.omitted.getD []).filter (staysOmitted (composedSections input.profile input.visible))

def isOutsider (input : PackComposerInput) : Bool :=
  input.viewer.audience == .session && input.viewer.membership == .none

end PackComposerInput

theorem isAuthorized_congr {requires requires' permissions permissions' : List Text}
    (hrequires : ∀ t, t ∈ requires ↔ t ∈ requires')
    (hpermissions : ∀ t, t ∈ permissions ↔ t ∈ permissions') :
    isAuthorized requires permissions = isAuthorized requires' permissions' := by
  rw [Bool.eq_iff_iff, isAuthorized, isAuthorized, List.all_eq_true, List.all_eq_true]
  simp only [List.contains_iff_mem]
  constructor
  · intro h t ht
    exact (hpermissions t).mp (h t ((hrequires t).mpr ht))
  · intro h t ht
    exact (hpermissions t).mpr (h t ((hrequires t).mp ht))

theorem staysOmitted_congr {sections sections' : List Text}
    (h : ∀ t, t ∈ sections ↔ t ∈ sections') : staysOmitted sections = staysOmitted sections' := by
  have hcontains : ∀ detail, sections.contains detail = sections'.contains detail := fun detail => by
    rw [Bool.eq_iff_iff, List.contains_iff_mem, List.contains_iff_mem]
    exact h detail
  funext entry
  simp only [staysOmitted, hcontains]

theorem mem_composedSections {profile : Text} {visible : List PackCandidate} {t : Text} :
    t ∈ composedSections profile visible ↔ ∃ candidate ∈ visible, ∃ declared,
      candidate.composedSection = some declared ∧ declared.profile = profile
        ∧ declared.name = t := by
  rw [composedSections, List.mem_flatMap]
  refine exists_congr fun candidate => and_congr_right fun _ => ?_
  cases candidate.composedSection with
  | none => simp
  | some declared =>
      by_cases hprofile : declared.profile = profile
      · simp [hprofile, eq_comm]
      · simp [hprofile]

def sortedCandidates (audience : PackAudience) (candidates : List PackCandidate) :
    List ValidatedCandidate :=
  ((candidates.filter fun candidate => !isPassedOver audience candidate).map
    validatedCandidate).insertionSort fun left right => candidateLe left right

def listedActions (audience : PackAudience) (actions : List PackActionCandidate) :
    ValidatedActions :=
  { sortedActions audience actions with
    values := (sortedActions audience actions).values.insertionSort fun left right =>
      actionLe left right }

def listedOmitted (omitted : Option (List OmittedEntry)) : List OmittedEntry :=
  (omitted.getD []).insertionSort fun left right => omissionLe left right

def draftOf (common : PackContents) (input : PackComposerInput) : Draft :=
  let permissions := common.viewer.effectivePermissions
  let candidates := sortedCandidates common.viewer.audience input.candidates
  let actions := listedActions common.viewer.audience input.actionCandidates
  let visible := (candidates.filter fun candidate =>
    isAuthorized candidate.requires permissions).map (·.value)
  let advertised := actions.values.filter (isAdvertised common.viewer.audience permissions)
  { contents := { common with
      nextActions := advertised.map (·.value)
      omitted := (listedOmitted input.omitted).filter
          (staysOmitted (composedSections common.profile visible))
        ++ omissionOf (candidates.length - visible.length) "item_permission_filtered"
        ++ omissionOf actions.publicWriteActionsExcluded "public_write_actions_excluded"
        ++ omissionOf actions.publicNonreadActionsExcluded "public_nonread_actions_excluded"
        ++ omissionOf (actions.values.length - advertised.length) "actions_permission_filtered" }
    visible }

section DraftOf

variable {renderer : Renderer} {common : PackContents} {input : PackComposerInput}

theorem assertCandidates_value {sanitizer : Sanitizer} {audience : PackAudience}
    {candidates : List PackCandidate} {validated : List ValidatedCandidate}
    (h : assertCandidates sanitizer audience candidates = .ok validated) :
    validated = sortedCandidates audience candidates := by
  rw [assertCandidates, bind_ok] at h
  obtain ⟨unsorted, hunsorted, h⟩ := h
  cases h
  rw [assertCandidatesFrom_value hunsorted]
  rfl

theorem assertActions_value {audience : PackAudience} {actions : List PackActionCandidate}
    {validated : ValidatedActions} (h : assertActions audience actions = .ok validated) :
    validated = listedActions audience actions := by
  rw [assertActions, bind_ok] at h
  obtain ⟨unsorted, hunsorted, h⟩ := h
  cases h
  rw [assertActionsFrom_value hunsorted]
  rfl

theorem assertDeclaredOmissions_value {value : Option (List OmittedEntry)}
    {entries : List OmittedEntry} (h : assertDeclaredOmissions value = .ok entries) :
    entries = listedOmitted value := by
  cases value with
  | none =>
      cases h
      rfl
  | some given =>
      rw [assertDeclaredOmissions, bind_unit_ok] at h
      obtain ⟨_, h⟩ := h
      cases h
      rfl

theorem draftPack_ok {draft : Draft} : draftPack renderer common input = .ok draft ↔
    (∃ candidates, assertCandidates renderer.toSanitizer common.viewer.audience input.candidates
        = .ok candidates)
      ∧ (∃ actions, assertActions common.viewer.audience input.actionCandidates = .ok actions)
      ∧ (∃ declared, assertDeclaredOmissions input.omitted = .ok declared)
      ∧ draft = draftOf common input := by
  simp only [draftPack, bind_ok]
  constructor
  · rintro ⟨candidates, hcandidates, actions, hactions, declared, hdeclared, h⟩
    refine ⟨⟨_, hcandidates⟩, ⟨_, hactions⟩, ⟨_, hdeclared⟩, ?_⟩
    rw [← Except.ok.inj h, assertCandidates_value hcandidates, assertActions_value hactions,
      assertDeclaredOmissions_value hdeclared]
    rfl
  · rintro ⟨⟨candidates, hcandidates⟩, ⟨actions, hactions⟩, ⟨declared, hdeclared⟩, rfl⟩
    refine ⟨candidates, hcandidates, actions, hactions, declared, hdeclared, ?_⟩
    rw [assertCandidates_value hcandidates, assertActions_value hactions,
      assertDeclaredOmissions_value hdeclared]
    rfl

theorem omissionOf_scalar {count : Nat} {reason : String} (h : ScalarText (text reason)) :
    ∀ entry ∈ omissionOf count reason, ScalarText entry.reason
      ∧ ∀ detail ∈ entry.detail, ScalarText detail := by
  unfold omissionOf
  split
  · intro entry hentry
    obtain rfl := List.mem_singleton.mp hentry
    exact ⟨h, fun _ h => nomatch h⟩
  · exact fun _ h => nomatch h

end DraftOf

/-! ### The draft against its input -/

section Against

variable {renderer : Renderer} {input : PackComposerInput} {viewer : PackViewer}
  {provenance : Option (Option SessionProvenance)} {budgetTokens : Nat} {degraded : List Text}

theorem mem_permissions (hviewer : assertViewer input.viewer = .ok viewer) (t : Text) :
    t ∈ (contentsOf viewer input provenance budgetTokens degraded).viewer.effectivePermissions
      ↔ t ∈ input.permissions := by
  obtain ⟨_, rfl⟩ := assertViewer_ok hviewer
  simp only [contentsOf, PackComposerInput.permissions]
  split
  · rfl
  · exact mem_sortedSet

theorem viewer_audience (hviewer : assertViewer input.viewer = .ok viewer) :
    viewer.audience = input.viewer.audience := by
  obtain ⟨_, rfl⟩ := assertViewer_ok hviewer
  rfl

theorem mem_draftOf_visible (hviewer : assertViewer input.viewer = .ok viewer)
    (candidate : PackCandidate) :
    candidate ∈ (draftOf (contentsOf viewer input provenance budgetTokens degraded) input).visible
      ↔ ∃ given ∈ input.visible, { given with requires := none } = candidate := by
  have haudience : (contentsOf viewer input provenance budgetTokens degraded).viewer.audience
      = input.viewer.audience := @viewer_audience input viewer hviewer
  have hauthorized : ∀ given : PackCandidate,
      isAuthorized (validatedCandidate given).requires
        (contentsOf viewer input provenance budgetTokens degraded).viewer.effectivePermissions
      = isAuthorized (given.requires.getD []) input.permissions := fun given =>
    isAuthorized_congr (fun _ => mem_sortedSet) (mem_permissions hviewer)
  simp only [draftOf, List.mem_map, List.mem_filter, sortedCandidates, List.mem_insertionSort,
    haudience, PackComposerInput.visible, Bool.and_eq_true]
  constructor
  · rintro ⟨_, ⟨⟨given, ⟨hgiven, hkept⟩, rfl⟩, hall⟩, rfl⟩
    rw [hauthorized] at hall
    exact ⟨given, ⟨hgiven, hkept, hall⟩, rfl⟩
  · rintro ⟨given, ⟨hgiven, hkept, hall⟩, rfl⟩
    rw [← hauthorized] at hall
    exact ⟨_, ⟨⟨given, ⟨hgiven, hkept⟩, rfl⟩, hall⟩, rfl⟩

theorem mem_draftOf_nextActions (hviewer : assertViewer input.viewer = .ok viewer)
    (action : NextAction) :
    action ∈ (draftOf (contentsOf viewer input provenance budgetTokens degraded)
        input).contents.nextActions
      ↔ ∃ given ∈ input.advertised, given.toNextAction = action := by
  have haudience : (contentsOf viewer input provenance budgetTokens degraded).viewer.audience
      = input.viewer.audience := @viewer_audience input viewer hviewer
  have hadvertised : ∀ given : PackActionCandidate,
      isAdvertised input.viewer.audience
        (contentsOf viewer input provenance budgetTokens degraded).viewer.effectivePermissions
        (validatedAction given)
      = isAdvertised input.viewer.audience input.permissions (validatedAction given) := by
    intro given
    cases haudience : input.viewer.audience with
    | «public» => rfl
    | session => exact isAuthorized_congr (fun _ => Iff.rfl) (mem_permissions hviewer)
  simp only [draftOf, List.mem_map, List.mem_filter, listedActions, sortedActions,
    List.mem_insertionSort, haudience, PackComposerInput.advertised, Bool.and_eq_true]
  constructor
  · rintro ⟨_, ⟨⟨given, ⟨hgiven, hkept⟩, rfl⟩, hall⟩, rfl⟩
    rw [hadvertised] at hall
    exact ⟨given, ⟨hgiven, hkept, hall⟩, rfl⟩
  · rintro ⟨given, ⟨hgiven, hkept, hall⟩, rfl⟩
    rw [← hadvertised] at hall
    exact ⟨_, ⟨⟨given, ⟨hgiven, hkept⟩, rfl⟩, hall⟩, rfl⟩

theorem draftOf_stays (hviewer : assertViewer input.viewer = .ok viewer) :
    staysOmitted (composedSections input.profile
        (draftOf (contentsOf viewer input provenance budgetTokens degraded) input).visible)
      = staysOmitted (composedSections input.profile input.visible) := by
  refine staysOmitted_congr fun t => ?_
  rw [mem_composedSections, mem_composedSections]
  constructor
  · rintro ⟨candidate, hcandidate, declared, hsection, hdeclared⟩
    obtain ⟨given, hgiven, rfl⟩ := (mem_draftOf_visible hviewer candidate).mp hcandidate
    exact ⟨given, hgiven, declared, hsection, hdeclared⟩
  · rintro ⟨given, hgiven, declared, hsection, hdeclared⟩
    exact ⟨_, (mem_draftOf_visible hviewer _).mpr ⟨given, hgiven, rfl⟩, declared, hsection,
      hdeclared⟩

theorem draftPack_checked
    (hcommon : CommonAccepted viewer input provenance budgetTokens degraded)
    (hviewer : assertViewer input.viewer = .ok viewer) {draft : Draft}
    (h : draftPack renderer (contentsOf viewer input provenance budgetTokens degraded) input
      = .ok draft) : DraftChecked renderer draft := by
  obtain ⟨⟨candidates, hcandidates⟩, ⟨actions, hactions⟩, ⟨declared, hdeclared⟩, rfl⟩ :=
    draftPack_ok.mp h
  have hpermissions : ∀ t ∈ viewer.effectivePermissions, ScalarText t := by
    obtain ⟨hscalar, rfl⟩ := assertViewer_ok hviewer
    exact fun t ht => (hscalar t (mem_sortedSet.mp ht)).2
  obtain ⟨haccepted, hids⟩ := assertCandidates_ok hcandidates
  have hactionsAccepted := assertActions_ok hactions
  have homitted := assertDeclaredOmissions_ok hdeclared
  obtain rfl := assertCandidates_value hcandidates
  obtain rfl := assertActions_value hactions
  obtain rfl := assertDeclaredOmissions_value hdeclared
  refine ⟨hcommon.checked hpermissions ?_ ?_, ?_, ?_⟩
  · intro action haction
    obtain ⟨validated, hvalidated, rfl⟩ := List.mem_map.mp haction
    exact hactionsAccepted validated (List.mem_of_mem_filter hvalidated)
  · intro entry hentry
    simp only [List.mem_append] at hentry
    rcases hentry with (((hentry | hentry) | hentry) | hentry) | hentry
    · exact homitted entry (List.mem_of_mem_filter hentry)
    · exact omissionOf_scalar ⟨by decide, by decide⟩ entry hentry
    · exact omissionOf_scalar ⟨by decide, by decide⟩ entry hentry
    · exact omissionOf_scalar ⟨by decide, by decide⟩ entry hentry
    · exact omissionOf_scalar ⟨by decide, by decide⟩ entry hentry
  · intro candidate hcandidate
    obtain ⟨validated, hvalidated, rfl⟩ := List.mem_map.mp hcandidate
    exact haccepted validated (List.mem_of_mem_filter hvalidated)
  · change (((sortedCandidates _ _).filter _).map (·.value)).map (·.id) |>.Nodup
    rw [List.map_map]
    exact hids.sublist (List.filter_sublist.map _)

end Against

/-! ## PackAdmitted inputs -/

structure Drafted (renderer : Renderer) (input : PackComposerInput) (draft : Draft) : Prop where
  member : input.isOutsider = false
  drafted : ∃ viewer provenance budgetTokens degraded, assertViewer input.viewer = .ok viewer
    ∧ CommonAccepted viewer input provenance budgetTokens degraded
    ∧ draftPack renderer (contentsOf viewer input provenance budgetTokens degraded) input
      = .ok draft

/-- The composition of an input ends in contents that tell nothing. -/
structure Outside (input : PackComposerInput) (contents : PackContents) : Prop where
  outsider : input.isOutsider = true
  told : ∃ viewer provenance budgetTokens degraded, assertViewer input.viewer = .ok viewer
    ∧ CommonAccepted viewer input provenance budgetTokens degraded
    ∧ contents = { contentsOf viewer input provenance budgetTokens degraded with
        omitted := [omission "no_membership"] }

def PackAdmitted (renderer : Renderer) (input : PackComposerInput) : Prop :=
  (∃ contents, Outside input contents) ∨ ∃ draft, Drafted renderer input draft

section Admitted

variable {renderer : Renderer} {input : PackComposerInput}

theorem compose_cases (renderer : Renderer) (input : PackComposerInput) :
    (¬PackAdmitted renderer input ∧ ∃ error, ∀ legacy,
        composePackWithSelectionEstimator renderer input legacy = .error (.refused error))
      ∨ (∃ contents, Outside input contents ∧ ∀ legacy,
        composePackWithSelectionEstimator renderer input legacy = finalize renderer contents)
      ∨ ∃ draft, Drafted renderer input draft ∧ ∀ legacy,
        composePackWithSelectionEstimator renderer input legacy
          = composeDraft renderer draft legacy := by
  cases hviewer : assertViewer input.viewer with
  | error failure =>
      obtain ⟨error, rfl⟩ := refuses_assertViewer input.viewer failure hviewer
      refine .inl ⟨?_, error, fun legacy => ?_⟩
      · rintro (⟨_, _, _, _, _, _, hok, _⟩ | ⟨_, _, _, _, _, _, hok, _⟩)
        · rw [hviewer] at hok; cases hok
        · rw [hviewer] at hok; cases hok
      · rw [composePackWithSelectionEstimator, hviewer]
        rfl
  | ok viewer =>
      have houtsider : (viewer.audience == .session && viewer.membership == .none)
          = input.isOutsider := by
        obtain ⟨_, rfl⟩ := assertViewer_ok hviewer
        rfl
      have hunfold : ∀ legacy, composePackWithSelectionEstimator renderer input legacy
          = (commonContents viewer input >>= fun common =>
            if input.isOutsider then
              finalize renderer { common with omitted := [omission "no_membership"] }
            else draftPack renderer common input >>= fun draft =>
              composeDraft renderer draft legacy) := by
        intro legacy
        rw [composePackWithSelectionEstimator, hviewer, ← houtsider]
        rfl
      simp only [hunfold]
      cases hcommon : commonContents viewer input with
      | error failure =>
          obtain ⟨error, rfl⟩ := refuses_commonContents viewer input failure hcommon
          refine .inl ⟨?_, error, fun legacy => rfl⟩
          have hnone : ∀ provenance budgetTokens degraded,
              ¬CommonAccepted viewer input provenance budgetTokens degraded := by
            intro provenance budgetTokens degraded haccepted
            rw [commonContents_ok.mpr ⟨_, _, _, haccepted, rfl⟩] at hcommon
            cases hcommon
          rintro (⟨_, _, viewer', _, _, _, hok, haccepted, _⟩
            | ⟨_, _, viewer', _, _, _, hok, haccepted, _⟩)
          · rw [← Except.ok.inj (hviewer.symm.trans hok)] at haccepted
            exact hnone _ _ _ haccepted
          · rw [← Except.ok.inj (hviewer.symm.trans hok)] at haccepted
            exact hnone _ _ _ haccepted
      | ok common =>
          obtain ⟨provenance, budgetTokens, degraded, haccepted, rfl⟩ := commonContents_ok.mp hcommon
          cases hout : input.isOutsider with
          | true =>
              exact .inr (.inl ⟨_, ⟨hout, viewer, provenance, budgetTokens, degraded, hviewer,
                haccepted, rfl⟩, fun legacy => rfl⟩)
          | false =>
              cases hdraft : draftPack renderer
                  (contentsOf viewer input provenance budgetTokens degraded) input with
              | ok draft =>
                  refine .inr (.inr ⟨draft, ⟨hout, viewer, provenance, budgetTokens, degraded,
                    hviewer, haccepted, hdraft⟩, fun legacy => ?_⟩)
                  change (draftPack renderer _ input >>= _) = _
                  rw [hdraft]
                  rfl
              | error failure =>
                  obtain ⟨error, rfl⟩ := refuses_draftPack renderer _ input failure hdraft
                  refine .inl ⟨?_, error, fun legacy => ?_⟩
                  · rintro (⟨_, hout', _⟩ | ⟨_, _, viewer', provenance', budgetTokens', degraded',
                      hviewer', haccepted', hdraft'⟩)
                    · rw [hout] at hout'
                      cases hout'
                    · obtain rfl := Except.ok.inj (hviewer.symm.trans hviewer')
                      have hcommon' := commonContents_ok.mpr ⟨_, _, _, haccepted', rfl⟩
                      rw [← Except.ok.inj (hcommon.symm.trans hcommon'), hdraft] at hdraft'
                      cases hdraft'
                  · change (draftPack renderer _ input >>= _) = _
                    rw [hdraft]
                    rfl

theorem Drafted.checked {draft : Draft} (h : Drafted renderer input draft) :
    DraftChecked renderer draft := by
  obtain ⟨_, viewer, _, _, _, hviewer, hcommon, hdraft⟩ := h
  exact draftPack_checked hcommon hviewer hdraft

theorem Drafted.unique {draft other : Draft} (h : Drafted renderer input draft)
    (hother : Drafted renderer input other) : draft = other := by
  obtain ⟨_, viewer, provenance, budgetTokens, degraded, hviewer, hcommon, hdraft⟩ := h
  obtain ⟨_, viewer', provenance', budgetTokens', degraded', hviewer', hcommon', hdraft'⟩ := hother
  obtain rfl := Except.ok.inj (hviewer.symm.trans hviewer')
  have hsame := (commonContents_ok.mpr ⟨_, _, _, hcommon, rfl⟩).symm.trans
    (commonContents_ok.mpr ⟨_, _, _, hcommon', rfl⟩)
  rw [← Except.ok.inj hsame] at hdraft'
  exact Except.ok.inj (hdraft.symm.trans hdraft')

theorem Drafted.compose {draft : Draft} (h : Drafted renderer input draft) (legacy : Bool) :
    composePackWithSelectionEstimator renderer input legacy = composeDraft renderer draft legacy := by
  rcases compose_cases renderer input with ⟨hnone, _⟩ | ⟨contents, houtside, _⟩
    | ⟨other, hother, hcompose⟩
  · exact absurd (.inr ⟨draft, h⟩) hnone
  · have hmember := h.member
    rw [houtside.outsider] at hmember
    cases hmember
  · rw [hcompose, h.unique hother]

theorem Outside.compose {contents : PackContents} (h : Outside input contents) (legacy : Bool) :
    composePackWithSelectionEstimator renderer input legacy = finalize renderer contents := by
  obtain ⟨houtsider, viewer, provenance, bucket, degraded, hviewer, hcommon, rfl⟩ := h
  have hout : (viewer.audience == .session && viewer.membership == .none) = true := by
    obtain ⟨_, rfl⟩ := assertViewer_ok hviewer
    exact houtsider
  rw [composePackWithSelectionEstimator, hviewer]
  change (commonContents viewer input >>= _) = _
  rw [commonContents_ok.mpr ⟨_, _, _, hcommon, rfl⟩]
  change (if (viewer.audience == .session && viewer.membership == .none) = true then _ else _) = _
  rw [if_pos hout]

end Admitted

end Asimposium
