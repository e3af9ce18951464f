import Mathlib
import Asimposium.Lib.Grouping
import Asimposium.Render.PackRenderable

/-!
# What a public pack does not show

A public pack is composed from the public part of its input: neither the
workshop candidates nor the reader's membership and permissions, nor the
provenance, nor an action the reader may not take reach it. What the
composer still looks at is kept apart here: it checks the permissions of
the viewer and the actions that ask for a permission, and it tells how it
excluded an action, for each of three reasons.
-/

namespace Asimposium

open Text Json ExceptRun

/-! ## Public parts -/

def isPublicAction (action : PackActionCandidate) : Bool :=
  action.method == .GET && action.publicRead && (action.requires.getD []).isEmpty

/-- A public read that asks for a permission all the same. -/
def isRestrictedRead (action : PackActionCandidate) : Bool :=
  action.method == .GET && action.publicRead && !(action.requires.getD []).isEmpty

def PackComposerInput.publicPart (input : PackComposerInput) : PackComposerInput :=
  { input with
    provenance := none
    viewer := { audience := input.viewer.audience, membership := .none, effectivePermissions := [] }
    candidates := input.candidates.filter fun candidate => candidate.scope != .workshop
    actionCandidates := input.actionCandidates.filter isPublicAction }

/-- Two public inputs with one public part, and with actions that a public
reader may not take in both or in neither. -/
structure PublicTwins (a b : PackComposerInput) : Prop where
  audience : a.viewer.audience = .public
  publicPart : a.publicPart = b.publicPart
  restricted : a.actionCandidates.any (!isPublicAction ·)
    = b.actionCandidates.any (!isPublicAction ·)

/-- The permissions of a viewer that are checked in every pack. -/
def ListedPermissions (input : PackComposerInput) : Prop :=
  ∀ t ∈ input.viewer.effectivePermissions, t ≠ [] ∧ ScalarText t

structure ActionAdmissible (action : PackActionCandidate) : Prop where
  url : action.url ≠ [] ∧ ScalarText action.url ∧ isSafeWorkerPath action.url = true
  why : action.why ≠ [] ∧ ScalarText action.why
  requires : ∀ t ∈ action.requires.getD [], t ≠ [] ∧ ScalarText t

/-- What the composer reads of the rest of a public input: whether the
permissions are listed, whether there are actions to exclude for each of
its reasons, and whether those it checks before are admissible. -/
structure SameGuards (a b : PackComposerInput) : Prop where
  permissions : ListedPermissions a ↔ ListedPermissions b
  writes : a.actionCandidates.any (isExcludedWrite .public)
    = b.actionCandidates.any (isExcludedWrite .public)
  reads : a.actionCandidates.any (isExcludedRead .public)
    = b.actionCandidates.any (isExcludedRead .public)
  restricted : a.actionCandidates.any isRestrictedRead = b.actionCandidates.any isRestrictedRead
  admissible : (∀ action ∈ a.actionCandidates, isRestrictedRead action = true →
      ActionAdmissible action)
    ↔ ∀ action ∈ b.actionCandidates, isRestrictedRead action = true → ActionAdmissible action

theorem PublicTwins.symm {a b : PackComposerInput} (h : PublicTwins a b) : PublicTwins b a where
  audience := by
    have hviewer := congrArg (·.viewer.audience) h.publicPart
    exact hviewer.symm.trans h.audience
  publicPart := h.publicPart.symm
  restricted := h.restricted.symm

theorem SameGuards.symm {a b : PackComposerInput} (h : SameGuards a b) : SameGuards b a :=
  ⟨h.permissions.symm, h.writes.symm, h.reads.symm, h.restricted.symm, h.admissible.symm⟩

section Checks

variable {sanitizer : Sanitizer} {audience : PackAudience}

theorem assertCandidate_index {seen : List Text} {index : Nat} (index' : Nat)
    {candidate : PackCandidate} {validated : ValidatedCandidate}
    (h : assertCandidate sanitizer seen index candidate = .ok validated) :
    ∃ validated', assertCandidate sanitizer seen index' candidate = .ok validated' := by
  have hrequires : ∀ (value : Option (List Text)) (field field' : Text) (result : List Text),
      assertOptionalPermissionList value field = .ok result →
        assertOptionalPermissionList value field' = .ok result := by
    intro value field field' result hresult
    cases value with
    | none => exact hresult
    | some value => exact assertPermissionList_ok.mpr (assertPermissionList_ok.mp hresult)
  simp only [assertCandidate, assertIdentity, assertEnvelope, assertBody, bind_ok (α := Text),
    bind_ok (α := Option ComposedSection), bind_ok (α := Int), bind_ok (α := List Text),
    bind_unit_ok, assertThat_ok, assertScalarText_ok, assertCandidateBody_ok,
    assertTokenEstimate_ok, assertStablePrefix_ok] at h ⊢
  obtain ⟨hidentity, henvelope, hbody, composed, hcomposed, hnotice, tokens, htokens, stable,
    hstable, requires, hresult, _⟩ := h
  exact ⟨_, hidentity, henvelope, hbody, composed, hcomposed, hnotice, tokens, htokens, stable,
    hstable, requires, hrequires _ _ _ _ hresult, rfl⟩

theorem assertCandidatesFrom_filter {seen : List Text} (index index' : Nat)
    (candidates : List PackCandidate) :
    (∃ validated, assertCandidatesFrom sanitizer audience seen index candidates = .ok validated)
      ↔ ∃ validated, assertCandidatesFrom sanitizer audience seen index'
        (candidates.filter fun candidate => !isPassedOver audience candidate) = .ok validated := by
  induction candidates generalizing seen index index' with
  | nil => exact iff_of_true ⟨_, rfl⟩ ⟨_, rfl⟩
  | cons candidate rest ih =>
      rw [assertCandidatesFrom]
      split
      · rename_i hpassed
        rw [List.filter_cons_of_neg (by rw [hpassed]; exact Bool.false_ne_true)]
        exact ih _ _
      · rename_i hkept
        rw [List.filter_cons_of_pos (by simpa using hkept), assertCandidatesFrom, if_neg hkept]
        simp only [bind_ok]
        constructor
        · rintro ⟨_, first, hfirst, others, hothers, _⟩
          obtain ⟨first', hfirst'⟩ := assertCandidate_index index' hfirst
          obtain ⟨others', hothers'⟩ := (ih _ (index' + 1)).mp ⟨others, hothers⟩
          exact ⟨_, first', hfirst', others', hothers', rfl⟩
        · rintro ⟨_, first, hfirst, others, hothers, _⟩
          obtain ⟨first', hfirst'⟩ := assertCandidate_index index hfirst
          obtain ⟨others', hothers'⟩ := (ih (index + 1) _).mpr ⟨others, hothers⟩
          exact ⟨_, first', hfirst', others', hothers', rfl⟩

theorem assertAction_admissible {index : Nat} {action : PackActionCandidate} :
    (∃ validated, assertAction index action = .ok validated) ↔ ActionAdmissible action := by
  have hrequires : ∀ field result, assertOptionalPermissionList action.requires field = .ok result
      ↔ (∀ t ∈ action.requires.getD [], t ≠ [] ∧ ScalarText t)
        ∧ result = sortedSet (action.requires.getD []) := by
    intro field result
    cases action.requires with
    | none =>
        exact ⟨assertOptionalPermissionList_ok, fun h => by rw [h.2]; rfl⟩
    | some value => exact assertPermissionList_ok
  simp only [assertAction, bind_ok (α := Text), bind_ok (α := List Text), bind_unit_ok,
    assertThat_ok, assertScalarText_ok, hrequires]
  constructor
  · rintro ⟨_, url, ⟨hurl, hurlScalar, rfl⟩, hsafe, why, ⟨hwhy, hwhyScalar, rfl⟩, _, ⟨hlist, _⟩, _⟩
    exact ⟨⟨hurl, hurlScalar, hsafe⟩, ⟨hwhy, hwhyScalar⟩, hlist⟩
  · rintro ⟨⟨hurl, hurlScalar, hsafe⟩, ⟨hwhy, hwhyScalar⟩, hlist⟩
    exact ⟨_, _, ⟨hurl, hurlScalar, rfl⟩, hsafe, _, ⟨hwhy, hwhyScalar, rfl⟩, _, ⟨hlist, rfl⟩, rfl⟩

end Checks

section Actions

variable {audience : PackAudience}

theorem assertActionsFrom_admissible (index : Nat) (actions : List PackActionCandidate) :
    (∃ validated, assertActionsFrom audience index actions = .ok validated)
      ↔ ∀ action ∈ actions, isInspected audience action = true → ActionAdmissible action := by
  have hwrite : ∀ action : PackActionCandidate, (audience == .public && action.method == .POST)
      = isExcludedWrite audience action := fun _ => rfl
  have hread : ∀ action : PackActionCandidate, isExcludedWrite audience action = false →
      (audience == .public && !action.publicRead) = isExcludedRead audience action := by
    intro action hnot
    simp only [isExcludedWrite, isExcludedRead] at hnot ⊢
    cases haudience : audience == .public with
    | false => rfl
    | true =>
        rw [haudience, Bool.true_and] at hnot
        simp [bne, hnot]
  induction actions generalizing index with
  | nil => exact iff_of_true ⟨_, rfl⟩ fun _ h => absurd h List.not_mem_nil
  | cons action rest ih =>
      rw [assertActionsFrom, hwrite, List.forall_mem_cons]
      refine Iff.trans ?_ (and_congr Iff.rfl (ih (index + 1)))
      cases hcase : isExcludedWrite audience action with
      | true =>
          have hnot : isInspected audience action = false := by simp [isInspected, hcase]
          rw [if_pos rfl, hnot]
          simp [bind_ok]
      | false =>
          rw [if_neg Bool.false_ne_true, hread action hcase]
          cases hexcluded : isExcludedRead audience action with
          | true =>
              have hnot : isInspected audience action = false := by
                simp [isInspected, hexcluded]
              rw [if_pos rfl, hnot]
              simp [bind_ok]
          | false =>
              have hinspected : isInspected audience action = true := by
                simp [isInspected, hcase, hexcluded]
              rw [if_neg Bool.false_ne_true, hinspected, ← @assertAction_admissible index action]
              simp only [bind_ok]
              constructor
              · rintro ⟨_, first, hfirst, others, hothers, _⟩
                exact ⟨fun _ => ⟨first, hfirst⟩, others, hothers⟩
              · rintro ⟨hfirst, others, hothers⟩
                obtain ⟨first, hfirst⟩ := hfirst trivial
                exact ⟨_, first, hfirst, others, hothers, rfl⟩

theorem isInspected_public (action : PackActionCandidate) :
    isInspected .public action = (isPublicAction action || isRestrictedRead action) := by
  simp only [isInspected, isExcludedWrite, isExcludedRead, isPublicAction, isRestrictedRead]
  cases action.method <;> cases action.publicRead <;>
    cases (action.requires.getD []).isEmpty <;> rfl

theorem sortedSet_isEmpty (texts : List Text) : (sortedSet texts).isEmpty = texts.isEmpty := by
  rw [Bool.eq_iff_iff, List.isEmpty_iff, List.isEmpty_iff, List.eq_nil_iff_forall_not_mem,
    List.eq_nil_iff_forall_not_mem]
  simp only [mem_sortedSet]

end Actions

/-! ## The order of the actions -/

/-- The key of an action: its method, its URL and its reason. -/
def actionKey (action : ValidatedAction) : List Nat ×ₗ (List Nat ×ₗ List Nat) :=
  toLex (textKey action.value.method.spelling,
    toLex (textKey action.value.url, textKey action.value.why))

theorem thenLe_iff {left right : Text} {next : Bool} : thenLe left right next = true
    ↔ textKey left < textKey right ∨ textKey left = textKey right ∧ next = true := by
  unfold thenLe
  split
  · rename_i heq
    rw [heq]
    simp
  · rename_i hne
    have hkey : textKey left ≠ textKey right := fun h => hne (textKey_injective h)
    rw [le_iff_textKey, le_iff_lt_or_eq]
    simp [hkey]

theorem actionLe_compares : KeyedSort.Compares actionLe actionKey := by
  intro left right
  rw [actionLe, thenLe_iff, thenLe_iff, le_iff_textKey, actionKey, actionKey,
    Prod.Lex.toLex_le_toLex, Prod.Lex.toLex_le_toLex]

theorem actionKey_injective {left right : ValidatedAction} (hleft : left.requires.isEmpty = true)
    (hright : right.requires.isEmpty = true) (h : actionKey left = actionKey right) :
    left = right := by
  obtain ⟨hmethod, hrest⟩ := Prod.mk.inj (toLex.injective h)
  obtain ⟨hurl, hwhy⟩ := Prod.mk.inj (toLex.injective hrest)
  obtain ⟨⟨method, url, why⟩, requires⟩ := left
  obtain ⟨⟨method', url', why'⟩, requires'⟩ := right
  obtain rfl : requires = [] := List.isEmpty_iff.mp hleft
  obtain rfl : requires' = [] := List.isEmpty_iff.mp hright
  obtain rfl := textKey_injective hurl
  obtain rfl := textKey_injective hwhy
  have hspelling := textKey_injective hmethod
  cases method <;> cases method' <;> first | rfl | cases hspelling

section Twins

variable {renderer : Renderer} {a b : PackComposerInput}

theorem omissionOf_congr {m n : Nat} (reason : String) (h : 0 < m ↔ 0 < n) :
    omissionOf m reason = omissionOf n reason := by
  unfold omissionOf
  by_cases hpos : 0 < m
  · rw [if_pos hpos, if_pos (h.mp hpos)]
  · rw [if_neg hpos, if_neg fun hn => hpos (h.mpr hn)]

theorem countP_pos {l : List PackActionCandidate} {p : PackActionCandidate → Bool} :
    0 < l.countP p ↔ l.any p = true := by
  rw [List.countP_pos_iff, List.any_eq_true]

theorem PublicTwins.actions (h : PublicTwins a b) :
    a.actionCandidates.filter isPublicAction = b.actionCandidates.filter isPublicAction :=
  congrArg (·.actionCandidates) h.publicPart

theorem PublicTwins.candidates (h : PublicTwins a b) :
    (a.candidates.filter fun candidate => !isPassedOver .public candidate)
      = b.candidates.filter fun candidate => !isPassedOver .public candidate :=
  congrArg (·.candidates) h.publicPart

def publicActions (actions : List PackActionCandidate) : List ValidatedAction :=
  (listedActions .public actions).values.filter (·.requires.isEmpty)

theorem validatedAction_isEmpty (action : PackActionCandidate) :
    (validatedAction action).requires.isEmpty = (action.requires.getD []).isEmpty :=
  sortedSet_isEmpty _

theorem PublicTwins.publicActions (h : PublicTwins a b) :
    publicActions a.actionCandidates = publicActions b.actionCandidates := by
  have hlisted : ∀ actions : List PackActionCandidate,
      ((actions.filter (isInspected .public)).map validatedAction).filter (·.requires.isEmpty)
        = (actions.filter isPublicAction).map validatedAction := by
    intro actions
    rw [List.filter_map, List.filter_filter]
    congr 2
    funext action
    simp only [Function.comp_apply, validatedAction_isEmpty, isInspected_public, isPublicAction,
      isRestrictedRead]
    cases action.method <;> cases action.publicRead <;>
      cases (action.requires.getD []).isEmpty <;> rfl
  refine KeyedSort.filter_insertionSort actionLe_compares
    (fun _ _ hleft hright hkey => actionKey_injective hleft hright hkey) ?_
  exact (hlisted _).trans ((congrArg _ h.actions).trans (hlisted _).symm)

theorem publicActions_length (actions : List PackActionCandidate) :
    (publicActions actions).length = actions.countP isPublicAction := by
  rw [Asimposium.publicActions, ← List.countP_eq_length_filter]
  change List.countP _ (List.insertionSort _ _) = _
  rw [(List.perm_insertionSort _ _).countP_eq]
  change List.countP _ ((actions.filter (isInspected .public)).map validatedAction) = _
  rw [List.countP_map, List.countP_filter]
  congr 1
  funext action
  simp only [Function.comp_apply, validatedAction_isEmpty, isInspected_public, isPublicAction,
    isRestrictedRead]
  cases action.method <;> cases action.publicRead <;>
    cases (action.requires.getD []).isEmpty <;> rfl

theorem listedActions_length (actions : List PackActionCandidate) :
    (listedActions .public actions).values.length
      = actions.countP isPublicAction + actions.countP isRestrictedRead := by
  change (List.insertionSort _ ((actions.filter (isInspected .public)).map validatedAction)).length
    = _
  rw [List.length_insertionSort, List.length_map, ← List.countP_eq_length_filter]
  induction actions with
  | nil => rfl
  | cons action rest ih =>
      have hdisjoint : isPublicAction action = true → isRestrictedRead action = false := by
        simp only [isPublicAction, isRestrictedRead]
        cases (action.requires.getD []).isEmpty <;> simp
      rw [List.countP_cons, List.countP_cons, List.countP_cons, ih, isInspected_public]
      cases hpublic : isPublicAction action with
      | true =>
          rw [hdisjoint hpublic]
          simp
          omega
      | false =>
          rw [Bool.false_or]
          simp
          omega

theorem restricted_pos (actions : List PackActionCandidate) :
    0 < (listedActions .public actions).values.length - (publicActions actions).length
      ↔ actions.any isRestrictedRead = true := by
  rw [listedActions_length, publicActions_length, ← countP_pos]
  omega

theorem draftOf_twins (h : PublicTwins a b) (hguards : SameGuards a b) {common : PackContents}
    (haudience : common.viewer.audience = .public) : draftOf common a = draftOf common b := by
  have hinputs : a.omitted = b.omitted := congrArg (·.omitted) h.publicPart
  have hcandidates : sortedCandidates .public a.candidates
      = sortedCandidates .public b.candidates := by
    rw [sortedCandidates, sortedCandidates, h.candidates]
  have hactions : publicActions a.actionCandidates = publicActions b.actionCandidates :=
    h.publicActions
  have hadvertised : ∀ actions, (listedActions .public actions).values.filter
      (isAdvertised .public common.viewer.effectivePermissions) = publicActions actions :=
    fun _ => rfl
  have hwrites : omissionOf (listedActions .public a.actionCandidates).publicWriteActionsExcluded
        "public_write_actions_excluded"
      = omissionOf (listedActions .public b.actionCandidates).publicWriteActionsExcluded
        "public_write_actions_excluded" :=
    omissionOf_congr _ (countP_pos.trans (hguards.writes ▸ countP_pos.symm))
  have hreads : omissionOf (listedActions .public a.actionCandidates).publicNonreadActionsExcluded
        "public_nonread_actions_excluded"
      = omissionOf (listedActions .public b.actionCandidates).publicNonreadActionsExcluded
        "public_nonread_actions_excluded" :=
    omissionOf_congr _ (countP_pos.trans (hguards.reads ▸ countP_pos.symm))
  have hrestricted := omissionOf_congr "actions_permission_filtered"
    ((restricted_pos a.actionCandidates).trans
      (hguards.restricted ▸ (restricted_pos b.actionCandidates).symm))
  unfold draftOf
  dsimp only
  rw [haudience, hinputs, hcandidates, hwrites, hreads, hadvertised, hadvertised, hrestricted,
    hactions]

theorem assertViewer_iff {given : PackViewer} : (∃ viewer, assertViewer given = .ok viewer)
    ↔ ∀ t ∈ given.effectivePermissions, t ≠ [] ∧ ScalarText t := by
  constructor
  · rintro ⟨viewer, hviewer⟩
    exact (assertViewer_ok hviewer).1
  · intro hall
    exact ⟨_, bind_ok.mpr ⟨_, assertPermissionList_ok.mpr ⟨hall, rfl⟩, rfl⟩⟩

theorem draftPack_twins (h : PublicTwins a b) (hguards : SameGuards a b) {common : PackContents}
    (haudience : common.viewer.audience = .public) {draft : Draft}
    (hdraft : draftPack renderer common a = .ok draft) :
    draftPack renderer common b = .ok draft := by
  obtain ⟨hcandidates, ⟨actions, hactions⟩, hdeclared, rfl⟩ := draftPack_ok.mp hdraft
  have homitted : a.omitted = b.omitted := congrArg (·.omitted) h.publicPart
  refine draftPack_ok.mpr ⟨?_, ?_, homitted ▸ hdeclared, draftOf_twins h hguards haudience⟩
  · have hfrom : ∀ candidates, (∃ validated, assertCandidates renderer.toSanitizer .public
        candidates = .ok validated)
          ↔ ∃ validated, assertCandidatesFrom renderer.toSanitizer .public [] 0 candidates
            = .ok validated := by
      intro candidates
      simp only [assertCandidates, bind_ok]
      constructor
      · rintro ⟨_, validated, hvalidated, _⟩
        exact ⟨validated, hvalidated⟩
      · rintro ⟨validated, hvalidated⟩
        exact ⟨_, validated, hvalidated, rfl⟩
    rw [haudience, hfrom, assertCandidatesFrom_filter 0 0] at hcandidates ⊢
    rwa [← h.candidates]
  · rw [haudience] at hactions ⊢
    have hfrom : ∀ actions, (∃ validated, assertActions .public actions = .ok validated)
        ↔ ∀ action ∈ actions, isInspected .public action = true → ActionAdmissible action := by
      intro actions
      rw [← assertActionsFrom_admissible 0]
      simp only [assertActions, bind_ok]
      constructor
      · rintro ⟨_, validated, hvalidated, _⟩
        exact ⟨validated, hvalidated⟩
      · rintro ⟨validated, hvalidated⟩
        exact ⟨_, validated, hvalidated, rfl⟩
    have hall := (hfrom _).mp ⟨actions, hactions⟩
    refine (hfrom _).mpr fun action haction hinspected => ?_
    rw [isInspected_public, Bool.or_eq_true] at hinspected
    rcases hinspected with hpublic | hrestricted
    · have hmem : action ∈ a.actionCandidates.filter isPublicAction := by
        rw [h.actions]
        exact List.mem_filter.mpr ⟨haction, hpublic⟩
      refine hall action (List.mem_of_mem_filter hmem) ?_
      rw [isInspected_public, hpublic, Bool.true_or]
    · refine hguards.admissible.mp (fun other hother hrestricted => hall other hother ?_) action
        haction hrestricted
      rw [isInspected_public, hrestricted, Bool.or_true]

theorem Drafted.twins (h : PublicTwins a b) (hguards : SameGuards a b) {draft : Draft}
    (hdrafted : Drafted renderer a draft) : Drafted renderer b draft := by
  obtain ⟨_, viewer, provenance, budgetTokens, degraded, hviewer, hcommon, hdraft⟩ := hdrafted
  obtain ⟨hlisted, rfl⟩ := assertViewer_ok hviewer
  obtain ⟨viewer', hviewer'⟩ := assertViewer_iff.mpr (hguards.permissions.mp hlisted)
  obtain ⟨_, rfl⟩ := assertViewer_ok hviewer'
  have haudience := h.audience
  have haudience' := h.symm.audience
  have hpart := h.publicPart
  have hnone : provenance = none := by
    have hgiven := hcommon.provenance
    dsimp only at hgiven
    rw [haudience] at hgiven
    cases hgiven
    rfl
  have hcommon' : CommonAccepted { b.viewer with
      effectivePermissions := sortedSet b.viewer.effectivePermissions } b provenance budgetTokens
        degraded := by
    have hschema : a.schema = b.schema := congrArg (·.schema) hpart
    have hsession : a.session = b.session := congrArg (·.session) hpart
    have hproblem : a.problem = b.problem := congrArg (·.problem) hpart
    have hprofile : a.profile = b.profile := congrArg (·.profile) hpart
    have hbudget : a.requestedMaxTokens = b.requestedMaxTokens :=
      congrArg (·.requestedMaxTokens) hpart
    have hdegraded : a.degraded = b.degraded := congrArg (·.degraded) hpart
    have hcursor : a.cursor = b.cursor := congrArg (·.cursor) hpart
    refine ⟨?_, hbudget ▸ hcommon.budget, ?_, hdegraded ▸ hcommon.degraded, hcursor ▸ hcommon.cursor⟩
    · dsimp only
      rw [haudience', hnone]
      rfl
    · rw [← hschema, ← hsession, ← hproblem, ← hprofile]
      exact hcommon.header
  have hcontents : contentsOf { a.viewer with
        effectivePermissions := sortedSet a.viewer.effectivePermissions } a provenance budgetTokens
          degraded
      = contentsOf { b.viewer with
        effectivePermissions := sortedSet b.viewer.effectivePermissions } b provenance budgetTokens
          degraded := by
    have hschema : a.schema = b.schema := congrArg (·.schema) hpart
    have hsession : a.session = b.session := congrArg (·.session) hpart
    have hproblem : a.problem = b.problem := congrArg (·.problem) hpart
    have hprofile : a.profile = b.profile := congrArg (·.profile) hpart
    have hcursor : a.cursor = b.cursor := congrArg (·.cursor) hpart
    have hpromotion : a.promotionBudget = b.promotionBudget := congrArg (·.promotionBudget) hpart
    simp only [contentsOf, haudience, haudience', hschema, hsession, hproblem, hprofile, hcursor,
      hpromotion]
    rfl
  refine ⟨?_, _, provenance, budgetTokens, degraded, hviewer', hcommon', ?_⟩
  · rw [PackComposerInput.isOutsider, haudience']
    rfl
  · rw [← hcontents]
    exact draftPack_twins h hguards haudience hdraft

theorem composePack_twins (h : PublicTwins a b) (hguards : SameGuards a b) {pack : ComposedPack}
    (hpack : composePack renderer a = .ok pack) : composePack renderer b = .ok pack := by
  rcases compose_cases renderer a with ⟨_, error, hrefused⟩ | ⟨contents, houtside, _⟩
    | ⟨draft, hdrafted, hcompose⟩
  · rw [composePack, hrefused] at hpack
    cases hpack
  · have houtsider := houtside.outsider
    rw [PackComposerInput.isOutsider, h.audience] at houtsider
    cases houtsider
  · rw [composePack, (hdrafted.twins h hguards).compose, ← hcompose]
    exact hpack

/-- Public packs do not depend on what a public reader may not see, as far
as the composer's guards agree. -/
theorem composePack_noninterference (h : PublicTwins a b) (hguards : SameGuards a b) :
    (composePack renderer a).toOption = (composePack renderer b).toOption := by
  refine Option.ext fun pack => ?_
  have hsome : ∀ input, (composePack renderer input).toOption = some pack
      ↔ composePack renderer input = .ok pack := by
    intro input
    cases composePack renderer input <;> simp [Except.toOption]
  rw [hsome, hsome]
  exact ⟨composePack_twins h hguards, composePack_twins h.symm hguards.symm⟩

end Twins

def actionInput (actions : List PackActionCandidate) : PackComposerInput :=
  { sampleInput 800 [] with actionCandidates := actions }

def sampleAction (method : ActionMethod) : PackActionCandidate where
  method := method
  url := text "/v1"
  why := text "w"
  publicRead := false
  requires := none

/-- A reader with a permission, a workshop candidate and a private
action. -/
def privateInput : PackComposerInput :=
  { sampleInput 800 [{ sampleCandidate "W-1" 5 with scope := .workshop }] with
    viewer := { audience := .public, membership := .steward, effectivePermissions := [text "x"] }
    actionCandidates := [{ sampleAction .POST with url := text "/v2" }, sampleAction .POST] }

theorem restricted_admissible {input : PackComposerInput}
    (h : input.actionCandidates.any isRestrictedRead = false) :
    ∀ action ∈ input.actionCandidates, isRestrictedRead action = true →
      ActionAdmissible action := by
  intro action haction hrestricted
  rw [List.any_eq_true.mpr ⟨action, haction, hrestricted⟩] at h
  cases h

theorem composePack_noninterference_sample :
    (composePack asciiRenderer (actionInput [sampleAction .POST])).toOption
      = (composePack asciiRenderer privateInput).toOption :=
  composePack_noninterference ⟨rfl, by decide +kernel, by decide⟩
    ⟨iff_of_true (fun _ h => (nomatch h)) (fun t ht => by
        obtain rfl := List.mem_singleton.mp ht
        exact ⟨by decide, by decide, by decide⟩), by decide, by decide, by decide,
      iff_of_true (restricted_admissible (by decide)) (restricted_admissible (by decide))⟩

/-! ## What the guards are for -/

/-- A public read that asks for a permission and has no URL. -/
def restrictedAction : PackActionCandidate :=
  { sampleAction .GET with url := [], publicRead := true, requires := some [text "x"] }

def unlistedInput : PackComposerInput :=
  { actionInput [sampleAction .POST] with
    viewer := { audience := .public, membership := .none, effectivePermissions := [[]] } }

/-- Twins whose packs differ: by a permission that is refused, by the
reason an action is excluded for, and by a restricted read that is
refused. -/
theorem composePack_interferes :
    (PublicTwins (actionInput [sampleAction .POST]) unlistedInput
        ∧ (composePack asciiRenderer (actionInput [sampleAction .POST])).toOption
          ≠ (composePack asciiRenderer unlistedInput).toOption)
      ∧ (PublicTwins (actionInput [sampleAction .POST]) (actionInput [sampleAction .GET])
        ∧ (composePack asciiRenderer (actionInput [sampleAction .POST])).toOption
          ≠ (composePack asciiRenderer (actionInput [sampleAction .GET])).toOption)
      ∧ PublicTwins (actionInput [sampleAction .POST])
          (actionInput [sampleAction .POST, restrictedAction])
        ∧ (composePack asciiRenderer (actionInput [sampleAction .POST])).toOption
          ≠ (composePack asciiRenderer
            (actionInput [sampleAction .POST, restrictedAction])).toOption := by
  have hwrite : (composePack asciiRenderer (actionInput [sampleAction .POST])).toOption.map
      (·.omitted.map (·.reason)) = some [text "public_write_actions_excluded"] := by
    decide +kernel
  have hread : (composePack asciiRenderer (actionInput [sampleAction .GET])).toOption.map
      (·.omitted.map (·.reason)) = some [text "public_nonread_actions_excluded"] := by
    decide +kernel
  have hreasons : text "public_write_actions_excluded" ≠ text "public_nonread_actions_excluded" := by
    decide
  have hunlisted : (composePack asciiRenderer unlistedInput).toOption.isNone = true := by
    decide +kernel
  have hrestricted : (composePack asciiRenderer
      (actionInput [sampleAction .POST, restrictedAction])).toOption.isNone = true := by
    decide +kernel
  refine ⟨⟨⟨rfl, by decide +kernel, by decide⟩, fun h => ?_⟩,
    ⟨⟨rfl, by decide +kernel, by decide⟩, fun h => ?_⟩,
    ⟨rfl, by decide +kernel, by decide⟩, fun h => ?_⟩
  · rw [h, Option.isNone_iff_eq_none.mp hunlisted] at hwrite
    cases hwrite
  · rw [h, hread] at hwrite
    exact hreasons (List.cons.inj (Option.some.inj hwrite)).1.symm
  · rw [h, Option.isNone_iff_eq_none.mp hrestricted] at hwrite
    cases hwrite

end Asimposium
