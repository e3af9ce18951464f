import Asimposium.Enrollment.Authorization

/-!
# What a reduced grant authorises

A grant within a request refuses whatever the request refuses, check by check,
as long as the problem binding is the requested one. Where the binding was let
go, opening a session on another problem is refused to the request and allowed
to the grant.
-/

namespace Asimposium.Enrollment

open ExceptRun

/-! ## No wider -/

def FellowCredentialBinding.carrying (credential : FellowCredentialBinding)
    (scopes : List RequestedScope) (resources : EnrollmentResourceGrants) :
    FellowCredentialBinding :=
  { credential with grantedScopes := scopes, grantedResources := resources }

/-- Every write that is not refused to the grant is not refused to the
request. -/
def NoWider (requestedScopes : List RequestedScope) (requestedResources : EnrollmentResourceGrants)
    (grantedScopes : List RequestedScope) (grantedResources : EnrollmentResourceGrants) : Prop :=
  ∀ input : FellowWriteAuthorizationInput,
    (authorizeFellowWrite { input with
      credential := input.credential.carrying grantedScopes grantedResources }).isRefusal = false →
    (authorizeFellowWrite { input with
      credential := input.credential.carrying requestedScopes requestedResources }).isRefusal
        = false

structure Within (requestedScopes : List RequestedScope)
    (requestedResources : EnrollmentResourceGrants) (grantedScopes : List RequestedScope)
    (grantedResources : EnrollmentResourceGrants) : Prop where
  scopes : ∀ scope ∈ grantedScopes, scope ∈ requestedScopes
  binding : grantedResources.problemBinding = none
    ∨ grantedResources.problemBinding = requestedResources.problemBinding
  eventBudget : capWithin requestedResources.eventBudget grantedResources.eventBudget = true
  artifactBudgetBytes :
    capWithin requestedResources.artifactBudgetBytes grantedResources.artifactBudgetBytes = true
  fellowGrantExpiresAt :
    capWithin requestedResources.fellowGrantExpiresAt grantedResources.fellowGrantExpiresAt = true

/-! ## The checks -/

theorem refuseIf_ok {refused : Bool} {reason : FellowAuthorizationRefusalReason} :
    refuseIf refused reason = .ok () ↔ refused = false := by
  cases refused with
  | true => exact iff_of_false (fun h => by cases h) Bool.noConfusion
  | false => exact iff_of_true rfl rfl

theorem checkScopes_mono {effect : FellowWriteEffect} {requested granted : List RequestedScope}
    (hscopes : ∀ scope ∈ granted, scope ∈ requested) (h : checkScopes effect granted = .ok ()) :
    checkScopes effect requested = .ok () := by
  have hmono (scope : RequestedScope) (h : (!granted.contains scope) = false) :
      (!requested.contains scope) = false := by
    rw [Bool.not_eq_false', List.contains_iff_mem] at h ⊢
    exact hscopes scope h
  cases effect with
  | scopeEffect scope => exact refuseIf_ok.mpr (hmono scope (refuseIf_ok.mp h))
  | artifactPublicationRetry =>
      have h := refuseIf_ok.mp h
      rw [Bool.or_eq_false_iff] at h
      refine refuseIf_ok.mpr ?_
      rw [hmono _ h.1, hmono _ h.2]
      rfl
  | workshopPush | sessionOpen | sessionClose => rfl

theorem any_cap_mono {α : Type} [LE α] [DecidableLE α] {requested granted : Option α}
    {exhausted : α → Bool} (hcap : capWithin requested granted = true)
    (hmono : ∀ cap lower, lower ≤ cap → exhausted lower = false → exhausted cap = false)
    (h : granted.any exhausted = false) : requested.any exhausted = false := by
  cases requested with
  | none => rfl
  | some cap =>
      cases granted with
      | none => cases hcap
      | some lower => exact hmono cap lower (of_decide_eq_true hcap) h

theorem checkExpiry_mono {requested granted : Option Int} {now : Int}
    (hcap : capWithin requested granted = true) (h : checkExpiry granted now = .ok ()) :
    checkExpiry requested now = .ok () := by
  have hgranted : granted.any (fun expiresAt => decide (expiresAt ≤ now)) = false :=
    refuseIf_ok.mp h
  refine refuseIf_ok.mpr (any_cap_mono hcap ?_ hgranted)
  intro cap lower hle hnot
  rw [decide_eq_false_iff_not] at hnot ⊢
  omega

theorem checkEvents_mono {effect : FellowWriteEffect} {requested granted : Option ℕ+}
    {eventsRecorded : Int} (hcap : capWithin requested granted = true)
    (h : checkEvents effect granted eventsRecorded = .ok ()) :
    checkEvents effect requested eventsRecorded = .ok () := by
  refine refuseIf_ok.mpr (any_cap_mono hcap ?_ (refuseIf_ok.mp h))
  intro cap lower hle hnot
  have hle : ((lower : Nat) : Int) ≤ ((cap : Nat) : Int) := Int.ofNat_le.mpr hle
  by_cases heffect : effect = .artifactPublicationRetry
  · rw [if_pos heffect, decide_eq_false_iff_not] at hnot ⊢
    omega
  · rw [if_neg heffect, decide_eq_false_iff_not] at hnot ⊢
    omega

theorem checkArtifacts_mono {effect : FellowWriteEffect} {requested granted : Option Nat}
    {artifactBytesRecorded : Int} {artifactBytesRequested : Option Int}
    (hcap : capWithin requested granted = true)
    (h : checkArtifacts effect granted artifactBytesRecorded artifactBytesRequested = .ok ()) :
    checkArtifacts effect requested artifactBytesRecorded artifactBytesRequested = .ok () := by
  unfold checkArtifacts at h ⊢
  split at h
  · rename_i heffect
    rw [if_pos heffect]
    cases hbytes : bytesRequested effect artifactBytesRequested with
    | none =>
        rw [hbytes] at h
        cases h
    | some bytes =>
        rw [hbytes] at h
        obtain ⟨hsafe, hbudget⟩ := bind_unit_ok.mp h
        refine bind_unit_ok.mpr ⟨hsafe, refuseIf_ok.mpr ?_⟩
        refine any_cap_mono hcap ?_ (refuseIf_ok.mp hbudget)
        intro cap lower hle hnot
        rw [Bool.or_eq_false_iff, decide_eq_false_iff_not, decide_eq_false_iff_not] at hnot ⊢
        omega
  · rename_i heffect
    rw [if_neg heffect]

/-! ## Kept bindings -/

theorem isRefusal_eq_false {input : FellowWriteAuthorizationInput} :
    (authorizeFellowWrite input).isRefusal = false
      ↔ ∃ decision, evaluateFellowWriteAuthorization input = .ok decision := by
  unfold authorizeFellowWrite
  constructor
  · intro h
    split at h
    · rename_i decision heq
      exact ⟨decision, heq⟩
    · cases h
  · rintro ⟨decision, heq⟩
    rw [heq]
    have hsettled : ∃ effect status, settle effect status = .ok decision := by
      obtain ⟨-, heq⟩ := bind_unit_ok.mp heq
      obtain ⟨-, heq⟩ := bind_unit_ok.mp heq
      obtain ⟨-, heq⟩ := bind_unit_ok.mp heq
      obtain ⟨-, heq⟩ := bind_unit_ok.mp heq
      obtain ⟨-, heq⟩ := bind_unit_ok.mp heq
      obtain ⟨-, heq⟩ := bind_unit_ok.mp heq
      exact ⟨_, _, heq⟩
    obtain ⟨effect, status, hsettle⟩ := hsettled
    unfold settle at hsettle
    repeat' split at hsettle
    all_goals cases hsettle
    all_goals rfl

variable {requestedScopes grantedScopes : List RequestedScope}
  {requestedResources : EnrollmentResourceGrants}

theorem noWider_of_kept {grantedResources : EnrollmentResourceGrants}
    (h : Within requestedScopes requestedResources grantedScopes grantedResources)
    (hbinding : grantedResources.problemBinding = requestedResources.problemBinding) :
    NoWider requestedScopes requestedResources grantedScopes grantedResources := by
  intro input hgranted
  obtain ⟨decision, heval⟩ := isRefusal_eq_false.mp hgranted
  obtain ⟨hcredential, heval⟩ := bind_unit_ok.mp heval
  obtain ⟨hscopes, heval⟩ := bind_unit_ok.mp heval
  obtain ⟨hexpiry, heval⟩ := bind_unit_ok.mp heval
  obtain ⟨htarget, heval⟩ := bind_unit_ok.mp heval
  obtain ⟨hevents, heval⟩ := bind_unit_ok.mp heval
  obtain ⟨hartifacts, heval⟩ := bind_unit_ok.mp heval
  have htarget : checkTarget input.effect input.target grantedResources.problemBinding = .ok () :=
    htarget
  rw [hbinding] at htarget
  refine isRefusal_eq_false.mpr ⟨decision, bind_unit_ok.mpr ⟨hcredential, bind_unit_ok.mpr
    ⟨checkScopes_mono h.scopes hscopes, bind_unit_ok.mpr
      ⟨checkExpiry_mono h.fellowGrantExpiresAt hexpiry, bind_unit_ok.mpr
        ⟨htarget, bind_unit_ok.mpr
          ⟨checkEvents_mono h.eventBudget hevents, bind_unit_ok.mpr
            ⟨checkArtifacts_mono h.artifactBudgetBytes hartifacts, heval⟩⟩⟩⟩⟩⟩⟩

/-! ## Bindings let go -/

/-- An active credential at an instant before the grant ends. -/
def openerCredential (now : Int) : FellowCredentialBinding where
  grantedScopes := []
  grantedResources := ⟨none, none, none, none, none⟩
  issuedAt := now
  expiresAt := now + 1
  revokedAt := none
  fellowStatus := .active

/-- A session on a problem of this name, with nothing spent yet. -/
def opening (problemId : String) (now : Int) : FellowWriteAuthorizationInput where
  effect := .sessionOpen
  credential := openerCredential now
  target := .sessionAdmission problemId
  usage := ⟨0, 0⟩
  artifactBytesRequested := none
  now := now

theorem checkCredential_opener (scopes : List RequestedScope)
    (resources : EnrollmentResourceGrants) (now : Int) :
    checkCredential ((openerCredential now).carrying scopes resources) now = .ok () := by
  have hissued : decide (now < now) = false := decide_eq_false (lt_irrefl now)
  have hexpires : decide (now + 1 ≤ now) = false := decide_eq_false (by omega)
  refine bind_unit_ok.mpr ⟨rfl, bind_unit_ok.mpr ⟨refuseIf_ok.mpr hissued,
    bind_unit_ok.mpr ⟨refuseIf_ok.mpr hexpires, rfl⟩⟩⟩

theorem opening_allowed (scopes : List RequestedScope) (resources : EnrollmentResourceGrants)
    (problemId : String) (hbinding : resources.problemBinding = none) :
    (authorizeFellowWrite { opening problemId (resources.fellowGrantExpiresAt.getD 0 - 1) with
      credential := (openerCredential (resources.fellowGrantExpiresAt.getD 0 - 1)).carrying scopes
        resources }).isRefusal = false := by
  refine isRefusal_eq_false.mpr ⟨.allow .sessionOpen, bind_unit_ok.mpr
    ⟨checkCredential_opener scopes resources _, bind_unit_ok.mpr ⟨rfl, bind_unit_ok.mpr
      ⟨refuseIf_ok.mpr ?_, bind_unit_ok.mpr ⟨refuseIf_ok.mpr ?_, bind_unit_ok.mpr
        ⟨refuseIf_ok.mpr ?_, bind_unit_ok.mpr ⟨rfl, rfl⟩⟩⟩⟩⟩⟩⟩
  · show resources.fellowGrantExpiresAt.any
      (fun expiresAt => decide (expiresAt ≤ resources.fellowGrantExpiresAt.getD 0 - 1)) = false
    cases resources.fellowGrantExpiresAt with
    | none => rfl
    | some expiresAt => exact decide_eq_false (by show ¬expiresAt ≤ expiresAt - 1; omega)
  · show resources.problemBinding.any (fun binding => binding != problemId) = false
    rw [hbinding]
    rfl
  · show resources.eventBudget.any (fun budget : ℕ+ => decide (((budget : Nat) : Int) ≤ 0)) = false
    cases resources.eventBudget with
    | none => rfl
    | some budget =>
        have hpos := budget.pos
        exact decide_eq_false (by omega)

theorem opening_refused (scopes : List RequestedScope) (resources : EnrollmentResourceGrants)
    {binding problemId : String} (now : Int) (hbinding : resources.problemBinding = some binding)
    (hne : binding ≠ problemId) :
    (authorizeFellowWrite { opening problemId now with
      credential := (openerCredential now).carrying scopes resources }).isRefusal = true := by
  by_contra hnot
  obtain ⟨decision, heval⟩ := isRefusal_eq_false.mp (Bool.not_eq_true _ ▸ hnot)
  obtain ⟨-, heval⟩ := bind_unit_ok.mp heval
  obtain ⟨-, heval⟩ := bind_unit_ok.mp heval
  obtain ⟨-, heval⟩ := bind_unit_ok.mp heval
  obtain ⟨htarget, -⟩ := bind_unit_ok.mp heval
  have hbound : resources.problemBinding.any (fun binding => binding != problemId) = false :=
    refuseIf_ok.mp htarget
  rw [hbinding, Option.any_some, bne_eq_false_iff_eq] at hbound
  exact hne hbound

theorem noWider_iff {grantedResources : EnrollmentResourceGrants}
    (h : Within requestedScopes requestedResources grantedScopes grantedResources) :
    NoWider requestedScopes requestedResources grantedScopes grantedResources
      ↔ grantedResources.problemBinding = requestedResources.problemBinding := by
  constructor
  · intro hnoWider
    rcases h.binding with hnone | hkept
    · cases hrequested : requestedResources.problemBinding with
      | none => exact hnone
      | some binding =>
          have hne : binding ≠ binding ++ "-" := fun heq => by
            have hlength := congrArg String.length heq
            rw [String.length_append] at hlength
            have hdash : "-".length = 1 := rfl
            omega
          have hallowed := hnoWider _ (opening_allowed grantedScopes grantedResources
            (binding ++ "-") hnone)
          have hrefused := opening_refused requestedScopes requestedResources
            (grantedResources.fellowGrantExpiresAt.getD 0 - 1) hrequested hne
          exact absurd (hrefused.symm.trans hallowed) Bool.noConfusion
    · exact hkept
  · exact noWider_of_kept h

/-! ## Grants made from a decision -/

def EnrollmentDecision.removesProblemBinding : EnrollmentDecision → Bool
  | .reduce reduction => reduction.removesProblemBinding
  | _ => false

theorem removeText_ok {value kept : Option String} {remove : Bool}
    (h : removeText value remove = .ok kept) :
    (remove = false ∧ kept = value) ∨ (remove = true ∧ value ≠ none ∧ kept = none) := by
  unfold removeText at h
  cases remove with
  | false =>
      cases h
      exact .inl ⟨rfl, rfl⟩
  | true =>
      cases value with
      | none => cases h
      | some text =>
          cases h
          exact .inr ⟨rfl, Option.some_ne_none text, rfl⟩

theorem capWithin_refl {α : Type} [LinearOrder α] (cap : Option α) : capWithin cap cap = true := by
  cases cap with
  | none => rfl
  | some value => exact decide_eq_true (le_refl value)

theorem lowerCap_within {α : Type} [LinearOrder α] {cap reduction lowered : Option α}
    (h : lowerCap cap reduction = .ok lowered) : capWithin cap lowered = true := by
  cases reduction with
  | none =>
      cases h
      exact capWithin_refl cap
  | some lower =>
      cases cap with
      | none => rfl
      | some value =>
          unfold lowerCap at h
          dsimp only at h
          split at h
          · cases h
          · rename_i hlower
            cases h
            exact decide_eq_true (le_of_not_ge fun hle => hlower (decide_eq_true hle))

theorem within_refl (scopes : List RequestedScope) (resources : EnrollmentResourceGrants) :
    Within scopes resources scopes resources where
  scopes := fun _ hmem => hmem
  binding := .inr rfl
  eventBudget := capWithin_refl _
  artifactBudgetBytes := capWithin_refl _
  fellowGrantExpiresAt := capWithin_refl _

theorem reduceEnrollmentResources_within {requested resources : EnrollmentResourceGrants}
    {reduction : EnrollmentGrantReduction} {now : Int}
    (h : reduceEnrollmentResources requested reduction now = .ok resources)
    (hscopes : ∀ scope ∈ grantedScopes, scope ∈ requestedScopes) :
    Within requestedScopes requested grantedScopes resources
      ∧ (resources.problemBinding = requested.problemBinding
        ↔ reduction.removesProblemBinding = false) := by
  obtain ⟨problemBinding, hbinding, h⟩ := bind_ok.mp h
  obtain ⟨firstDirective, -, h⟩ := bind_ok.mp h
  obtain ⟨eventBudget, hevents, h⟩ := bind_ok.mp h
  obtain ⟨artifactBudgetBytes, hartifacts, h⟩ := bind_ok.mp h
  obtain ⟨fellowGrantExpiresAt, hexpires, h⟩ := bind_ok.mp h
  split at h
  · cases h
  · cases h
    rcases removeText_ok hbinding with ⟨hremove, hkept⟩ | ⟨hremove, hsome, hnone⟩
    · exact ⟨⟨hscopes, .inr hkept, lowerCap_within hevents, lowerCap_within hartifacts,
        lowerCap_within hexpires⟩, iff_of_true hkept hremove⟩
    · refine ⟨⟨hscopes, .inl hnone, lowerCap_within hevents, lowerCap_within hartifacts,
        lowerCap_within hexpires⟩, iff_of_false (fun heq => hsome ?_) ?_⟩
      · exact heq.symm.trans hnone
      · rw [hremove]
        exact Bool.noConfusion

theorem reducedScopes_subset {scopes : List RequestedScope}
    {reduction : Option (List RequestedScope)}
    (h : reducedScopes requestedScopes reduction = .ok scopes) :
    ∀ scope ∈ scopes, scope ∈ requestedScopes := by
  cases reduction with
  | none =>
      cases h
      exact fun _ hmem => hmem
  | some reduced =>
      rw [reducedScopes] at h
      split at h
      · cases h
      · rename_i hall
        split at h
        · cases h
        · cases h
          rw [Bool.not_eq_true, Bool.not_eq_false'] at hall
          exact fun scope hmem => List.contains_iff_mem.mp (List.all_eq_true.mp hall scope hmem)

theorem reducedGrant_within {scopes : List RequestedScope} {resources : EnrollmentResourceGrants}
    {decision : EnrollmentDecision} {now : Int}
    (h : reducedGrant requestedScopes requestedResources decision now = .ok (scopes, resources)) :
    Within requestedScopes requestedResources scopes resources
      ∧ (resources.problemBinding = requestedResources.problemBinding
        ↔ decision.removesProblemBinding = false) := by
  cases decision with
  | approve =>
      cases h
      exact ⟨within_refl _ _, iff_of_true rfl rfl⟩
  | deny => cases h
  | reduce reduction =>
      obtain ⟨reduced, hscopes, h⟩ := bind_ok.mp h
      obtain ⟨granted, hresources, h⟩ := bind_ok.mp h
      split at h
      · cases h
      · cases h
        have hsubset := reducedScopes_subset hscopes
        unfold reducedResources at hresources
        split at hresources
        · exact reduceEnrollmentResources_within hresources hsubset
        · rename_i hreduces
          cases hresources
          refine ⟨{ within_refl requestedScopes requestedResources with scopes := hsubset },
            iff_of_true rfl ?_⟩
          unfold EnrollmentGrantReduction.reducesResources at hreduces
          simp only [Bool.or_eq_true, not_or, Bool.not_eq_true] at hreduces
          exact hreduces.1.1.1.1

/-! ## Stored grants -/

theorem textWithin_binding {requested granted : Option String}
    (h : textWithin requested granted = true) : granted = none ∨ granted = requested := by
  rcases Bool.or_eq_true _ _ ▸ h with hnone | hkept
  · exact .inl (Option.isNone_iff_eq_none.mp hnone)
  · exact .inr (eq_of_beq hkept)

theorem enrollmentGrantIsWithinRequest_within {status : GrantStatus}
    {grantedResources : EnrollmentResourceGrants}
    (h : enrollmentGrantIsWithinRequest status requestedScopes requestedResources grantedScopes
      grantedResources = true) :
    Within requestedScopes requestedResources grantedScopes grantedResources := by
  unfold enrollmentGrantIsWithinRequest at h
  split at h
  · cases h
  · rename_i hscopes
    split at h
    · cases h
    · rename_i htexts
      split at h
      · cases h
      · rename_i hcaps
        simp only [Bool.or_eq_true, not_or, Bool.not_eq_true, Bool.not_eq_false']
          at hscopes htexts hcaps
        refine ⟨fun scope hmem => ?_, textWithin_binding htexts.1, hcaps.1.1, hcaps.1.2, hcaps.2⟩
        have hcontains := List.any_eq_false.mp hscopes.2 scope hmem
        rw [Bool.not_eq_true, Bool.not_eq_false'] at hcontains
        exact List.contains_iff_mem.mp hcontains

/-- A grant made from a decision lets through no write that the request does
not exactly if the decision keeps the problem binding, and a stored grant that
passes for one within the request exactly if it has the requested binding. -/
theorem grants_noWider_iff (requestedScopes : List RequestedScope)
    (requestedResources : EnrollmentResourceGrants) :
    (∀ (scopes : List RequestedScope) (resources : EnrollmentResourceGrants)
      (decision : EnrollmentDecision) (now : Int),
      reducedGrant requestedScopes requestedResources decision now = .ok (scopes, resources) →
        (NoWider requestedScopes requestedResources scopes resources
          ↔ decision.removesProblemBinding = false))
    ∧ ∀ (status : GrantStatus) (grantedScopes : List RequestedScope)
      (grantedResources : EnrollmentResourceGrants),
      enrollmentGrantIsWithinRequest status requestedScopes requestedResources grantedScopes
          grantedResources = true →
        (NoWider requestedScopes requestedResources grantedScopes grantedResources
          ↔ grantedResources.problemBinding = requestedResources.problemBinding) := by
  constructor
  · intro scopes resources decision now hgrant
    obtain ⟨hwithin, hremoves⟩ := reducedGrant_within hgrant
    exact (noWider_iff hwithin).trans hremoves
  · intro status grantedScopes grantedResources hstored
    exact noWider_iff (enrollmentGrantIsWithinRequest_within hstored)

/-! ## A binding let go -/

def boundRequest : EnrollmentResourceGrants := ⟨some "P-ONE", none, none, none, none⟩

def unbindingReduction : EnrollmentGrantReduction := ⟨none, true, false, none, none, none⟩

def budgetReduction : EnrollmentGrantReduction := ⟨none, false, false, some 5, none, none⟩

theorem grants_noWider_sample :
    NoWider [.review] boundRequest [.review] { boundRequest with eventBudget := some 5 }
    ∧ ¬NoWider [.review] boundRequest [.review] { boundRequest with problemBinding := none } :=
  ⟨((grants_noWider_iff [.review] boundRequest).1 [.review] _ (.reduce budgetReduction) 0
      rfl).mpr rfl,
    fun hnoWider => nomatch ((grants_noWider_iff [.review] boundRequest).2 .reduced [.review]
      { boundRequest with problemBinding := none } rfl).mp hnoWider⟩

/-- Letting the binding go opens sessions on other problems. -/
theorem grants_wider :
    reducedGrant [.review] boundRequest (.reduce unbindingReduction) 0
        = .ok ([.review], { boundRequest with problemBinding := none })
    ∧ enrollmentGrantIsWithinRequest .reduced [.review] boundRequest [.review]
        { boundRequest with problemBinding := none } = true
    ∧ ∃ input : FellowWriteAuthorizationInput,
      (authorizeFellowWrite { input with
        credential := input.credential.carrying [.review]
          { boundRequest with problemBinding := none } }) = .allow .sessionOpen
      ∧ (authorizeFellowWrite { input with
        credential := input.credential.carrying [.review] boundRequest }).isRefusal = true :=
  ⟨rfl, rfl, opening "P-TWO" 0, rfl, rfl⟩

/-! ## Decisions are redeemable -/

def EnrollmentDecision.status : EnrollmentDecision → GrantStatus
  | .approve => .approved
  | .reduce _ | .deny => .reduced

theorem lowerCap_ne {α : Type} [LinearOrder α] {cap lowered : Option α} {lower : α}
    (h : lowerCap cap (some lower) = .ok lowered) : lowered ≠ cap := by
  cases cap with
  | none =>
      cases h
      exact Option.some_ne_none lower
  | some value =>
      unfold lowerCap at h
      dsimp only at h
      split at h
      · cases h
      · rename_i hlower
        cases h
        rintro ⟨⟩
        exact hlower (decide_eq_true le_rfl)

theorem textWithin_removeText {value kept : Option String} {remove : Bool}
    (h : removeText value remove = .ok kept) : textWithin value kept = true := by
  rcases removeText_ok h with ⟨-, rfl⟩ | ⟨-, -, rfl⟩
  · exact Bool.or_eq_true_iff.mpr (.inr (beq_self_eq_true kept))
  · rfl

theorem reduceEnrollmentResources_ne {requested resources : EnrollmentResourceGrants}
    {reduction : EnrollmentGrantReduction} {now : Int}
    (h : reduceEnrollmentResources requested reduction now = .ok resources) :
    textWithin requested.firstDirective resources.firstDirective = true
      ∧ requested ≠ resources := by
  obtain ⟨problemBinding, hbinding, h⟩ := bind_ok.mp h
  obtain ⟨firstDirective, hdirective, h⟩ := bind_ok.mp h
  obtain ⟨eventBudget, hevents, h⟩ := bind_ok.mp h
  obtain ⟨artifactBudgetBytes, hartifacts, h⟩ := bind_ok.mp h
  obtain ⟨fellowGrantExpiresAt, hexpires, h⟩ := bind_ok.mp h
  split at h
  · cases h
  rename_i hreduces
  cases h
  refine ⟨textWithin_removeText hdirective, ?_⟩
  rintro rfl
  have hremove : ∀ {value : Option String} {remove : Bool},
      removeText value remove = .ok value → remove = false := by
    intro value remove h
    rcases removeText_ok h with ⟨hkeep, -⟩ | ⟨-, hsome, hnone⟩
    · exact hkeep
    · exact absurd hnone hsome
  have hlower : ∀ {α : Type} [LinearOrder α] {cap reduction : Option α},
      lowerCap cap reduction = .ok cap → reduction = none := by
    intro α _ cap reduction h
    cases reduction with
    | none => rfl
    | some lower => exact absurd rfl (lowerCap_ne h)
  have hexpiry : reduction.fellowGrantExpiresInMs = none := by
    cases hms : reduction.fellowGrantExpiresInMs with
    | none => rfl
    | some ms =>
        rw [hms] at hexpires
        cases hlower hexpires
  refine hreduces ?_
  rw [EnrollmentGrantReduction.reducesResources, hremove hbinding, hremove hdirective,
    hlower hevents, hlower hartifacts, hexpiry]
  rfl

theorem reducedScopes_spec {scopes : List RequestedScope} {reduction : Option (List RequestedScope)}
    (hrequested : requestedScopes ≠ [])
    (h : reducedScopes requestedScopes reduction = .ok scopes) :
    scopes ≠ [] ∧ (reduction = none ∨ sameScopes requestedScopes scopes = false) := by
  cases reduction with
  | none =>
      cases h
      exact ⟨hrequested, .inl rfl⟩
  | some reduced =>
      rw [reducedScopes] at h
      split at h
      · cases h
      · split at h
        · cases h
        · rename_i hstrict
          cases h
          rw [isStrictEnrollmentScopeReduction, Bool.not_eq_true, Bool.not_eq_false',
            Bool.and_eq_true, Bool.and_eq_true, Bool.not_eq_true'] at hstrict
          refine ⟨?_, .inr hstrict.2⟩
          exact List.length_pos_iff.mp (of_decide_eq_true hstrict.1.1)

theorem enrollmentGrantIsWithinRequest_of {status : GrantStatus}
    {grantedResources : EnrollmentResourceGrants} (hscopes : grantedScopes ≠ [])
    (hwithin : Within requestedScopes requestedResources grantedScopes grantedResources)
    (hdirective : textWithin requestedResources.firstDirective grantedResources.firstDirective
      = true)
    (hstatus : (status == .approved) = (sameScopes requestedScopes grantedScopes
      && requestedResources == grantedResources)) :
    enrollmentGrantIsWithinRequest status requestedScopes requestedResources grantedScopes
      grantedResources = true := by
  have hbinding : textWithin requestedResources.problemBinding grantedResources.problemBinding
      = true := by
    rcases hwithin.binding with hnone | hkept
    · exact Bool.or_eq_true_iff.mpr (.inl (Option.isNone_iff_eq_none.mpr hnone))
    · exact Bool.or_eq_true_iff.mpr (.inr (beq_iff_eq.mpr hkept))
  have hcontained : (grantedScopes.any fun scope => !requestedScopes.contains scope) = false := by
    refine List.any_eq_false.mpr fun scope hmem => ?_
    rw [Bool.not_eq_true', Bool.not_eq_false]
    exact List.contains_iff_mem.mpr (hwithin.scopes scope hmem)
  have hlength : (grantedScopes.length == 0) = false :=
    beq_eq_false_iff_ne.mpr fun hzero => hscopes (List.length_eq_zero_iff.mp hzero)
  unfold enrollmentGrantIsWithinRequest
  rw [hlength, hcontained, hbinding, hdirective, hwithin.eventBudget, hwithin.artifactBudgetBytes,
    hwithin.fellowGrantExpiresAt, ← hstatus]
  cases status <;> rfl

/-- Every grant a decision makes of a request with a scope passes the check
of the poll that redeems it, with the status the decision is stored with. -/
theorem grants_redeemable {scopes : List RequestedScope} {resources : EnrollmentResourceGrants}
    {decision : EnrollmentDecision} {now : Int} (hscopes : requestedScopes ≠ [])
    (h : reducedGrant requestedScopes requestedResources decision now = .ok (scopes, resources)) :
    enrollmentGrantIsWithinRequest decision.status requestedScopes requestedResources scopes
      resources = true := by
  have hwithin := (reducedGrant_within h).1
  cases decision with
  | approve =>
      cases h
      refine enrollmentGrantIsWithinRequest_of hscopes hwithin ?_ ?_
      · exact Bool.or_eq_true_iff.mpr (.inr (beq_self_eq_true _))
      · simp [EnrollmentDecision.status, sameScopes]
  | deny => cases h
  | reduce reduction =>
      obtain ⟨reduced, hreduced, h⟩ := bind_ok.mp h
      obtain ⟨granted, hgranted, h⟩ := bind_ok.mp h
      split at h
      · cases h
      rename_i hsome
      cases h
      obtain ⟨hne, hstrict⟩ := reducedScopes_spec hscopes hreduced
      unfold reducedResources at hgranted
      split at hgranted
      · obtain ⟨hdirective, hdiffer⟩ := reduceEnrollmentResources_ne hgranted
        refine enrollmentGrantIsWithinRequest_of hne hwithin hdirective ?_
        rw [beq_eq_false_iff_ne.mpr hdiffer, Bool.and_false]
        rfl
      · rename_i hreduces
        cases hgranted
        refine enrollmentGrantIsWithinRequest_of hne hwithin ?_ ?_
        · exact Bool.or_eq_true_iff.mpr (.inr (beq_self_eq_true _))
        · have hscoped : reduction.scopes ≠ none := by
            intro hnone
            rw [hnone, Bool.eq_false_iff.mpr hreduces] at hsome
            exact hsome rfl
          rw [hstrict.resolve_left hscoped, Bool.false_and]
          rfl

theorem grants_redeemable_sample :
    enrollmentGrantIsWithinRequest .reduced [.promote, .review] boundRequest [.review] boundRequest
      = true := by
  have hgrant : reducedGrant [.promote, .review] boundRequest
      (.reduce ⟨some [.review], false, false, none, none, none⟩) 0
        = .ok ([.review], boundRequest) := rfl
  exact grants_redeemable (List.cons_ne_nil _ _) hgrant

end Asimposium.Enrollment
