import Asimposium.Js
import Mathlib.Data.PNat.Basic
import Mathlib.Data.List.Dedup
import Asimposium.Lib.ExceptRun
import Mathlib.Data.List.Sort

/-!
# Authorization of a Fellow's writes

`authorizeFellowWrite` decides one write from what the credential carries:
scopes, and grants whose absence means that nothing is capped or bound.
`evaluateFellowWriteAuthorization` goes through its checks in a fixed order and
tells the operator the first one that fails; the caller is told only that the
write is refused.

Instants are milliseconds. An event budget is at least one, as every schema
that admits one has it.
-/

namespace Asimposium.Enrollment

/-! ## Credentials -/

inductive RequestedScope where
  | promote
  | review
  | proposeProblems
  | uploadArtifacts
  deriving DecidableEq, Repr

/-- The grants of an enrollment. An absent cap is no cap, an absent binding
no binding. -/
structure EnrollmentResourceGrants where
  problemBinding : Option String
  firstDirective : Option String
  eventBudget : Option ℕ+
  artifactBudgetBytes : Option Nat
  fellowGrantExpiresAt : Option Int
  deriving DecidableEq

inductive FellowLifecycleStatus where
  | pending
  | active
  | paused
  | revoked
  | archived
  | compromised
  | suspiciousReview
  deriving DecidableEq, Repr

structure FellowCredentialBinding where
  grantedScopes : List RequestedScope
  grantedResources : EnrollmentResourceGrants
  issuedAt : Int
  expiresAt : Int
  revokedAt : Option Int
  fellowStatus : FellowLifecycleStatus

/-! ## Writes -/

inductive FellowWriteEffect where
  | scopeEffect (scope : RequestedScope)
  | workshopPush
  | sessionOpen
  | sessionClose
  | artifactPublicationRetry
  deriving DecidableEq, Repr

inductive FellowProblemMembershipRole where
  | observer
  | contributor
  | steward
  deriving DecidableEq, Repr

inductive Publication where
  | published
  | privateDraft
  deriving DecidableEq, Repr

inductive FellowWriteTarget where
  | existingProblem (problemId : String) (publication : Publication)
      (membershipRole : Option FellowProblemMembershipRole) (action : Option String)
  | newProblem (initialPublication : Publication)
  | sessionAdmission (problemId : String)
  | sessionClose (problemId : String) (membershipRole : Option FellowProblemMembershipRole)
  deriving DecidableEq, Repr

structure FellowWriteGrantUsage where
  eventsRecorded : Int
  artifactBytesRecorded : Int

inductive FellowAuthorizationRefusalReason where
  | credentialRevoked
  | credentialNotYetValid
  | credentialExpired
  | fellowStatusNotWritable
  | scopeNotGranted
  | grantExpired
  | problemBindingMismatch
  | notAMember
  | roleNotPermitted
  | targetNotWritable
  | eventBudgetExhausted
  | artifactBudgetUnverifiable
  | artifactBudgetExhausted
  | suspiciousReviewWriteBlocked
  deriving DecidableEq, Repr

structure ProblemDocument where
  type : String
  title : String
  status : Nat
  code : String
  detail : String
  fixHint : String
  deriving DecidableEq, Repr

def fellowUnauthorizedProblem : ProblemDocument where
  type := "https://asimposium.org/errors/UNAUTHORIZED"
  title := "Authorization was not accepted"
  status := 401
  code := "UNAUTHORIZED"
  detail := "The request did not include an authorization accepted by this route."
  fixHint := "Obtain a fresh sponsor authorization and retry the request."

inductive FellowAuthorizationDecision where
  | allow (effect : FellowWriteEffect)
  | quarantine (effect : FellowWriteEffect)
  | refuse (callerProblem : ProblemDocument)
  deriving DecidableEq, Repr

def FellowAuthorizationDecision.isRefusal : FellowAuthorizationDecision → Bool
  | .refuse _ => true
  | _ => false

/-! ## The evaluation -/

abbrev Check := Except FellowAuthorizationRefusalReason Unit

def refuseIf (refused : Bool) (reason : FellowAuthorizationRefusalReason) : Check :=
  if refused then .error reason else .ok ()

def checkCredential (credential : FellowCredentialBinding) (now : Int) : Check := do
  refuseIf (credential.revokedAt.any (· ≤ now)) .credentialRevoked
  refuseIf (now < credential.issuedAt) .credentialNotYetValid
  refuseIf (credential.expiresAt ≤ now) .credentialExpired
  refuseIf (credential.fellowStatus != .active && credential.fellowStatus != .suspiciousReview)
    .fellowStatusNotWritable

def checkScopes (effect : FellowWriteEffect) (grantedScopes : List RequestedScope) : Check :=
  match effect with
  | .artifactPublicationRetry =>
      refuseIf (!grantedScopes.contains .promote || !grantedScopes.contains .uploadArtifacts)
        .scopeNotGranted
  | .workshopPush | .sessionOpen | .sessionClose => .ok ()
  | .scopeEffect scope => refuseIf (!grantedScopes.contains scope) .scopeNotGranted

def checkExpiry (fellowGrantExpiresAt : Option Int) (now : Int) : Check :=
  refuseIf (fellowGrantExpiresAt.any (· ≤ now)) .grantExpired

def boundElsewhere (binding : Option String) (problemId : String) : Bool :=
  binding.any (· != problemId)

def checkTarget (effect : FellowWriteEffect) (target : FellowWriteTarget)
    (binding : Option String) : Check :=
  match effect with
  | .scopeEffect .proposeProblems => do
      refuseIf binding.isSome .problemBindingMismatch
      refuseIf (target != .newProblem .privateDraft) .targetNotWritable
  | .sessionOpen =>
      match target with
      | .sessionAdmission problemId =>
          refuseIf (boundElsewhere binding problemId) .problemBindingMismatch
      | _ => .error .targetNotWritable
  | .sessionClose =>
      match target with
      | .sessionClose problemId membershipRole => do
          refuseIf (boundElsewhere binding problemId) .problemBindingMismatch
          refuseIf membershipRole.isNone .notAMember
      | _ => .error .targetNotWritable
  | _ =>
      match target with
      | .existingProblem problemId publication membershipRole action => do
          refuseIf (effect == .artifactPublicationRetry && action != some "evidence")
            .targetNotWritable
          refuseIf (boundElsewhere binding problemId) .problemBindingMismatch
          refuseIf membershipRole.isNone .notAMember
          refuseIf (effect == .scopeEffect .promote && membershipRole == some .observer
              && (action == none || action == some "claim")) .roleNotPermitted
          refuseIf (publication == .privateDraft && (effect == .scopeEffect .promote
              || effect == .scopeEffect .review || effect == .artifactPublicationRetry))
            .targetNotWritable
      | _ => .error .targetNotWritable

def checkEvents (effect : FellowWriteEffect) (eventBudget : Option ℕ+) (eventsRecorded : Int) :
    Check :=
  refuseIf (eventBudget.any fun budget : ℕ+ =>
      if effect = .artifactPublicationRetry then ((budget : Nat) : Int) < eventsRecorded
      else ((budget : Nat) : Int) ≤ eventsRecorded) .eventBudgetExhausted

def bytesRequested (effect : FellowWriteEffect) (artifactBytesRequested : Option Int) :
    Option Int :=
  if effect = .artifactPublicationRetry then some 0 else artifactBytesRequested

def checkArtifacts (effect : FellowWriteEffect) (artifactBudget : Option Nat)
    (artifactBytesRecorded : Int) (artifactBytesRequested : Option Int) : Check :=
  if effect = .scopeEffect .uploadArtifacts ∨ effect = .artifactPublicationRetry then
    match bytesRequested effect artifactBytesRequested with
    | none => .error .artifactBudgetUnverifiable
    | some requested => do
        refuseIf (!isSafeInteger requested || requested < 0) .artifactBudgetUnverifiable
        refuseIf (artifactBudget.any fun budget : Nat =>
            (budget : Int) - requested < artifactBytesRecorded || (budget : Int) < requested)
          .artifactBudgetExhausted
  else .ok ()

/-- What is left to decide of a write that passes every check. -/
def settle (effect : FellowWriteEffect) (fellowStatus : FellowLifecycleStatus) :
    Except FellowAuthorizationRefusalReason FellowAuthorizationDecision :=
  if fellowStatus = .suspiciousReview then
    if effect = .sessionOpen ∨ effect = .sessionClose then .error .suspiciousReviewWriteBlocked
    else .ok (.quarantine effect)
  else .ok (.allow effect)

structure FellowWriteAuthorizationInput where
  effect : FellowWriteEffect
  credential : FellowCredentialBinding
  target : FellowWriteTarget
  usage : FellowWriteGrantUsage
  artifactBytesRequested : Option Int
  now : Int

def evaluateFellowWriteAuthorization (input : FellowWriteAuthorizationInput) :
    Except FellowAuthorizationRefusalReason FellowAuthorizationDecision := do
  checkCredential input.credential input.now
  checkScopes input.effect input.credential.grantedScopes
  let grants := input.credential.grantedResources
  checkExpiry grants.fellowGrantExpiresAt input.now
  checkTarget input.effect input.target grants.problemBinding
  checkEvents input.effect grants.eventBudget input.usage.eventsRecorded
  checkArtifacts input.effect grants.artifactBudgetBytes input.usage.artifactBytesRecorded
    input.artifactBytesRequested
  settle input.effect input.credential.fellowStatus

def authorizeFellowWrite (input : FellowWriteAuthorizationInput) : FellowAuthorizationDecision :=
  match evaluateFellowWriteAuthorization input with
  | .ok decision => decision
  | .error _ => .refuse fellowUnauthorizedProblem

end Asimposium.Enrollment

/-!
## Reduced grants

A sponsor approves an enrollment as it was requested, or reduced.
`reducedGrant` makes the grant from the decision, and
`enrollmentGrantIsWithinRequest` checks a stored grant against the request.
Both lower caps and take scopes away. Both also let a problem binding go, and a
credential without one writes where the requested one does not.
-/

namespace Asimposium.Enrollment

open ExceptRun

/-! ## Reductions -/

/-- `problem_binding` and `first_directive` of a reduction are `null` or
absent. -/
structure EnrollmentGrantReduction where
  scopes : Option (List RequestedScope)
  removesProblemBinding : Bool
  removesFirstDirective : Bool
  eventBudget : Option ℕ+
  artifactBudgetBytes : Option Nat
  fellowGrantExpiresInMs : Option ℕ+

inductive EnrollmentDecision where
  | approve
  | reduce (reduction : EnrollmentGrantReduction)
  | deny

inductive EnrollmentError where
  | scopeEscalation
  | scopeNotReduced
  | proposalNotPending
  deriving DecidableEq, Repr

def RequestedScope.rank : RequestedScope → Nat
  | .promote => 0
  | .proposeProblems => 1
  | .review => 2
  | .uploadArtifacts => 3

def uniqueEnrollmentScopes (scopes : List RequestedScope) : List RequestedScope :=
  scopes.dedup.insertionSort fun left right => left.rank ≤ right.rank

def sameScopes (left right : List RequestedScope) : Bool :=
  uniqueEnrollmentScopes left == uniqueEnrollmentScopes right

def isStrictEnrollmentScopeReduction (requested reduced : List RequestedScope) : Bool :=
  0 < reduced.length && reduced.all requested.contains && !sameScopes requested reduced

def removeText (value : Option String) (remove : Bool) : Except EnrollmentError (Option String) :=
  if !remove then .ok value else if value.isNone then .error .scopeNotReduced else .ok none

def lowerCap {α : Type} [LE α] [DecidableLE α] (cap reduction : Option α) :
    Except EnrollmentError (Option α) :=
  match reduction with
  | none => .ok cap
  | some lower => if cap.any (· ≤ lower) then .error .scopeNotReduced else .ok (some lower)

def EnrollmentGrantReduction.reducesResources (reduction : EnrollmentGrantReduction) : Bool :=
  reduction.removesProblemBinding || reduction.removesFirstDirective
    || reduction.eventBudget.isSome || reduction.artifactBudgetBytes.isSome
    || reduction.fellowGrantExpiresInMs.isSome

def reduceEnrollmentResources (requested : EnrollmentResourceGrants)
    (reduction : EnrollmentGrantReduction) (now : Int) :
    Except EnrollmentError EnrollmentResourceGrants := do
  let problemBinding ← removeText requested.problemBinding reduction.removesProblemBinding
  let firstDirective ← removeText requested.firstDirective reduction.removesFirstDirective
  let eventBudget ← lowerCap requested.eventBudget reduction.eventBudget
  let artifactBudgetBytes ← lowerCap requested.artifactBudgetBytes reduction.artifactBudgetBytes
  let fellowGrantExpiresAt ← lowerCap requested.fellowGrantExpiresAt
    (reduction.fellowGrantExpiresInMs.map fun ms => now + ((ms : Nat) : Int))
  if !reduction.reducesResources then .error .scopeNotReduced
  else .ok ⟨problemBinding, firstDirective, eventBudget, artifactBudgetBytes, fellowGrantExpiresAt⟩

def reducedScopes (requestedScopes : List RequestedScope) :
    Option (List RequestedScope) → Except EnrollmentError (List RequestedScope)
  | none => .ok requestedScopes
  | some scopes =>
      if !(uniqueEnrollmentScopes scopes).all requestedScopes.contains then .error .scopeEscalation
      else if !isStrictEnrollmentScopeReduction requestedScopes (uniqueEnrollmentScopes scopes) then
        .error .scopeNotReduced
      else .ok (uniqueEnrollmentScopes scopes)

def reducedResources (requestedResources : EnrollmentResourceGrants)
    (reduction : EnrollmentGrantReduction) (now : Int) :
    Except EnrollmentError EnrollmentResourceGrants :=
  if reduction.reducesResources then reduceEnrollmentResources requestedResources reduction now
  else .ok requestedResources

def reducedGrant (requestedScopes : List RequestedScope)
    (requestedResources : EnrollmentResourceGrants) (decision : EnrollmentDecision) (now : Int) :
    Except EnrollmentError (List RequestedScope × EnrollmentResourceGrants) :=
  match decision with
  | .approve => .ok (requestedScopes, requestedResources)
  | .deny => .error .proposalNotPending
  | .reduce reduction => do
      let scopes ← reducedScopes requestedScopes reduction.scopes
      let resources ← reducedResources requestedResources reduction now
      if reduction.scopes.isNone && !reduction.reducesResources then .error .scopeNotReduced
      else .ok (scopes, resources)

/-! ## Stored grants -/

inductive GrantStatus where
  | approved
  | reduced
  deriving DecidableEq, Repr

def textWithin (requested granted : Option String) : Bool :=
  granted.isNone || granted == requested

def capWithin {α : Type} [LE α] [DecidableLE α] (requested granted : Option α) : Bool :=
  match requested, granted with
  | none, _ => true
  | some _, none => false
  | some cap, some lower => lower ≤ cap

def enrollmentGrantIsWithinRequest (status : GrantStatus) (requestedScopes : List RequestedScope)
    (requestedResources : EnrollmentResourceGrants) (grantedScopes : List RequestedScope)
    (grantedResources : EnrollmentResourceGrants) : Bool :=
  if grantedScopes.length == 0 || grantedScopes.any fun scope => !requestedScopes.contains scope then
    false
  else if !textWithin requestedResources.problemBinding grantedResources.problemBinding
      || !textWithin requestedResources.firstDirective grantedResources.firstDirective then false
  else if !capWithin requestedResources.eventBudget grantedResources.eventBudget
      || !capWithin requestedResources.artifactBudgetBytes grantedResources.artifactBudgetBytes
      || !capWithin requestedResources.fellowGrantExpiresAt grantedResources.fellowGrantExpiresAt then
    false
  else
    let unchanged := sameScopes requestedScopes grantedScopes
      && requestedResources == grantedResources
    match status with
    | .approved => unchanged
    | .reduced => !unchanged

end Asimposium.Enrollment
