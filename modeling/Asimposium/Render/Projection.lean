import Asimposium.Render.Contracts
import Asimposium.Render.Sanitize

/-!
# Projections

A projection is what a composer hands to the renderer, a prepared
projection what every face is printed from: its bodies are neutralized and
it carries the fingerprint all faces share.
-/

namespace Asimposium

open Text Json

/-! ## The envelope -/

/-- `system` items are the only instruction-bearing items. -/
inductive ItemScope where
  | system
  | ledger
  | workshop
deriving Repr, DecidableEq

def ItemScope.spelling : ItemScope → Text
  | system => text "system"
  | ledger => text "ledger"
  | workshop => text "workshop"

structure ProjectionItem where
  kind : Text
  id : Text
  scope : ItemScope
  untrusted : Bool
  body : Text
  whyIncluded : Text
  tokens : Option Int
  screeningNotice : Option ScreeningPublicationNotice
deriving Repr, DecidableEq

structure OmittedEntry where
  reason : Text
  detail : Option Text
deriving Repr, DecidableEq

inductive ActionMethod where
  | GET
  | POST
deriving Repr, DecidableEq

def ActionMethod.spelling : ActionMethod → Text
  | GET => text "GET"
  | POST => text "POST"

structure NextAction where
  method : ActionMethod
  url : Text
  why : Text
deriving Repr, DecidableEq

inductive PackAudience where
  | «public»
  | session
deriving Repr, DecidableEq

def PackAudience.spelling : PackAudience → Text
  | «public» => text "public"
  | session => text "session"

inductive PackMembership where
  | none
  | observer
  | contributor
  | steward
deriving Repr, DecidableEq

def PackMembership.spelling : PackMembership → Text
  | none => text "none"
  | observer => text "observer"
  | contributor => text "contributor"
  | steward => text "steward"

structure PackViewer where
  audience : PackAudience
  membership : PackMembership
  effectivePermissions : List Text
deriving Repr, DecidableEq

/-- The renderable envelope. Provenance may be absent, or `null` for a
session that predates its capture. -/
structure Projection where
  schema : Text
  kind : Text
  session : Option Text
  provenance : Option (Option SessionProvenance)
  problem : Text
  profile : Text
  cursor : Int
  budgetTokens : Option Int
  tokensEstimate : Option Int
  title : Text
  preamble : Text
  items : List ProjectionItem
  omitted : List OmittedEntry
  nextActions : List NextAction
  degraded : List Text
  viewer : Option PackViewer
  promotionBudget : Option RateLimitBudget
  claimState : Option PublicClaimState
  problemStatus : Option ProblemStatus
deriving DecidableEq

/-! ## Prepared projections -/

structure PreparedItem where
  kind : Text
  id : Text
  scope : ItemScope
  untrusted : Bool
  whyIncluded : Text
  tokens : Option Int
  screeningNotice : Option ScreeningPublicationNotice
  body : Text
  neutralized : List NeutralizationFinding
deriving Repr, DecidableEq

structure NeutralizationReport where
  itemId : Text
  marker : NeutralizationMarker
  count : Nat
deriving Repr, DecidableEq

/-- The projection with its items prepared, its fingerprint, and a report
of what the sanitizer did. -/
structure PreparedProjection where
  projection : Projection
  items : List PreparedItem
  fingerprint : Text
  neutralized : List NeutralizationReport

/-! ## JSON -/

def NeutralizationMarker.spelling : NeutralizationMarker → Text
  | asimpControlComment => text "asimp-control-comment"
  | envelopeKeyForgery => text "envelope-key-forgery"
  | fenceExtended => text "fence-extended"
  | activeHtml => text "active-html"

def NeutralizationFinding.toJson (finding : NeutralizationFinding) : Json :=
  .obj (member "marker" (.str finding.marker.spelling) ++ member "count" (.num finding.count))

def PreparedItem.toJson (item : PreparedItem) : Json :=
  .obj (member "kind" (.str item.kind) ++ member "id" (.str item.id)
    ++ member "scope" (.str item.scope.spelling) ++ member "untrusted" (.bool item.untrusted)
    ++ member "why_included" (.str item.whyIncluded)
    ++ member? "tokens" (item.tokens.map .num) ++ member "body" (.str item.body)
    ++ member? "screening_notice" (item.screeningNotice.map (·.toJson))
    ++ member "neutralized" (.arr (item.neutralized.map (·.toJson))))

def OmittedEntry.toJson (entry : OmittedEntry) : Json :=
  .obj (member "reason" (.str entry.reason) ++ textMember? "detail" entry.detail)

def NextAction.toJson (action : NextAction) : Json :=
  .obj (member "method" (.str action.method.spelling) ++ member "url" (.str action.url)
    ++ member "why" (.str action.why))

def PackViewer.toJson (viewer : PackViewer) : Json :=
  .obj (member "audience" (.str viewer.audience.spelling)
    ++ member "membership" (.str viewer.membership.spelling)
    ++ member "effective_permissions" (.arr (viewer.effectivePermissions.map .str)))

/-- Provenance as it is printed: `null` where it was not captured. -/
def provenanceJson (provenance : Option SessionProvenance) : Json :=
  match provenance with
  | some provenance => provenance.toJson
  | none => .null

def Projection.members (projection : Projection) (items : List PreparedItem) :
    List (Text × Json) :=
  member "schema" (.str projection.schema) ++ member "kind" (.str projection.kind)
    ++ textMember? "session" projection.session
    ++ member? "provenance" (projection.provenance.map provenanceJson)
    ++ member "problem" (.str projection.problem) ++ member "profile" (.str projection.profile)
    ++ member "cursor" (.num projection.cursor)
    ++ (match projection.budgetTokens with
      | none => []
      | some budget => member "budget_tokens" (.num budget)
          ++ member? "tokens_estimate" (projection.tokensEstimate.map .num))
    ++ member "title" (.str projection.title) ++ member "preamble" (.str projection.preamble)
    ++ member "items" (.arr (items.map (·.toJson)))
    ++ member "omitted" (.arr (projection.omitted.map (·.toJson)))
    ++ member "next_actions" (.arr (projection.nextActions.map (·.toJson)))
    ++ member "degraded" (.arr (projection.degraded.map .str))
    ++ member? "viewer" (projection.viewer.map (·.toJson))
    ++ member? "promotion_budget" (projection.promotionBudget.map (·.toJson))
    ++ member? "claim_state" (projection.claimState.map (·.toJson))
    ++ member? "problem_status" (projection.problemStatus.map fun status => .str status.spelling)

def fingerprintSource (projection : Projection) (items : List PreparedItem) : Text :=
  stableStringify (.obj (projection.members items)) 0

/-- `renderJsonFace`. -/
def renderJsonFace (prepared : PreparedProjection) : Text :=
  stableStringify (.obj (member "face" (.str (text "json"))
      ++ member "fingerprint" (.str prepared.fingerprint)
      ++ prepared.projection.members prepared.items)) 2
    ++ [unit '\n']

end Asimposium
