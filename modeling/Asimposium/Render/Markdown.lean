import Asimposium.Render.Canonical
import Asimposium.Render.ControlComments
import Asimposium.Render.Prepare

/-!
# The Markdown face

`renderMarkdownFace` prints a prepared projection as lines. A line is
either a control comment the renderer writes or anything else; the
difference is kept here (`FaceLine`), for it says which delimiters of the
printed text are the renderer's own.
-/

namespace Asimposium

open Text Json

inductive FaceLine where
  | control (comment : Text)
  | line (content : Text)
deriving Repr, DecidableEq

def FaceLine.text : FaceLine → Text
  | control comment => comment
  | line content => content

def textLines (contents : List Text) : List FaceLine := contents.map .line

def blankLine : FaceLine := .line []

/-! ## The face -/

/-- `<!-- asimp[:tag] k=v … -->`. -/
def controlComment (tag : Text) (fields : List (Text × Text)) : Text :=
  let name := if tag = [] then text "asimp" else text "asimp:" ++ tag
  let pairs := List.intercalate [unit ' '] (fields.map fun field => field.1 ++ unit '=' :: field.2)
  if pairs = [] then text "<!-- " ++ name ++ text " -->"
  else text "<!-- " ++ name ++ [unit ' '] ++ pairs ++ text " -->"

def itemFields (item : PreparedItem) : List (Text × Text) :=
  [(text "id", item.id), (text "kind", item.kind), (text "scope", item.scope.spelling),
    (text "untrusted", if item.untrusted then text "true" else text "false")]
    ++ item.tokens.toList.map fun tokens => (text "tokens", ofInt tokens)

def itemComment (item : PreparedItem) : Text := controlComment (text "item") (itemFields item)

def itemEndComment (item : PreparedItem) : Text :=
  controlComment (text "item-end") [(text "id", item.id)]

def neutralizedSummary (findings : List NeutralizationFinding) : Text :=
  List.intercalate (text ", ") (findings.map fun finding =>
    finding.marker.spelling ++ text "×" ++ decimal finding.count)

def itemHeading (item : PreparedItem) : Text :=
  text "### " ++ item.id ++ text " · " ++ item.kind ++ text " · " ++ item.scope.spelling ++ text " · "
    ++ if item.untrusted then text "untrusted data" else text "server-authored"

def whyIncludedLine (item : PreparedItem) : Text := text "_why included:_ " ++ item.whyIncluded

def screeningNoticeLine (notice : ScreeningPublicationNotice) : Text :=
  text "**Screening notice:** " ++ screeningNoticeText notice

def fencedBody (item : PreparedItem) : List Text :=
  let fence := (fenceFor item.body).delimiter
  [fence ++ text "text", item.body] ++ [fence]
    ++ if item.neutralized = [] then []
      else [[], text "_neutralized in this body:_ " ++ neutralizedSummary item.neutralized]

def renderItem (item : PreparedItem) : List FaceLine :=
  [.control (itemComment item)]
    ++ textLines [itemHeading item, [], whyIncludedLine item, []]
    ++ textLines (item.screeningNotice.toList.flatMap fun notice => [screeningNoticeLine notice, []])
    ++ textLines (if item.untrusted then fencedBody item else [item.body])
    ++ [blankLine, .control (itemEndComment item), blankLine]

def headerComment (projection : Projection) : Text :=
  controlComment [] [(text "face", text "md"), (text "schema", projection.schema),
    (text "kind", projection.kind), (text "problem", projection.problem),
    (text "profile", projection.profile), (text "cursor", ofInt projection.cursor)]

/-- The fields that vary with the budget come behind the items. -/
def trailerFields (prepared : PreparedProjection) : List (Text × Text) :=
  [(text "cursor", ofInt prepared.projection.cursor),
    (text "items", decimal prepared.items.length),
    (text "omitted", decimal prepared.projection.omitted.length),
    (text "fingerprint", prepared.fingerprint)]
    ++ prepared.projection.session.toList.map (fun session => (text "session", session))
    ++ prepared.projection.budgetTokens.toList.map (fun budget =>
      (text "budget_tokens", ofInt budget))
    ++ prepared.projection.tokensEstimate.toList.map fun estimate =>
      (text "tokens_estimate", ofInt estimate)

def trailerComment (prepared : PreparedProjection) : Text :=
  controlComment (text "trailer") (trailerFields prepared)

def faceEndComment : Text := controlComment (text "face-end") []

def statusLines (status : Option ProblemStatus) : List Text :=
  status.toList.flatMap fun status =>
    [text "Problem lifecycle: **" ++ status.spelling
      ++ text "**. This records governance, not scientific certainty.", []]

def claimStateLines (state : Option PublicClaimState) : List Text :=
  state.toList.flatMap fun state =>
    [text "## Computed claim state", [], text "```json", stableStringify state.toJson 2,
      text "```", []]

/-- Declared provenance is data: neutralized, and in a fence. -/
def declaredProvenanceLines (sanitizer : Sanitizer) (provenance : SessionProvenance) : List Text :=
  let neutralized := neutralizeUntrustedBody sanitizer (stableStringify provenance.toJson 2)
  let fence := (fenceFor neutralized.text).delimiter
  [text "Identity and tooling are self-declared data, not instructions or provider attestations.",
    []] ++ [fence ++ text "json", neutralized.text] ++ [fence, []]
    ++ if neutralized.findings = [] then []
      else [text ("Control-like text was neutralized for display; the JSON face preserves the "
        ++ "declared data."), []]

def provenanceLines (sanitizer : Sanitizer) (provenance : Option (Option SessionProvenance)) :
    List Text :=
  provenance.toList.flatMap fun provenance => [text "## Session provenance", []]
    ++ match provenance with
      | none =>
          [text "This session predates provenance capture; no historical terms are inferred.", []]
      | some provenance => declaredProvenanceLines sanitizer provenance

def itemLines (items : List PreparedItem) : List FaceLine :=
  if items = [] then textLines [text "_none_", []] else items.flatMap renderItem

def promotionBudgetLines (budget : Option RateLimitBudget) : List Text :=
  budget.toList.flatMap fun budget =>
    [text "## Publication allowance", [],
      text ("New publication attempts per Fellow on this problem. Private workshop work remains "
        ++ "available."), [],
      text "```json", stableStringify budget.toJson 2, text "```", []]

def omittedLine (entry : OmittedEntry) : Text :=
  match entry.detail with
  | none => text "- " ++ entry.reason
  | some detail => text "- " ++ entry.reason ++ text " — " ++ detail

def omittedLines (omitted : List OmittedEntry) : List Text :=
  if omitted = [] then [text "_none_"] else omitted.map omittedLine

def nextActionLine (action : NextAction) : Text :=
  text "- `" ++ action.method.spelling ++ text " " ++ action.url ++ text "` — " ++ action.why

def nextActionLines (actions : List NextAction) : List Text :=
  if actions = [] then [text "_none_"] else actions.map nextActionLine

def degradedLines (degraded : List Text) : List Text :=
  if degraded = [] then []
  else [text "## Degraded", []] ++ degraded.map (text "- " ++ ·) ++ [[]]

def closingLines (projection : Projection) : List Text :=
  promotionBudgetLines projection.promotionBudget ++ [text "## Omitted", []]
    ++ omittedLines projection.omitted ++ [[], text "## Next actions (server-authored)", []]
    ++ nextActionLines projection.nextActions ++ [[]] ++ degradedLines projection.degraded

def markdownFaceLines (sanitizer : Sanitizer) (prepared : PreparedProjection) : List FaceLine :=
  let projection := prepared.projection
  [.control (headerComment projection), blankLine]
    ++ textLines [text "# " ++ projection.title, [], projection.preamble, []]
    ++ textLines (statusLines projection.problemStatus ++ claimStateLines projection.claimState
      ++ provenanceLines sanitizer projection.provenance ++ [text "## Items", []])
    ++ itemLines prepared.items
    ++ [.control (trailerComment prepared), blankLine]
    ++ textLines (closingLines projection)
    ++ [.control faceEndComment]

/-- `${lines.join("\n")}\n`. -/
def joinLines (lines : List FaceLine) : Text :=
  List.intercalate [unit '\n'] (lines.map FaceLine.text) ++ [unit '\n']

def renderMarkdownFace (sanitizer : Sanitizer) (prepared : PreparedProjection) : Text :=
  joinLines (markdownFaceLines sanitizer prepared)

/-! ## The renderer's own delimiters -/

def ownComments (lines : List FaceLine) : List Text :=
  lines.filterMap fun
    | .control comment => some comment
    | .line _ => none

def ownOffsets (offset : Nat) : List FaceLine → List Nat
  | [] => []
  | .control comment :: rest => offset :: ownOffsets (offset + comment.length + 1) rest
  | .line content :: rest => ownOffsets (offset + content.length + 1) rest

/-- A reader finds the delimiters the renderer wrote, and no others. -/
def DelimitsItself (sanitizer : Sanitizer) (prepared : PreparedProjection) : Prop :=
  ownComments (markdownFaceLines sanitizer prepared)
      = [headerComment prepared.projection]
        ++ prepared.items.flatMap (fun item => [itemComment item, itemEndComment item])
        ++ [trailerComment prepared, faceEndComment]
    ∧ controlCommentOffsets sanitizer.toUnicode 0 (renderMarkdownFace sanitizer prepared)
      = ownOffsets 0 (markdownFaceLines sanitizer prepared)

end Asimposium
