import Asimposium.Render.Projection

/-!
# Envelope validation

`prepareProjection` is the one place where a projection is checked and its
untrusted bodies are neutralized. It refuses with a `RenderContractError`;
each check of the source is a function here, in the source's order.
-/

namespace Asimposium

open Text Json

inductive RenderErrorCode where
  | emptyProjectionWithoutOmission
  | untrustedFlagMismatch
  | systemItemMisflagged
  | invalidItemId
  | invalidItemKind
  | invalidCursor
  | duplicateItemId
  | invalidHeaderValue
  | invalidNextAction
  | bodyTooLarge
  | trustedBodyContainsControlMarker
  | trustedBodyContainsBacktick
  | trustedBodyUnclosedFence
deriving Repr, DecidableEq

structure RenderContractError where
  code : RenderErrorCode
  title : String
  detail : Text
  fixHint : Text
  rule : Option String
deriving DecidableEq

/-- `MAX_BODY_CODE_POINTS`. -/
def maxBodyCodePoints : Nat := 20000

/-- `throw` unless the condition holds. -/
def assertThat {ε : Type} (condition : Bool) (refusal : ε) : Except ε Unit :=
  if condition then .ok () else .error refusal

theorem assertThat_ok {ε : Type} {condition : Bool} {refusal : ε} {a : Unit} :
    assertThat condition refusal = .ok a ↔ condition = true := by
  cases condition <;> simp [assertThat]

theorem assertThat_error {ε : Type} {condition : Bool} {refusal e : ε} :
    assertThat condition refusal = .error e ↔ condition = false ∧ refusal = e := by
  cases condition <;> simp [assertThat]

/-! ## The snapshot -/

def refuseUnreadableProjection (field : String) : RenderContractError where
  code := .invalidHeaderValue
  title := "Projection data must be a readable object graph"
  detail := text (field ++ " could not be read while the renderer was taking its immutable "
    ++ "input snapshot")
  fixHint := text ("Pass plain projection data whose expected fields can each be read exactly "
    ++ "once. Do not pass throwing accessors or revocable proxies.")
  rule := some "A1"

def refuseProjectionShape (field : Text) (expected : String) : RenderContractError where
  code := .invalidHeaderValue
  title := "Projection data has an invalid runtime shape"
  detail := field ++ text (" must be " ++ expected)
  fixHint := text ("Build the projection from the shared Projection contract and pass plain "
    ++ "arrays and objects to the renderer.")
  rule := some "A1"

/-- `field[index]`. -/
def indexed (field : String) (index : Nat) : Text := text (field ++ "[") ++ decimal index ++ text "]"

/-- `field[index].member`. -/
def indexedMember (field : String) (index : Nat) (member : String) : Text :=
  indexed field index ++ text ("." ++ member)

def refusePublicViewer (viewer : PackViewer) : RenderContractError where
  code := .invalidHeaderValue
  title := "A public pack viewer may not claim membership or effective permissions"
  detail := text "a public viewer declares membership=" ++ quote viewer.membership.spelling
    ++ text " and " ++ decimal viewer.effectivePermissions.length
    ++ text (" effective permission(s); a public face has no authenticated principal, so it must "
      ++ "be none / [] and cannot report or fingerprint authority it never held")
  fixHint := text ("Compose the public pack with viewer \x7b audience: \"public\", membership: "
    ++ "\"none\", effective_permissions: [] \x7d. Authority belongs to session packs.")
  rule := some "A4"

/-- `snapshotViewer`: a public viewer claims nothing. -/
def snapshotViewer (viewer : Option PackViewer) : Except RenderContractError Unit :=
  match viewer with
  | none => .ok ()
  | some viewer =>
      assertThat (viewer.audience != .public
          || (viewer.membership == .none && viewer.effectivePermissions.isEmpty))
        (refusePublicViewer viewer)

def snapshotItems (items : List ProjectionItem) : Except RenderContractError Unit :=
  items.zipIdx.forM fun (item, index) =>
    assertThat (item.screeningNotice.isNone || item.scope == .ledger)
      (refuseProjectionShape (indexedMember "items" index "screening_notice")
        "publication metadata on a ledger item")

/-- Provenance belongs to an authenticated session pack, and is read by
its schema. -/
def snapshotProvenance (projection : Projection) :
    Except RenderContractError (Option (Option SessionProvenance)) :=
  match projection.provenance with
  | none => .ok none
  | some provenance =>
      if projection.kind ≠ text "pack" || projection.session.isNone
          || projection.viewer.map (·.audience) != some .session then
        .error (refuseUnreadableProjection "provenance requires an authenticated session pack")
      else match provenance with
      | none => .ok (some none)
      | some provenance =>
          match provenance.parse with
          | some parsed => .ok (some (some parsed))
          | none => .error (refuseUnreadableProjection "provenance")

/-- `snapshotPromotionBudget`: only the slow mode has a schema here. -/
def snapshotPromotionBudget (renderer : Renderer) (budget : Option RateLimitBudget) :
    Except RenderContractError Unit :=
  assertThat ((budget.bind (·.slowMode)).all (·.valid renderer))
    (refuseUnreadableProjection "promotion_budget.slow_mode")

def snapshotClaimState (state : Option PublicClaimState) : Except RenderContractError Unit :=
  assertThat (state.all (·.valid)) (refuseUnreadableProjection "claim_state")

/-- `kind === "problem-face"` with its schema. -/
def Projection.isProblemFace (projection : Projection) : Bool :=
  projection.kind == text "problem-face" && projection.schema == text "asimposium.problem-face.v1"

/-- A problem face, and nothing else, has a public lifecycle. -/
def snapshotProblemStatus (projection : Projection) : Except RenderContractError Unit :=
  assertThat (if projection.isProblemFace then
      projection.problemStatus.any (· != .privateDraft) else projection.problemStatus.isNone)
    (refuseUnreadableProjection "problem_status requires a public lifecycle on a problem face")

def snapshotClaimFace (projection : Projection) : Except RenderContractError Unit :=
  assertThat (projection.claimState.isNone || (projection.kind == text "claim-face"
      && projection.schema == text "asimposium.claim-face.v1"))
    (refuseUnreadableProjection "claim_state outside a claim face")

def snapshotProjection (renderer : Renderer) (projection : Projection) :
    Except RenderContractError Projection := do
  snapshotItems projection.items
  snapshotViewer projection.viewer
  let provenance ← snapshotProvenance projection
  snapshotPromotionBudget renderer projection.promotionBudget
  snapshotClaimState projection.claimState
  snapshotProblemStatus projection
  snapshotClaimFace projection
  .ok { projection with provenance }

/-! ## Strings -/

structure ProjectionString where
  field : Text
  value : Text
  /-- Interpolated as server-authored Markdown prose. -/
  rejectControlComment : Bool
  /-- `title`, `preamble` and every `why_included`. -/
  markdownInterpolated : Bool := false

def plainField (field : Text) (value : Text) : List ProjectionString :=
  [{ field, value, rejectControlComment := false }]

def proseField (field : Text) (value : Text) : List ProjectionString :=
  [{ field, value, rejectControlComment := true }]

def structuralField (field : Text) (value : Text) : List ProjectionString :=
  [{ field, value, rejectControlComment := true, markdownInterpolated := true }]

/-- `projectionStrings`. -/
def projectionStrings (projection : Projection) : List ProjectionString :=
  plainField (text "schema") projection.schema ++ plainField (text "kind") projection.kind
    ++ plainField (text "problem") projection.problem
    ++ plainField (text "profile") projection.profile
    ++ structuralField (text "title") projection.title
    ++ structuralField (text "preamble") projection.preamble
    ++ projection.session.toList.flatMap (plainField (text "session"))
    ++ projection.viewer.toList.flatMap (fun viewer =>
      plainField (text "viewer.audience") viewer.audience.spelling
        ++ plainField (text "viewer.membership") viewer.membership.spelling
        ++ viewer.effectivePermissions.zipIdx.flatMap fun (permission, index) =>
          plainField (indexed "viewer.effective_permissions" index) permission)
    ++ projection.items.zipIdx.flatMap (fun (item, index) =>
      plainField (indexedMember "items" index "kind") item.kind
        ++ plainField (indexedMember "items" index "id") item.id
        ++ plainField (indexedMember "items" index "scope") item.scope.spelling
        ++ plainField (indexedMember "items" index "body") item.body
        ++ structuralField (indexedMember "items" index "why_included") item.whyIncluded)
    ++ projection.omitted.zipIdx.flatMap (fun (entry, index) =>
      proseField (indexedMember "omitted" index "reason") entry.reason
        ++ entry.detail.toList.flatMap (proseField (indexedMember "omitted" index "detail")))
    ++ projection.nextActions.zipIdx.flatMap (fun (action, index) =>
      proseField (indexedMember "next_actions" index "method") action.method.spelling
        ++ proseField (indexedMember "next_actions" index "url") action.url
        ++ proseField (indexedMember "next_actions" index "why") action.why)
    ++ projection.degraded.zipIdx.flatMap fun (note, index) =>
      proseField (indexed "degraded" index) note

/-- `text.indexOf` of one code unit. -/
def indexOf (t : Text) (u : UInt16) : Option Nat := t.findIdx? (· == u)

def refuseSurrogate (string : ProjectionString) (offset : Nat) : RenderContractError where
  code := .invalidHeaderValue
  title := "Projection text must contain only Unicode scalar values"
  detail := string.field ++ text " contains an unpaired UTF-16 "
    ++ (if (string.value[offset]?).all (· ≤ 0xdbff) then text "high" else text "low")
    ++ text " surrogate at code-unit offset " ++ decimal offset
    ++ text ("; encoding would replace it before the renderer could fingerprint or project the "
      ++ "original text")
  fixHint := text ("Replace the lone surrogate with a Unicode scalar value. Astral characters are "
    ++ "valid only as their complete high-surrogate/low-surrogate pair.")
  rule := some "A1"

def refuseNul (string : ProjectionString) (offset : Nat) : RenderContractError where
  code := .invalidHeaderValue
  title := "Projection text must be representable identically in every face"
  detail := string.field ++ text " contains U+0000 at code-unit offset " ++ decimal offset
    ++ text ("; an HTML parser would replace it and disagree with the canonical JSON and "
      ++ "Markdown faces")
  fixHint := text ("Remove the NUL character. Use ordinary Unicode scalar values and line breaks "
    ++ "for textual content.")
  rule := some "A1"

def refuseControlComment (string : ProjectionString) : RenderContractError where
  code := .invalidHeaderValue
  title := "Server-authored Markdown may not contain renderer control comments"
  detail := string.field ++ text (" contains an ASImposium control comment; only the renderer may "
    ++ "author <!-- asimp … --> face and item delimiters")
  fixHint := text ("Keep this server-authored field as ordinary Markdown prose and remove the "
    ++ "<!-- asimp … --> comment. The renderer adds its own structural delimiters.")
  rule := some "A1"

def refuseBacktick (string : ProjectionString) (offset : Nat) : RenderContractError where
  code := .invalidHeaderValue
  title := "Server-authored Markdown prose may not contain backticks"
  detail := string.field ++ text " contains a backtick at code-unit offset " ++ decimal offset
    ++ text ("; in the markdown face it would open or close CommonMark code structure around "
      ++ "prose the renderer authors")
  fixHint := text ("Write this server-authored field as ordinary prose without backticks; "
    ++ "untrusted item bodies are fenced automatically and may contain them.")
  rule := some "A1"

/-- Every string is made of scalar values, and none is NUL. -/
def assertScalar (string : ProjectionString) : Except RenderContractError Unit :=
  match firstUnpairedUtf16SurrogateOffset string.value with
  | some offset => .error (refuseSurrogate string offset)
  | none =>
      match indexOf string.value 0 with
      | some offset => .error (refuseNul string offset)
      | none => .ok ()

/-- Prose holds no control comment, and no backtick where it shapes the
face. -/
def assertProse (unicode : Unicode) (string : ProjectionString) :
    Except RenderContractError Unit :=
  if !string.rejectControlComment then .ok ()
  else if hasAsimpControlComment unicode string.value then .error (refuseControlComment string)
  else if !string.markdownInterpolated then .ok ()
  else match indexOf string.value (unit '`') with
  | some offset => .error (refuseBacktick string offset)
  | none => .ok ()

def validateProjectionStrings (unicode : Unicode) (projection : Projection) :
    Except RenderContractError Unit := do
  (projectionStrings projection).forM assertScalar
  (projectionStrings projection).forM (assertProse unicode)

/-! ## The envelope -/

def refuseEmpty : RenderContractError where
  code := .emptyProjectionWithoutOmission
  title := "An empty projection with an empty omitted[] is a bug"
  detail := text "projection.items and projection.omitted are both empty"
  fixHint := text ("Record why the projection is empty, e.g. omitted: [\x7breason: "
    ++ "\"no_membership\"\x7d].")
  rule := some "A1"

def assertNotEmpty (projection : Projection) : Except RenderContractError Unit :=
  assertThat (!(projection.items.isEmpty && projection.omitted.isEmpty)) refuseEmpty

def refuseCursor (cursor : Int) : RenderContractError where
  code := .invalidCursor
  title := "The cursor must be a non-negative safe integer"
  detail := text "cursor " ++ ofInt cursor
    ++ text (" is not a non-negative safe integer; NaN and Infinity render as \"NaN\"/\"Infinity\" "
      ++ "in markdown but as null in JSON, and values past 9007199254740991 round silently")
  fixHint := text ("Pass the per-scope sequence number the event log assigned (0 or greater). If "
    ++ "no events exist yet the cursor is 0, never null or -1.")
  rule := some "A6"

def assertCursor (projection : Projection) : Except RenderContractError Unit :=
  assertThat (isSafeInteger projection.cursor && 0 ≤ projection.cursor)
    (refuseCursor projection.cursor)

def refusePartialMetadata : RenderContractError where
  code := .invalidHeaderValue
  title := "Budgeted pack metadata is an all-or-none contract"
  detail := text ("session, budget_tokens, and tokens_estimate must either all be present or all be "
    ++ "absent; a partial tuple makes the faces disagree about what was budgeted")
  fixHint := text ("Supply the complete composer tuple, or omit all three fields for a "
    ++ "non-budgeted projection.")
  rule := some "A1"

def refuseBudget (budget : Int) : RenderContractError where
  code := .invalidHeaderValue
  title := "Pack budget must be a positive safe integer"
  detail := text "budget_tokens " ++ ofInt budget
    ++ text " cannot be rendered as honest pack metadata"
  fixHint := text "Use the positive fixed bucket selected by the pack composer."
  rule := some "A1"

def refuseEstimate (estimate budget : Int) : RenderContractError where
  code := .invalidHeaderValue
  title := "Pack token estimate must fit its declared budget"
  detail := text "tokens_estimate " ++ ofInt estimate
    ++ text " must be a positive safe integer no greater than budget_tokens " ++ ofInt budget
  fixHint := text ("Recompute the complete semantic-pack estimate and select a large enough fixed "
    ++ "budget bucket.")
  rule := some "A1"

/-- The projection carries `session`, `budget_tokens` and
`tokens_estimate`. -/
def Projection.hasPackMetadata (projection : Projection) : Bool :=
  projection.session.isSome && projection.budgetTokens.isSome && projection.tokensEstimate.isSome

def assertPackMetadata (projection : Projection) : Except RenderContractError Unit :=
  match projection.session, projection.budgetTokens, projection.tokensEstimate with
  | none, none, none => .ok ()
  | some _, some budget, some estimate => do
      assertThat (isSafeInteger budget && 1 ≤ budget) (refuseBudget budget)
      assertThat (isSafeInteger estimate && 1 ≤ estimate && estimate ≤ budget)
        (refuseEstimate estimate budget)
  | _, _, _ => .error refusePartialMetadata

def refuseHeader (field value : Text) : RenderContractError where
  code := .invalidHeaderValue
  title := "Envelope metadata may not break the face header grammar"
  detail := field ++ text " " ++ quote value
    ++ text (" is not a control token: whitespace and '=' make the k=v header ambiguous, and '<', "
      ++ "'>' or '--' can close the comment outright")
  fixHint := text ("Envelope metadata is server-authored. Use the boring vocabulary the faces "
    ++ "already use — asimposium.pack.v1, pack, demo-bounded-sums, working — and fix the composer "
    ++ "rather than escaping the value here.")
  rule := some "A1"

def Projection.headerValues (projection : Projection) : List (Text × Text) :=
  [(text "schema", projection.schema), (text "kind", projection.kind),
    (text "problem", projection.problem), (text "profile", projection.profile)]
    ++ projection.session.toList.map fun session => (text "session", session)

def assertHeaders (projection : Projection) : Except RenderContractError Unit :=
  projection.headerValues.forM fun (field, value) =>
    assertThat (isSafeHeaderValue value) (refuseHeader field value)

def refuseActionUrl (index : Nat) : RenderContractError where
  code := .invalidNextAction
  title := "next_actions URLs must target a safe origin-relative Worker path"
  detail := indexedMember "next_actions" index "url"
    ++ text (" must be a safe origin-relative a.asimposium.org path without credentials, a "
      ++ "fragment, traversal, percent-encoded pathname segments, backslashes, backticks, ASCII "
      ++ "controls, or an external scheme")
  fixHint := text ("Use a Worker path such as /, /cursor, /p/claim.md, or "
    ++ "/v1/sessions/SES-1/pack?profile=working. Do not use //, an external or javascript: URL, "
    ++ "credentials, a fragment, traversal, percent-encoded pathname segments, backslashes, "
    ++ "backticks, or ASCII control characters.")
  rule := none

def assertNextActions (actions : List NextAction) : Except RenderContractError Unit :=
  actions.zipIdx.forM fun (action, index) =>
    assertThat (isSafeWorkerPath action.url) (refuseActionUrl index)

/-! ## Items -/

def refuseItemId (id : Text) : RenderContractError where
  code := .invalidItemId
  title := "Item ids are problem-scoped public ids and safe control tokens"
  detail := text "item id " ++ quote id
    ++ text (" does not match ^[A-Za-z0-9][A-Za-z0-9@#._-]\x7b0,63\x7d$ or contains a sequence "
      ++ "that is illegal in an HTML control comment")
  fixHint := text ("Use the public id grammar without consecutive hyphens: C-12, H-3@2, "
    ++ "W-fermat-descent-01.")
  rule := some "A1"

def refuseDuplicateId (id : Text) : RenderContractError where
  code := .duplicateItemId
  title := "One projection cannot carry the same id twice"
  detail := text "item id " ++ quote id ++ text " appears more than once"
  fixHint := text ("Deduplicate in the composer; a face with two items of one id cannot be "
    ++ "reconciled with the log.")
  rule := some "A6"

def refuseTokensPresence (item : ProjectionItem) (hasPackMetadata : Bool) :
    RenderContractError where
  code := .invalidHeaderValue
  title := "Pack item estimates must match the pack metadata tuple"
  detail := text "item " ++ item.id ++ text " "
    ++ (if item.tokens.isNone then text "omits tokens while the projection declares a pack budget"
      else text "declares tokens without session, budget_tokens, and tokens_estimate")
  fixHint := if hasPackMetadata then
      text "Preserve the composer's whole-item tokens estimate on every selected item."
    else text ("Either remove the item tokens field or provide the complete budgeted-pack metadata "
      ++ "tuple.")
  rule := some "A1"

def refuseTokens (item : ProjectionItem) (tokens : Int) : RenderContractError where
  code := .invalidHeaderValue
  title := "Pack item tokens must be a positive safe integer"
  detail := text "item " ++ item.id ++ text " declares tokens " ++ ofInt tokens
  fixHint := text "Preserve the positive whole-item estimate emitted by the pack composer."
  rule := some "A1"

def refuseTokenTotal (item : ProjectionItem) : RenderContractError where
  code := .invalidHeaderValue
  title := "Pack item token totals must remain safe integers"
  detail := text "item token accumulation overflowed at item " ++ item.id
  fixHint := text "Use bounded item estimates and a supported fixed pack budget."
  rule := some "A1"

def refuseBody (item : ProjectionItem) (neutralized : Bool) : RenderContractError where
  code := .bodyTooLarge
  title := "An item body exceeds the renderer's 20,000-character contract"
  detail := text "item " ++ item.id ++ text " contains at least "
    ++ decimal (maxBodyCodePoints + 1) ++ text " Unicode code points"
    ++ (if neutralized then text " after neutralization" else [])
    ++ text "; body_md is limited to " ++ decimal maxBodyCodePoints
  fixHint := text "Keep body_md at 20,000 Unicode code points or fewer"
    ++ (if neutralized then text " after renderer neutralization" else [])
    ++ text ". An astral character such as " ++ [0xd83d, 0xde00]
    ++ text " counts as one character, not two UTF-16 units or four UTF-8 bytes."
  rule := some "A1"

def refuseItemKind (item : ProjectionItem) : RenderContractError where
  code := .invalidItemKind
  title := "Item kind may not break the item delimiter grammar"
  detail := text "item " ++ item.id ++ text " declares kind " ++ quote item.kind
    ++ text (", which is not a control token: whitespace and '=' make the k=v delimiter ambiguous, "
      ++ "and '<', '>' or '--' can close it outright")
  fixHint := text ("Use the object vocabulary the ledger already uses — claim, evidence, review, "
    ++ "hypothesis, dead-end, move, warning, handback, workshop-note.")
  rule := some "A1"

def refuseUntrustedFlag (item : ProjectionItem) : RenderContractError where
  code := .untrustedFlagMismatch
  title := "Only system items may be marked trusted"
  detail := text "item " ++ item.id ++ text " has scope " ++ item.scope.spelling
    ++ text " and untrusted:false"
  fixHint := text ("Set untrusted:true. System items are the only instruction channel; ledger and "
    ++ "workshop bodies are data.")
  rule := some "A2"

def refuseSystemFlag (item : ProjectionItem) : RenderContractError where
  code := .systemItemMisflagged
  title := "System items are server-authored and are not untrusted"
  detail := text "item " ++ item.id ++ text " has scope system and untrusted:true"
  fixHint := text "Set untrusted:false on system items, or give the item its real scope."
  rule := some "A2"

def refuseTrustedComment (item : ProjectionItem) : RenderContractError where
  code := .trustedBodyContainsControlMarker
  title := "Trusted system Markdown may not contain renderer control comments"
  detail := text "item " ++ item.id
    ++ text (" contains an asimp control comment inside a trusted body; only the renderer may emit "
      ++ "face and item delimiters")
  fixHint := text ("Keep the system instruction as ordinary Markdown and remove the <!-- asimp … "
    ++ "--> comment. The renderer adds its own structural delimiters around the item.")
  rule := some "A1"

def refuseTrustedBacktick (item : ProjectionItem) (offset : Nat) : RenderContractError where
  code := .trustedBodyContainsBacktick
  title := "Trusted system Markdown may not contain backticks"
  detail := text "item " ++ item.id ++ text " contains a backtick at code-unit offset "
    ++ decimal offset
    ++ text ("; in the markdown face a trusted body renders raw, where it would open or close "
      ++ "CommonMark code structure around prose the renderer authors")
  fixHint := text ("Write the system instruction as ordinary Markdown prose without backticks. "
    ++ "Untrusted item bodies are fenced automatically and may contain them.")
  rule := some "A1"

def refuseTrustedFence (item : ProjectionItem) (offset : Nat) : RenderContractError where
  code := .trustedBodyUnclosedFence
  title := "Trusted system Markdown may not leave a code fence open"
  detail := text "item " ++ item.id ++ text " opens a fenced code block at code-unit offset "
    ++ decimal offset
    ++ text (" that no later line closes; interpolated raw into the markdown face, that fence "
      ++ "swallows every following line — the item-end delimiter, the trailer, and face-end — "
      ++ "corrupting the canonical agent face")
  fixHint := text ("Close the tilde-fenced code block inside this system instruction, or ship the "
    ++ "example as an untrusted ledger item that the renderer fences automatically.")
  rule := some "A1"

/-- `codePointCountThroughLimit(body, MAX) > MAX`. -/
def exceedsBodyLimit (body : Text) : Bool :=
  decide (maxBodyCodePoints < codePointCountThroughLimit body maxBodyCodePoints)

/-- What the faces may show of a trusted body: all of it. -/
def assertTrustedBody (unicode : Unicode) (item : ProjectionItem) :
    Except RenderContractError Unit := do
  assertThat (!hasAsimpControlComment unicode item.body) (refuseTrustedComment item)
  match indexOf item.body (unit '`') with
  | some offset => .error (refuseTrustedBacktick item offset)
  | none =>
      match unclosedFenceOffset item.body with
      | some offset => .error (refuseTrustedFence item offset)
      | none => .ok ()

/-- The findings of an untrusted body, with the fence the Markdown face
will give it. -/
def bodyFindings (body : NeutralizedBody) : List NeutralizationFinding :=
  if (fenceFor body.text).extended then body.findings ++ [⟨.fenceExtended, 1⟩] else body.findings

def prepareItem (sanitizer : Sanitizer) (item : ProjectionItem) :
    Except RenderContractError PreparedItem := do
  assertThat (!exceedsBodyLimit item.body) (refuseBody item false)
  assertThat (isSafeHeaderValue item.kind) (refuseItemKind item)
  assertThat (item.scope == .system || item.untrusted) (refuseUntrustedFlag item)
  assertThat (item.scope != .system || !item.untrusted) (refuseSystemFlag item)
  let prepared : PreparedItem :=
    { kind := item.kind, id := item.id, scope := item.scope, untrusted := item.untrusted
      whyIncluded := item.whyIncluded, tokens := item.tokens, screeningNotice := none
      body := item.body, neutralized := [] }
  if item.untrusted then do
    let result := neutralizeUntrustedBody sanitizer item.body
    assertThat (!exceedsBodyLimit result.text) (refuseBody item true)
    .ok { prepared with
      screeningNotice := item.screeningNotice
      body := result.text
      neutralized := bodyFindings result }
  else do
    assertTrustedBody sanitizer.toUnicode item
    .ok prepared

def addTokens (hasPackMetadata : Bool) (total : Int) (item : ProjectionItem) :
    Except RenderContractError Int := do
  assertThat (hasPackMetadata == item.tokens.isSome) (refuseTokensPresence item hasPackMetadata)
  match item.tokens with
  | none => .ok total
  | some tokens => do
      assertThat (isSafeInteger tokens && 1 ≤ tokens) (refuseTokens item tokens)
      assertThat (isSafeInteger (total + tokens)) (refuseTokenTotal item)
      .ok (total + tokens)

/-- The loop over the items: the ids seen and the total so far go in, the
prepared items and the whole total come out. -/
def prepareItems (sanitizer : Sanitizer) (hasPackMetadata : Bool) :
    List Text → Int → List ProjectionItem → Except RenderContractError (List PreparedItem × Int)
  | _, total, [] => .ok ([], total)
  | seen, total, item :: rest => do
      assertThat (isItemId item.id && isSafeHeaderValue item.id) (refuseItemId item.id)
      assertThat (!seen.contains item.id) (refuseDuplicateId item.id)
      let total ← addTokens hasPackMetadata total item
      let prepared ← prepareItem sanitizer item
      let (items, total) ← prepareItems sanitizer hasPackMetadata (item.id :: seen) total rest
      .ok (prepared :: items, total)

def refuseItemTotal (total estimate : Int) : RenderContractError where
  code := .invalidHeaderValue
  title := "Pack item estimates exceed the complete pack estimate"
  detail := text "selected items total " ++ ofInt total ++ text " tokens but tokens_estimate is "
    ++ ofInt estimate
  fixHint := text ("Recompute tokens_estimate from the complete semantic envelope and every "
    ++ "selected item.")
  rule := some "A1"

def assertItemTotal (projection : Projection) (total : Int) : Except RenderContractError Unit :=
  match projection.tokensEstimate with
  | some estimate => assertThat (!projection.hasPackMetadata || total ≤ estimate)
      (refuseItemTotal total estimate)
  | none => .ok ()

def itemReports (item : PreparedItem) : List NeutralizationReport :=
  item.neutralized.map fun finding =>
    { itemId := item.id, marker := finding.marker, count := finding.count }

def prepareProjection (renderer : Renderer) (rawProjection : Projection) :
    Except RenderContractError PreparedProjection := do
  let projection ← snapshotProjection renderer rawProjection
  validateProjectionStrings renderer.toUnicode projection
  assertNotEmpty projection
  assertCursor projection
  assertPackMetadata projection
  assertHeaders projection
  assertNextActions projection.nextActions
  let (items, total) ← prepareItems renderer.toSanitizer projection.hasPackMetadata [] 0
    projection.items
  assertItemTotal projection total
  .ok
    { projection, items
      fingerprint := contentFingerprint (fingerprintSource projection items)
      neutralized := items.flatMap itemReports }

end Asimposium
