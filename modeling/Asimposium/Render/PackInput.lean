import Asimposium.Render.Prepare

/-!
# What a pack composer admits

The composer validates its input before it selects anything, and refuses
with an error of its own. The functions here are its assertions, in the
source's order of checks.

A public pack has no principal: workshop candidates, writes and reads that
are not public are passed over before anything else of them is looked at.
-/

namespace Asimposium

open Text Json

/-! ## Failures -/

inductive PackComposerErrorCode where
  | invalidInput
  | invalidBudget
  | invalidCandidate
  | invalidAction
  | duplicateItemId
  | mandatoryOverheadExceedsBudget
deriving Repr, DecidableEq

structure PackComposerError where
  code : PackComposerErrorCode
  detail : Text
deriving Repr, DecidableEq

/-- How a composition ends without a pack: the composer refuses, the
renderer refuses what the composer handed to it, or a loop of the composer
does not settle. -/
inductive PackFailure where
  | refused (error : PackComposerError)
  | unrenderable (error : RenderContractError)
  | unsettled
deriving DecidableEq

def refuse (code : PackComposerErrorCode) (detail : Text) : PackFailure :=
  .refused { code, detail }

/-! ## Input -/

structure ComposedSection where
  profile : Text
  name : Text
deriving Repr, DecidableEq

structure PackCandidate where
  kind : Text
  id : Text
  scope : ItemScope
  /-- A planning estimate of the caller for the whole item. -/
  tokens : Int
  untrusted : Bool
  body : Text
  whyIncluded : Text
  screeningNotice : Option ScreeningPublicationNotice
  stablePrefix : Int
  requires : Option (List Text)
  composedSection : Option ComposedSection
deriving Repr, DecidableEq

structure PackActionCandidate extends NextAction where
  publicRead : Bool
  requires : Option (List Text)
deriving Repr, DecidableEq

structure PackComposerInput where
  schema : Text
  session : Text
  provenance : Option (Option SessionProvenance)
  problem : Text
  profile : Text
  cursor : Int
  requestedMaxTokens : Int
  viewer : PackViewer
  candidates : List PackCandidate
  actionCandidates : List PackActionCandidate
  omitted : Option (List OmittedEntry)
  degraded : Option (List Text)
  promotionBudget : Option RateLimitBudget
deriving DecidableEq

/-! ## Texts -/

def assertScalarText (value field : Text) : Except PackFailure Text :=
  if value = [] then .error (refuse .invalidInput (field ++ text " must be a non-empty string"))
  else match firstUnpairedUtf16SurrogateOffset value with
  | some offset =>
      .error (refuse .invalidInput
        (field ++ text " contains an unpaired UTF-16 surrogate at " ++ decimal offset))
  | none =>
      if value.contains 0 then .error (refuse .invalidInput (field ++ text " contains U+0000"))
      else .ok value

def refuseBodyLimit (neutralized : Bool) : PackFailure :=
  refuse .invalidCandidate (text "candidate body exceeds the renderer's "
    ++ decimal maxBodyCodePoints ++ text "-code-point limit"
    ++ if neutralized then text " after renderer neutralization" else [])

/-- A body is bounded as it is given and as the renderer will show it. -/
def assertCandidateBody (sanitizer : Sanitizer) (value field : Text) : Except PackFailure Text :=
  if value = [] then .error (refuse .invalidInput (field ++ text " must be a non-empty string"))
  else if exceedsBodyLimit value then .error (refuseBodyLimit false)
  else match firstUnpairedUtf16SurrogateOffset value with
  | some offset =>
      .error (refuse .invalidInput
        (field ++ text " contains an unpaired UTF-16 surrogate at " ++ decimal offset))
  | none =>
      if value.contains 0 then
        .error (refuse .invalidCandidate (field ++ text " contains U+0000"))
      else if exceedsBodyLimit (neutralizeUntrustedBody sanitizer value).text then
        .error (refuseBodyLimit true)
      else .ok value

def assertHeaderToken (value field : Text) : Except PackFailure Text := do
  let value ← assertScalarText value field
  assertThat (isSafeHeaderValue value) (refuse .invalidInput (field
    ++ text " must be a safe control-header token without whitespace, '=', '<', '>', or '--'"))
  .ok value

def assertTokenEstimate (value : Int) (field : Text) : Except PackFailure Int := do
  assertThat (isSafeInteger value && 1 ≤ value)
    (refuse .invalidCandidate (field ++ text " must be a positive safe integer"))
  .ok value

def assertStablePrefix (value : Int) (field : Text) : Except PackFailure Int := do
  assertThat (isSafeInteger value && 0 ≤ value)
    (refuse .invalidCandidate (field ++ text " must be a non-negative safe integer"))
  .ok value

/-- `[...new Set(texts)].sort(compareText)`. -/
def sortedSet (texts : List Text) : List Text :=
  texts.eraseDups.insertionSort fun left right => Text.le left right

/-- `field[index]`, below any field. -/
def element (field : Text) (index : Nat) : Text := field ++ text "[" ++ decimal index ++ text "]"

def assertPermissionList (value : List Text) (field : Text) : Except PackFailure (List Text) := do
  value.zipIdx.forM fun (permission, index) =>
    (assertScalarText permission (element field index)).map fun _ => ()
  .ok (sortedSet value)

def assertOptionalPermissionList (value : Option (List Text)) (field : Text) :
    Except PackFailure (List Text) :=
  match value with
  | none => .ok []
  | some value => assertPermissionList value field

/-- `assertViewer`: what is left of the checks is that of the permissions,
which come back sorted. -/
def assertViewer (viewer : PackViewer) : Except PackFailure PackViewer := do
  let effectivePermissions ← assertPermissionList viewer.effectivePermissions
    (text "viewer.effective_permissions")
  .ok { viewer with effectivePermissions }

/-! ## Candidates -/

structure ValidatedCandidate where
  value : PackCandidate
  requires : List Text
deriving Repr, DecidableEq

def assertComposedSection (value : Option ComposedSection) (scope : ItemScope) (kind : Text) :
    Except PackFailure (Option ComposedSection) :=
  match value with
  | none => .ok none
  | some declared => do
      assertThat (scope == .system && kind == text "standing-context") (refuse .invalidCandidate
        (text "only a system standing-context may declare a composed section"))
      assertThat (isSectionToken declared.profile && isSectionToken declared.name)
        (refuse .invalidCandidate
          (text "composed_section requires exact bounded profile and name tokens"))
      .ok (some declared)

/-- `candidates[index].member`. -/
def candidateField (index : Nat) (member : String) : Text := indexedMember "candidates" index member

/-- The identity of a candidate: safe, new, and marked as its scope asks. -/
def assertIdentity (seen : List Text) (index : Nat) (candidate : PackCandidate) :
    Except PackFailure Unit := do
  let id ← assertScalarText candidate.id (candidateField index "id")
  assertThat (isItemId id && isSafeHeaderValue id) (refuse .invalidCandidate (text "candidate id "
    ++ quote id ++ text (" does not match ^[A-Za-z0-9][A-Za-z0-9@#._-]\x7b0,63\x7d$ or contains a "
      ++ "sequence that is illegal in an HTML control comment")))
  assertThat (!seen.contains id)
    (refuse .duplicateItemId (text "candidate id " ++ quote id ++ text " appears twice"))
  assertThat ((candidate.scope == .system) == !candidate.untrusted) (refuse .invalidCandidate
    (text "candidate " ++ id
      ++ text " violates the system-item trust boundary (system iff untrusted is false)"))

/-- The kind and the inclusion reason, which the faces interpolate. -/
def assertEnvelope (unicode : Unicode) (index : Nat) (candidate : PackCandidate) :
    Except PackFailure Unit := do
  let kind ← assertScalarText candidate.kind (candidateField index "kind")
  assertThat (isSafeHeaderValue kind) (refuse .invalidCandidate
    (text "candidate kind " ++ quote kind ++ text " is not a safe control-header token"))
  let whyIncluded ← assertScalarText candidate.whyIncluded (candidateField index "why_included")
  assertThat (!hasAsimpControlComment unicode whyIncluded) (refuse .invalidCandidate
    (candidateField index "why_included" ++ text (" contains an ASImposium control comment; only "
      ++ "the renderer may author <!-- asimp … --> delimiters")))
  assertThat (!whyIncluded.contains (unit '`')) (refuse .invalidCandidate
    (candidateField index "why_included" ++ text (" contains a backtick; write the inclusion "
      ++ "reason as ordinary prose")))

def assertBody (sanitizer : Sanitizer) (index : Nat) (candidate : PackCandidate) :
    Except PackFailure Unit := do
  let body ← assertCandidateBody sanitizer candidate.body (candidateField index "body")
  assertThat (candidate.untrusted || !hasAsimpControlComment sanitizer.toUnicode body)
    (refuse .invalidCandidate (text "candidate " ++ candidate.id
      ++ text (" trusted body contains an ASImposium control comment; only the renderer may author "
        ++ "<!-- asimp … --> delimiters")))
  assertThat (candidate.untrusted || !body.contains (unit '`'))
    (refuse .invalidCandidate (text "candidate " ++ candidate.id
      ++ text (" trusted body contains a backtick; write the system instruction as ordinary "
        ++ "prose")))
  assertThat (candidate.untrusted || (unclosedFenceOffset body).isNone)
    (refuse .invalidCandidate (text "candidate " ++ candidate.id
      ++ text (" trusted body opens a fenced code block that no later line closes; write the "
        ++ "system instruction with its tilde fences closed")))

def assertCandidate (sanitizer : Sanitizer) (seen : List Text) (index : Nat)
    (candidate : PackCandidate) : Except PackFailure ValidatedCandidate := do
  assertIdentity seen index candidate
  assertEnvelope sanitizer.toUnicode index candidate
  assertBody sanitizer index candidate
  let composedSection ← assertComposedSection candidate.composedSection candidate.scope
    candidate.kind
  assertThat (candidate.screeningNotice.isNone || candidate.scope == .ledger)
    (refuse .invalidCandidate
      (text "candidate " ++ candidate.id ++ text " has invalid public screening metadata"))
  let tokens ← assertTokenEstimate candidate.tokens (candidateField index "tokens")
  let stablePrefix ← assertStablePrefix candidate.stablePrefix
    (candidateField index "stable_prefix")
  let requires ← assertOptionalPermissionList candidate.requires (candidateField index "requires")
  .ok { value := { candidate with composedSection, tokens, stablePrefix, requires := none }
        requires }

def isPassedOver (audience : PackAudience) (candidate : PackCandidate) : Bool :=
  audience == .public && candidate.scope == .workshop

/-- The loop over the candidates: the ids seen so far and the index. -/
def assertCandidatesFrom (sanitizer : Sanitizer) (audience : PackAudience) :
    List Text → Nat → List PackCandidate → Except PackFailure (List ValidatedCandidate)
  | _, _, [] => .ok []
  | seen, index, candidate :: rest =>
      if isPassedOver audience candidate then
        assertCandidatesFrom sanitizer audience seen (index + 1) rest
      else do
        let validated ← assertCandidate sanitizer seen index candidate
        let others ← assertCandidatesFrom sanitizer audience (candidate.id :: seen) (index + 1) rest
        .ok (validated :: others)

/-- `compareText(left, right) || …` as a chain of comparisons. -/
def thenLe (left right : Text) (next : Bool) : Bool :=
  if left = right then next else Text.le left right

def candidateLe (left right : ValidatedCandidate) : Bool :=
  if left.value.stablePrefix = right.value.stablePrefix then
    thenLe left.value.kind right.value.kind (Text.le left.value.id right.value.id)
  else decide (left.value.stablePrefix < right.value.stablePrefix)

def assertCandidates (sanitizer : Sanitizer) (audience : PackAudience)
    (candidates : List PackCandidate) : Except PackFailure (List ValidatedCandidate) := do
  let validated ← assertCandidatesFrom sanitizer audience [] 0 candidates
  .ok (validated.insertionSort fun left right => candidateLe left right)

/-! ## Actions -/

structure ValidatedAction where
  value : NextAction
  requires : List Text
deriving Repr, DecidableEq

structure ValidatedActions where
  values : List ValidatedAction
  publicWriteActionsExcluded : Nat
  publicNonreadActionsExcluded : Nat
deriving Repr, DecidableEq

/-- One action that is advertised if its permissions allow. -/
def assertAction (index : Nat) (action : PackActionCandidate) :
    Except PackFailure ValidatedAction := do
  let url ← assertScalarText action.url (indexedMember "action_candidates" index "url")
  assertThat (isSafeWorkerPath url) (refuse .invalidAction
    (indexedMember "action_candidates" index "url"
      ++ text " must be a safe origin-relative Worker path"))
  let why ← assertScalarText action.why (indexedMember "action_candidates" index "why")
  let requires ← assertOptionalPermissionList action.requires
    (indexedMember "action_candidates" index "requires")
  .ok { value := { method := action.method, url, why }, requires }

/-- The loop over the actions. A public pack counts writes and reads that
are not public, and reads nothing else of them. -/
def assertActionsFrom (audience : PackAudience) :
    Nat → List PackActionCandidate → Except PackFailure ValidatedActions
  | _, [] => .ok { values := [], publicWriteActionsExcluded := 0, publicNonreadActionsExcluded := 0 }
  | index, action :: rest =>
      if audience == .public && action.method == .POST then do
        let others ← assertActionsFrom audience (index + 1) rest
        .ok { others with publicWriteActionsExcluded := others.publicWriteActionsExcluded + 1 }
      else if audience == .public && !action.publicRead then do
        let others ← assertActionsFrom audience (index + 1) rest
        .ok { others with publicNonreadActionsExcluded := others.publicNonreadActionsExcluded + 1 }
      else do
        let validated ← assertAction index action
        let others ← assertActionsFrom audience (index + 1) rest
        .ok { others with values := validated :: others.values }

def actionLe (left right : ValidatedAction) : Bool :=
  thenLe left.value.method.spelling right.value.method.spelling
    (thenLe left.value.url right.value.url (Text.le left.value.why right.value.why))

def assertActions (audience : PackAudience) (actions : List PackActionCandidate) :
    Except PackFailure ValidatedActions := do
  let validated ← assertActionsFrom audience 0 actions
  .ok { validated with
    values := validated.values.insertionSort fun left right => actionLe left right }

/-! ## Notes and omissions -/

def assertDegraded (value : Option (List Text)) : Except PackFailure (List Text) :=
  match value with
  | none => .ok []
  | some notes => do
      notes.zipIdx.forM fun (note, index) =>
        (assertScalarText note (indexed "degraded" index)).map fun _ => ()
      .ok (sortedSet notes)

def assertOmission (index : Nat) (entry : OmittedEntry) : Except PackFailure Unit := do
  let _ ← assertScalarText entry.reason (indexedMember "omitted" index "reason")
  match entry.detail with
  | none => .ok ()
  | some detail => do
      let _ ← assertScalarText detail (indexedMember "omitted" index "detail")
      .ok ()

def omissionLe (left right : OmittedEntry) : Bool :=
  thenLe left.reason right.reason (Text.le (left.detail.getD []) (right.detail.getD []))

def assertDeclaredOmissions (value : Option (List OmittedEntry)) :
    Except PackFailure (List OmittedEntry) :=
  match value with
  | none => .ok []
  | some entries => do
      entries.zipIdx.forM fun (entry, index) => assertOmission index entry
      .ok (entries.insertionSort fun left right => omissionLe left right)

/-! ## Budgets -/

/-- `PACK_BUDGET_BUCKETS`. -/
def packBudgetBuckets : List Nat := [800, 1500, 2500, 4000, 8000]

def bucketizePackBudget (requestedMaxTokens : Int) : Except PackFailure Nat := do
  assertThat (isSafeInteger requestedMaxTokens && 1 ≤ requestedMaxTokens)
    (refuse .invalidBudget (text "requested_max_tokens must be a positive safe integer"))
  match packBudgetBuckets.find? fun (bucket : Nat) => requestedMaxTokens ≤ bucket with
  | some bucket => .ok bucket
  | none => .error (refuse .invalidBudget
      (text "requested_max_tokens exceeds the largest supported bucket (8000)"))

end Asimposium
