import Asimposium.Directives.Contract
import Mathlib.Data.List.Sort

/-!
# The read of active directives

`readActiveDirectivePage`: one statement selects the live authority, the
snapshot, the focus and a page of the continuing forbids, and the code turns
its rows into a response. The cursor is a digest of the credential and the
query, the largest sequence number of the snapshot, and that of the last
forbid that was served.

Tables with a primary key are functions of it. SHA-256, the spelling of
numbers and `json_extract` are a `Platform`'s.
-/

namespace Asimposium.Directives

open Codec (Number Value stringify)
open Text (decimal)
open Search (isHex64)

/-! ## Tables -/

/-- What the authority rule extracts from `granted_resources_json`, under
both spellings of its keys. -/
structure Resources where
  fellowGrantExpiresAt : Option Int
  fellow_grant_expires_at : Option Int
  problemBinding : Option Text
  problem_binding : Option Text

structure Platform (F : Type) where
  format : Codec.FloatFormat F
  /-- An integer as a number. -/
  number : Int → Number F
  /-- The hexadecimal SHA-256 of a text's UTF-8. -/
  sha256Hex : Text → Text
  resources : Text → Resources

structure Platform.Lawful {F : Type} (π : Platform F) : Prop where
  format : π.format.Lawful
  finite : ∀ n, (π.number n).isFinite = true
  number : ∀ m n, isSafeInteger m = true → isSafeInteger n = true →
    (π.number m).unsigned = (π.number n).unsigned → m = n
  hex : ∀ t, isHex64 (π.sha256Hex t) = true

/-- `enrollment_fellows`. -/
structure Fellow where
  sponsorId : Text
  status : Text

/-- `fellow_tokens`. -/
structure Token where
  fellowId : Text
  sponsorId : Text
  tokenHash : Text
  grantedScopesJson : Text
  grantedResourcesJson : Text
  credentialProfile : Text
  issuedAt : Int
  expiresAt : Int
  revokedAt : Option Int

/-- `enrollment_grants`. -/
structure Grant where
  sponsorId : Text
  grantedScopesJson : Text
  grantedResourcesJson : Text
  grantedAt : Int

/-- `problems`. -/
structure Problem where
  status : Text
  sponsorId : Option Text
  createdByFellowId : Option Text

/-- `fellow_inbox_notices`. -/
structure Notice where
  fellowId : Text
  problemId : Option Text
  noticeType : Text
  seq : Nat
  targetId : Option Text
  acknowledgedAt : Option Int
deriving DecidableEq

/-- `sponsor_directives`. -/
structure Directive where
  id : Text
  sponsorId : Text
  fellowId : Text
  problemId : Option Text
  verb : Verb
  body : Option Text
  noticeId : Text
  createdAt : Int
deriving DecidableEq

structure Db where
  fellows : Text → Option Fellow
  tokens : Text → Option Token
  /-- by the Fellow, which is unique -/
  grants : Text → Option Grant
  /-- the sponsors, with `tombstoned_at` -/
  sponsors : Text → Option (Option Int)
  /-- `panic_at` of `enrollment_sponsor_security` -/
  panicAt : Text → Option Int
  problems : Text → Option Problem
  notices : Text → Option Notice
  directives : List Directive
  /-- `unixepoch('subsec') * 1000` -/
  now : Int

/-- `FellowCredentialBinding`. -/
structure Binding where
  fellowId : Text
  sponsorId : Text
  credentialId : Text
  tokenHash : Text
deriving DecidableEq

/-! ## The statement -/

section Statement

variable {F : Type} (π : Platform F) (db : Db) (binding : Binding) (problemId : Option Text)

/-- The grant of a credential reaches a problem that is public, or a draft
of its own. -/
def reachesProblem (f : Fellow) (t : Token) (id : Text) : Bool :=
  let resources := π.resources t.grantedResourcesJson
  let bound := resources.problemBinding.or resources.problem_binding
  bound.getD id == id
    && (db.problems id).any fun p =>
      p.status != text "private-draft"
        || p.sponsorId == some f.sponsorId
          && (p.createdByFellowId == some binding.fellowId || some id == bound)

/-- `ACTIVE_DIRECTIVE_AUTHORITY_SQL` on the rows it joins. -/
def admits (f : Fellow) (t : Token) (g : Grant) (tombstonedAt : Option Int) : Bool :=
  let resources := π.resources t.grantedResourcesJson
  let expiry := (resources.fellowGrantExpiresAt.or resources.fellow_grant_expires_at).getD
    t.expiresAt
  let panic := (db.panicAt f.sponsorId).getD (-1)
  t.fellowId == binding.fellowId && t.sponsorId == f.sponsorId && g.sponsorId == f.sponsorId
    && g.grantedScopesJson == t.grantedScopesJson
    && g.grantedResourcesJson == t.grantedResourcesJson && tombstonedAt.isNone
    && f.sponsorId == binding.sponsorId && t.tokenHash == binding.tokenHash
    && t.credentialProfile == text "bearer" && t.revokedAt.isNone
    && (f.status == text "active" || f.status == text "suspicious_review")
    && t.issuedAt ≤ db.now && db.now < t.expiresAt && db.now < expiry
    && panic < t.issuedAt && panic < g.grantedAt
    && problemId.all (reachesProblem π db binding f t)

/-- The rows of `authority`: a Fellow, a credential, a grant and a sponsor
by their keys, so at most one. -/
def authority : List Unit :=
  match db.fellows binding.fellowId, db.tokens binding.credentialId, db.grants binding.fellowId with
  | some f, some t, some g =>
      match db.sponsors f.sponsorId with
      | some tombstonedAt =>
          if admits π db binding problemId f t g tombstonedAt then [()] else []
      | none => []
  | _, _, _ => []

structure ActiveDirectiveRow where
  id : Text
  verb : Verb
  body : Option Text
  problemId : Option Text
  noticeId : Text
  createdAt : Int
  seq : Nat
  acknowledgedAt : Option Int
deriving DecidableEq

def receiptOf? (d : Directive) : Option ActiveDirectiveRow :=
  match db.notices d.noticeId with
  | some n =>
      if n.fellowId = d.fellowId ∧ n.noticeType = text "sponsor_directive"
          ∧ n.targetId = some d.id ∧ n.problemId = d.problemId then
        some { id := d.id, verb := d.verb, body := d.body, problemId := d.problemId
               noticeId := d.noticeId, createdAt := d.createdAt, seq := n.seq
               acknowledgedAt := n.acknowledgedAt }
      else none
  | none => none

def isScoped (d : Directive) : Bool :=
  d.fellowId == binding.fellowId && d.sponsorId == binding.sponsorId
    && d.problemId.all fun id => problemId == some id

/-- `ACTIVE_DIRECTIVE_SOURCE_SQL` where there is authority. -/
def source : List ActiveDirectiveRow :=
  if (authority π db binding problemId).isEmpty then []
  else db.directives.filterMap fun d =>
    if (db.fellows d.fellowId).any (fun f => f.sponsorId == d.sponsorId)
        && isScoped binding problemId d then receiptOf? db d
    else none

/-- `COALESCE(MAX(seq), 0)`. -/
def snapshotSeq (rows : List ActiveDirectiveRow) : Nat := (rows.map (·.seq)).foldr max 0

/-- `ORDER BY seq, id`. Sequence numbers of a Fellow are told apart. -/
def rowLe (a b : ActiveDirectiveRow) : Bool :=
  a.seq < b.seq || a.seq == b.seq && Text.le a.id b.id

def ordered (rows : List ActiveDirectiveRow) : List ActiveDirectiveRow :=
  rows.insertionSort fun a b => rowLe a b

/-- The focus or unfocus with the greatest sequence number. -/
def latestFocus (rows : List ActiveDirectiveRow) : Option ActiveDirectiveRow :=
  (ordered (rows.filter (·.verb != .forbid))).getLast?

def forbidsAfter (rows : List ActiveDirectiveRow) (after : Nat) : List ActiveDirectiveRow :=
  ordered (rows.filter fun row => row.verb == .forbid && after < row.seq)

structure PageRow where
  snapshotSeq : Nat
  frontierValid : Bool
  /-- `page.*`, absent in the row of an empty page -/
  row : Option ActiveDirectiveRow

/-- `PAGE_SQL`. -/
def pageRows (expected : Option Nat) (after limit : Nat) : List PageRow :=
  let rows := source π db binding problemId
  let snapshot := snapshotSeq rows
  let page :=
    if expected.all (· == snapshot) then
      (latestFocus rows).toList ++ (forbidsAfter rows after).take limit
    else []
  let frontierValid := after == 0 || rows.any fun row => row.verb == .forbid && row.seq == after
  let joined := if page.isEmpty then [none] else (ordered page).map some
  (authority π db binding problemId).flatMap fun _ =>
    joined.map fun row => { snapshotSeq := snapshot, frontierValid, row }

end Statement

/-! ## The read -/

inductive ReadError where
  | invalid
  | changed
  | unauthorized
  | unavailable
  /-- The response does not meet its contract. -/
  | malformed
deriving DecidableEq

section Read

variable {F : Type} (π : Platform F)

/-- `query.problem_id ?? null`. -/
def problemValue : Option Text → Value F
  | some id => .str id
  | none => .null

/-- What `queryDigest` takes the digest of, and its text. -/
def queryValue (binding : Binding) (query : ActiveDirectiveQuery) : Value F :=
  .arr [.str (text "active-directives-v1"), .str binding.fellowId, .str binding.sponsorId,
    .str binding.credentialId, problemValue query.problemId, .num (π.number query.limit)]

def queryText (binding : Binding) (query : ActiveDirectiveQuery) : Text :=
  stringify π.format (queryValue π binding query)

def queryDigest (binding : Binding) (query : ActiveDirectiveQuery) : Text :=
  π.sha256Hex (queryText π binding query)

/-- The snapshot a cursor continues and the forbid it continues after. -/
def readCursor (binding : Binding) (query : ActiveDirectiveQuery) :
    Except ReadError (Option Nat × Nat) :=
  match query.cursor with
  | none => .ok (none, 0)
  | some cursor =>
      match cursorParts cursor with
      | none => .error .invalid
      | some (boundQuery, snapshotText, afterText) =>
          let expected := Codec.numeral snapshotText
          let after := Codec.numeral afterText
          if boundQuery ≠ queryDigest π binding query ∨ isSafeInteger expected = false
              ∨ expected < 1 ∨ isSafeInteger after = false ∨ after < 1 ∨ expected < after then
            .error .invalid
          else .ok (some expected, after)

def receipt (binding : Binding) (row : ActiveDirectiveRow) : Receipt where
  directiveId := row.id
  fellowId := binding.fellowId
  problemId := row.problemId
  verb := row.verb
  text := row.body
  noticeId := row.noticeId
  seq := row.seq
  createdAt := row.createdAt
  acknowledgedAt := row.acknowledgedAt

def globalNote : Text :=
  text ("Global instructions only. Before working on a problem, request this endpoint again with "
    ++ "problem_id to include its scoped instructions.")

def continuingNote : Text :=
  text ("Continuing forbids remain. Follow every next_url before acting; if the instruction set "
    ++ "changes, restart from restart_url.")

def respond (binding : Binding) (query : ActiveDirectiveQuery) (snapshotSeq : Nat)
    (rows : List ActiveDirectiveRow) : ActiveDirectiveResponse :=
  let focus := rows.find? (·.verb != .forbid)
  let forbids := rows.filter (·.verb == .forbid)
  let selected := forbids.take query.limit.toNat
  let hasMore := decide (query.limit.toNat < forbids.length)
  let cursor := if hasMore then
      selected.getLast?.map fun last =>
        cursorText (queryDigest π binding query) snapshotSeq last.seq
    else none
  { fellowId := binding.fellowId
    sponsorId := binding.sponsorId
    problemId := query.problemId
    snapshotSeq
    focus := focus.map (receipt binding)
    forbids := selected.map (receipt binding)
    hasMore
    nextCursor := cursor
    nextUrl := cursor.map fun cursor =>
      activeDirectivesUrl query.problemId (some query.limit) (some cursor)
    restartUrl := activeDirectivesUrl query.problemId (some query.limit) none
    omitted := (if query.problemId.isSome then [] else [globalNote])
      ++ if hasMore then [continuingNote] else [] }

/-- The read at a moment of the database; the statement may fail. -/
def readActiveDirectivePage (db : Db) (success : Bool) (binding : Binding)
    (query : ActiveDirectiveQuery) : Except ReadError ActiveDirectiveResponse :=
  if !query.isValid then .error .invalid
  else match readCursor π binding query with
  | .error error => .error error
  | .ok (expected, after) =>
      if !success then .error .unavailable
      else
        let results := pageRows π db binding query.problemId expected after (query.limit.toNat + 1)
        match results with
        | [] => .error .unauthorized
        | state :: _ =>
            if !isSafeInteger state.snapshotSeq then .error .unavailable
            else if expected.any (· != state.snapshotSeq) then .error .changed
            else if !state.frontierValid then .error .invalid
            else
              let response := respond π binding query state.snapshotSeq
                (results.filterMap (·.row))
              if response.isValid then .ok response else .error .malformed

end Read

end Asimposium.Directives
