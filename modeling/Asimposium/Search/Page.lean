import Asimposium.Lib.Paging
import Asimposium.Search.Continuation

/-!
# The pages of a search

A page is cut from a window, its bodies are read, and the window is read
once more: when either window is not the one the cursor was made from, or
the two differ, the call throws. Index changes may come between any two of
the reads of a call.
-/

namespace Asimposium.Search

open Codec (Number Value stringify)
open Text (trim)

/-! ## Bodies -/

section Hydration

variable {F : Type} (π : Platform F)

/-- `!==` of two numbers. -/
def differ [DecidableEq F] (x y : Number F) : Bool := x == .nan || y == .nan || x.unsigned != y.unsigned

def orFailed {α : Type} : Option α → Except SearchError α
  | some a => .ok a
  | none => .error .failed

def publicationScreeningNotice (raw : Option Text) :
    Except SearchError (Option (Codec.JsonValue F)) :=
  match raw with
  | none => .ok none
  | some raw => if 4096 < Text.byteLength raw then .error .failed else orFailed (π.receiptNotice raw)

/-- The statement from 160 units before its first match on, at most 1900. -/
def statementExcerpt (statement query : Text) : Text :=
  let found := (statement.map Text.foldAscii).tails.findIdx? ((query.map Text.foldAscii).isPrefixOf ·)
  let start := match found with
    | some index => index - 160
    | none => 0
  let stop := min statement.length (start + 1900)
  (if 0 < start then text "…" else []) ++ (statement.take stop).drop start
    ++ (if stop < statement.length then text "…" else [])

def problemUrl (problemId : Text) : Except SearchError Text := do
  let encoded ← orFailed (π.encodeURIComponent problemId)
  .ok (text "https://asimposium.org/p/" ++ encoded)

def claimItem [DecidableEq F] (pin : ClaimKey F) (row : ClaimRow F) :
    Except SearchError (SearchResultItem F) := do
  if row.id ≠ pin.id ∨ row.problemId ≠ pin.problemId ∨ differ row.rank pin.rank then
    .error (.continuation .changed)
  let screeningNotice ← publicationScreeningNotice π row.screeningProvenance
  let url ← problemUrl π row.problemId
  let encoded ← orFailed (π.encodeURIComponent row.id)
  .ok { kind := .claim
        id := row.id
        problemId := some row.problemId
        version := none
        url := url ++ text "/claims/" ++ encoded
        title := text "Claim " ++ row.id ++ text " in " ++ row.problemId
        statement := some row.statement
        snippet := (row.snippet.getD row.statement).take 2000
        matchType := .lexicalFts
        scoreExplanation := text "bm25_rank_" ++ π.toFixed2 row.rank
        screeningNotice := screeningNotice }

def problemItem (pin : ProblemKey) (screeningNotice : Option (Codec.JsonValue F)) :
    Except SearchError (SearchResultItem F) := do
  let url ← problemUrl π pin.id
  .ok { kind := .problem
        id := pin.id
        problemId := none
        version := none
        url := url
        title := pin.title
        statement := none
        snippet := (pin.title ++ text " — Public problem " ++ pin.id ++ text " (sequence "
          ++ Text.ofInt pin.publicSeq ++ text ", updated " ++ pin.updatedAt ++ text ")").take 2000
        matchType := .lexicalFts
        scoreExplanation := text "problem_id_or_title_literal_match"
        screeningNotice := screeningNotice }

def statementItem (pin : ProblemStatementKey)
    (formulation : Option (PublishedProblemFormulation F)) (literalQuery : Text) :
    Except SearchError (SearchResultItem F) :=
  match formulation with
  | none => .error (.continuation .changed)
  | some formulation => do
      if formulation.eventId ≠ pin.eventId ∨ formulation.seq ≠ pin.sourceSeq
          ∨ formulation.payloadSha256 ≠ pin.payloadSha256
          ∨ formulation.currentStatementVersion ≠ pin.statementVersion then
        .error (.continuation .changed)
      let url ← problemUrl π pin.id
      .ok { kind := .problem
            id := pin.id
            problemId := none
            version := some pin.statementVersion
            url := url
            title := formulation.title
            statement := some formulation.statement
            snippet := text "S@" ++ Text.ofInt pin.statementVersion ++ text " · "
              ++ statementExcerpt formulation.statement literalQuery
            matchType := .lexicalFts
            scoreExplanation := text "current_published_statement_literal_match"
            screeningNotice := formulation.screeningNotice }

def fellowItem (key : FellowKey) : Except SearchError (SearchResultItem F) := do
  let encoded ← orFailed (π.encodeURIComponent key.id)
  .ok { kind := .fellow
        id := key.id
        problemId := none
        version := none
        url := text "https://asimposium.org/fellows/" ++ encoded
        title := key.name
        statement := none
        snippet := (text "Fellow " ++ key.name ++ text " (model " ++ key.model ++ text ", harness "
          ++ key.harness ++ text ")").take 2000
        matchType := .lexicalFts
        scoreExplanation := text "fellow_name_lexical_match"
        screeningNotice := none }

/-! ## A page -/

def claimKeyOf : SearchWindowEntry F → Option (ClaimKey F)
  | .claim key => some key
  | _ => none

/-- What is read of the problems of a page: each once, through the sequence
its last entry names. -/
def selectedFormulations (entries : List (SearchWindowEntry F)) : List (Text × Int) :=
  let named := entries.filterMap fun entry => match entry with
    | .problem key => some (key.id, key.publicSeq)
    | .statement key => some (key.id, key.publicSeq)
    | _ => none
  named.foldl (fun selected pair =>
    if selected.any (·.1 == pair.1) then
      selected.map fun old => if old.1 == pair.1 then pair else old
    else selected ++ [pair]) []

def hydrateClaims [DecidableEq F] (page : Index F) (entries : List (SearchWindowEntry F))
    (ftsQuery : Text) : Except SearchError (List (Text × SearchResultItem F)) :=
  let claims := entries.filterMap claimKeyOf
  if claims = [] then .ok []
  else do
    let rows ← orFailed (page.claimPage claims ftsQuery)
    if rows.length ≠ claims.length then .error (.continuation .changed)
    (claims.zip rows).mapM fun (pin, row) =>
      (claimItem π pin row).map (identityText π .claim pin.id pin.problemId, ·)

/-- The item of a problem entry, when there is more to say than its pin. -/
def hydrateProblem (found : List (Text × PublishedProblemFormulation F)) (literalQuery : Text) :
    SearchWindowEntry F → Except SearchError (Option (Text × SearchResultItem F))
  | .problem pin =>
      match found.lookup pin.id with
      | none => .ok none
      | some formulation =>
          if formulation.screeningNotice.isNone then .ok none
          else if formulation.title ≠ pin.title then .error (.continuation .changed)
          else (problemItem π pin formulation.screeningNotice).map fun item =>
            some (identityText π .problem pin.id [], item)
  | .statement pin =>
      (statementItem π pin (found.lookup pin.id) literalQuery).map fun item =>
        some (identityText π .problem pin.id [], item)
  | _ => .ok none

def hydrateProblems (formulations : Index F) (entries : List (SearchWindowEntry F))
    (literalQuery : Text) : Except SearchError (List (Text × SearchResultItem F)) :=
  let selected := selectedFormulations entries
  if selected = [] then .ok []
  else do
    let found ← orFailed (formulations.formulations selected)
    let items ← entries.mapM (hydrateProblem π found literalQuery)
    .ok (items.filterMap id)

def itemOf (hydrated : List (Text × SearchResultItem F)) :
    SearchWindowEntry F → Except SearchError (SearchResultItem F)
  | .exact item => .ok item
  | .problem key =>
      match hydrated.lookup (identityText π .problem key.id []) with
      | some item => .ok item
      | none => problemItem π key none
  | .fellow key => fellowItem π key
  | entry =>
      match hydrated.lookup (entry.identity π) with
      | some item => .ok item
      | none => .error (.continuation .changed)

def hydrateSearchPage [DecidableEq F] (page formulations : Index F)
    (entries : List (SearchWindowEntry F)) (ftsQuery literalQuery : Text) :
    Except SearchError (List (SearchResultItem F)) := do
  if 50 < entries.length then .error .failed
  let claims ← hydrateClaims π page entries ftsQuery
  let problems ← hydrateProblems π formulations entries literalQuery
  -- the last item of a name is the one the map keeps
  entries.mapM (itemOf π (claims ++ problems).reverse)

structure SearchPage (F : Type) where
  items : List (SearchResultItem F)
  cursor : Option Text
  windowMatches : Nat
  truncated : Bool

/-- What a call is given besides its query, and the index at each of its
reads. -/
structure Call (F : Type) where
  ftsQuery : Text
  exactItems : List (SearchResultItem F)
  /-- What `refreshExact` gives, unless it throws. -/
  refreshed : Option (List (SearchResultItem F))
  before : WindowMoments F
  page : Index F
  formulations : Index F
  after : WindowMoments F

def pageEnd (query : SearchPageQuery) (offset length : Nat) : Nat :=
  min (offset + query.limitOf.toNat) length

def pageCursor (queryDigest windowDigest : Text) (stop length : Nat) :
    Except SearchError (Option Text) :=
  if stop < length then (nextSearchCursor queryDigest windowDigest stop).map some else .ok none

def executeSearchPage [DecidableEq F] (query : SearchPageQuery) (call : Call F)
    (continuation : SearchContinuation) : Except SearchError (SearchPage F) := do
  let window ← readSearchWindow π call.before query call.ftsQuery call.exactItems
  let digest ← bindSearchWindow π continuation (window.entries.map (·.json π)) window.truncated
  let stop := pageEnd query continuation.offset window.entries.length
  let items ← hydrateSearchPage π call.page call.formulations
    ((window.entries.take stop).drop continuation.offset) call.ftsQuery query.q
  let refreshed ← orFailed call.refreshed
  let current ← readSearchWindow π call.after query call.ftsQuery refreshed
  let _ ← bindSearchWindow π { continuation with windowDigest := some digest }
    (current.entries.map (·.json π)) current.truncated
  let cursor ← pageCursor continuation.queryDigest digest stop window.entries.length
  .ok ⟨items, cursor, window.entries.length, window.truncated⟩

/-- A call: the cursor is read before anything is looked up. -/
def search [DecidableEq F] (query : SearchPageQuery) (call : Call F) :
    Except SearchError (SearchPage F) := do
  let continuation ← readSearchContinuation π query
  executeSearchPage π query call continuation

/-! ## The items of a page have the names of its entries -/

variable {π}

variable {item : SearchResultItem F}

variable {literalQuery : Text}

def Keyed (π : Platform F) (hydrated : List (Text × SearchResultItem F)) : Prop :=
  ∀ pair ∈ hydrated, pair.2.identity π = pair.1

variable {entries : List (SearchWindowEntry F)} {hydrated : List (Text × SearchResultItem F)}

theorem Keyed.lookup (hkeyed : Keyed π hydrated) {name : Text}
    (h : hydrated.lookup name = some item) : item.identity π = name := by
  obtain ⟨before, after, rfl, -⟩ := List.lookup_eq_some_iff.mp h
  exact hkeyed (name, item) (by simp)

end Hydration

end Asimposium.Search
