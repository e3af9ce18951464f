import Asimposium.Codec.Parsed
import Asimposium.Envelopes.Framing
import Asimposium.Lib.ExceptRun

/-!
# Continuing a search

A search is read in pages. A page that is not the last ends with a cursor:
a digest of the query, a digest of the window the page was cut from, and
the position of the next page in it. Nothing is kept on the server between
two pages, so the digests are all that ties the next page to the last one.

SHA-256, the spelling of numbers and what the runtime does to texts beyond
this repository are a `Platform`'s.
-/

namespace Asimposium.Search

open Codec (Number Value stringify)
open Text (decimal trim)

/-- `SEARCH_WINDOW_MAX`. -/
def searchWindowMax : Nat := 500

structure Platform (F : Type) where
  format : Codec.FloatFormat F
  /-- An integer as a number. -/
  number : Int → Number F
  /-- The hexadecimal SHA-256 of a text's UTF-8. -/
  sha256Hex : Text → Text
  /-- `toFixed(2)`. -/
  toFixed2 : Number F → Text
  /-- `encodeURIComponent`; `none` when it throws. -/
  encodeURIComponent : Text → Option Text
  /-- `JSON.parse` and the schemas of a publication receipt: the notice it
  carries, if any; `none` when it throws. -/
  receiptNotice : Text → Option (Option (Codec.JsonValue F))

/-- Sixty-four digits of `[0-9a-f]`. -/
def isHex64 (t : Text) : Bool := t.length == 64 && t.all Framing.isHex

structure Platform.Lawful {F : Type} (π : Platform F) : Prop where
  format : π.format.Lawful
  finite : ∀ n, (π.number n).isFinite = true
  number : ∀ m n, isSafeInteger m = true → isSafeInteger n = true →
    (π.number m).unsigned = (π.number n).unsigned → m = n
  hex : ∀ t, isHex64 (π.sha256Hex t) = true

/-! ## The request -/

inductive Kind where
  | all
  | claim
  | problem
  | fellow
deriving DecidableEq

def Kind.name : Kind → String
  | .all => "all"
  | .claim => "claim"
  | .problem => "problem"
  | .fellow => "fellow"

structure SearchPageQuery where
  q : Text
  kind : Option Kind
  limit : Option Int
  cursor : Option Text

namespace SearchPageQuery

/-- `query.kind ?? "all"`. -/
def kindOf (query : SearchPageQuery) : Kind := query.kind.getD .all

/-- `query.limit ?? 20`. -/
def limitOf (query : SearchPageQuery) : Int := query.limit.getD 20

/-- What a cursor is bound to besides the window: the query without the
white space around it, the kind and the limit. -/
def bound (query : SearchPageQuery) : Text × Kind × Int :=
  (trim query.q, query.kindOf, query.limitOf)

end SearchPageQuery

inductive Reason where
  | invalid
  | changed
deriving DecidableEq

inductive SearchError where
  | continuation (reason : Reason)
  /-- Any other error. -/
  | failed
deriving DecidableEq

structure SearchContinuation where
  offset : Nat
  queryDigest : Text
  windowDigest : Option Text
deriving DecidableEq

/-! ## Digests -/

section Digests

variable {F : Type} (π : Platform F)

/-- The text of which `searchDigest` takes the digest. -/
def Platform.text (value : Value F) : Text := stringify π.format value

def searchDigest (value : Value F) : Text := π.sha256Hex (π.text value)

/-- The version of the algorithm, which begins every digested value. -/
def version : Value F := .str (text "search-window-v1")

def boundValue (bound : Text × Kind × Int) : Value F :=
  .arr [version, .str bound.1, .str (text bound.2.1.name), .num (π.number bound.2.2)]

def queryDigest (query : SearchPageQuery) : Text := searchDigest π (boundValue π query.bound)

/-! ## Cursors -/

/-- `SEARCH_CURSOR_PATTERN`, split at its dots: the digests and the digits
of the offset. -/
def cursorParts (cursor : Text) : Option (Text × Text × Text) :=
  match cursor.splitOn (unit '.') with
  | [tag, boundQuery, windowDigest, offsetText] =>
      if tag = text "sc1" ∧ isHex64 boundQuery ∧ isHex64 windowDigest
          ∧ offsetText.all Text.isDigit ∧ offsetText.head? ≠ some (unit '0')
          ∧ 1 ≤ offsetText.length ∧ offsetText.length ≤ 3 then
        some (boundQuery, windowDigest, offsetText)
      else none
  | _ => none

/-- `!query.q.trim()`, its length, its null characters and its limit. -/
def SearchPageQuery.isValid (query : SearchPageQuery) : Bool :=
  !(trim query.q).isEmpty && query.q.length ≤ 256 && !query.q.contains 0
    && isSafeInteger query.limitOf && 1 ≤ query.limitOf && query.limitOf ≤ 50

def readSearchContinuation (query : SearchPageQuery) : Except SearchError SearchContinuation :=
  if !query.isValid then .error (.continuation .invalid)
  else
    let digest := queryDigest π query
    match query.cursor with
    | none => .ok ⟨0, digest, none⟩
    | some cursor =>
        match cursorParts cursor with
        | none => .error (.continuation .invalid)
        | some (boundQuery, windowDigest, offsetText) =>
            let offset := Codec.numeral offsetText
            if boundQuery ≠ digest ∨ offset < 1 ∨ searchWindowMax ≤ offset
                ∨ (offset : Int) % query.limitOf ≠ 0 then
              .error (.continuation .invalid)
            else .ok ⟨offset, digest, some windowDigest⟩

def windowValue (entries : List (Value F)) (truncated : Bool) : Value F :=
  .arr [version, .arr entries, .bool truncated]

def bindSearchWindow (continuation : SearchContinuation) (entries : List (Value F))
    (truncated : Bool) : Except SearchError Text :=
  let digest := searchDigest π (windowValue entries truncated)
  if continuation.windowDigest.any (· != digest) then .error (.continuation .changed)
  else if entries.length ≤ continuation.offset ∧ continuation.offset ≠ 0 then
    .error (.continuation .changed)
  else .ok digest

def cursorText (queryDigest windowDigest : Text) (offset : Nat) : Text :=
  [unit '.'].intercalate [text "sc1", queryDigest, windowDigest, decimal offset]

def nextSearchCursor (queryDigest windowDigest : Text) (offset : Nat) :
    Except SearchError Text :=
  if !isHex64 queryDigest || !isHex64 windowDigest || offset < 1 || searchWindowMax ≤ offset then
    .error (.continuation .invalid)
  else .ok (cursorText queryDigest windowDigest offset)

end Digests

/-! ## A cursor is read as it was written -/

theorem dot_not_mem_hex {t : Text} (h : isHex64 t = true) : unit '.' ∉ t := by
  intro hmem
  have hall := (Bool.and_eq_true_iff.mp h).2
  cases List.all_eq_true.mp hall _ hmem

theorem dot_not_mem_decimal (n : Nat) : unit '.' ∉ decimal n := by
  intro hmem
  cases Text.decimal_digit hmem

theorem decimal_head {n : Nat} (h : 0 < n) : (decimal n).head? ≠ some (unit '0') :=
  (⟨n, 0, h⟩ : Codec.Decimal).digits_head

theorem cursorParts_cursorText {queryDigest windowDigest : Text} {offset : Nat}
    (hquery : isHex64 queryDigest = true) (hwindow : isHex64 windowDigest = true)
    (hlow : 1 ≤ offset) (hhigh : offset < searchWindowMax) :
    cursorParts (cursorText queryDigest windowDigest offset)
      = some (queryDigest, windowDigest, decimal offset) := by
  have hdots : ∀ part ∈ [text "sc1", queryDigest, windowDigest, decimal offset],
      unit '.' ∉ part := by
    simp only [List.forall_mem_cons]
    exact ⟨by decide, dot_not_mem_hex hquery, dot_not_mem_hex hwindow, dot_not_mem_decimal _, nofun⟩
  have hwidth : (decimal offset).length ≤ 3 :=
    (Text.width_le_iff (by omega)).mpr (by unfold searchWindowMax at hhigh; omega)
  rw [cursorParts, cursorText, List.splitOn_intercalate _ hdots (List.cons_ne_nil _ _)]
  refine if_pos ⟨rfl, hquery, hwindow, ?_, decimal_head hlow, Text.width_pos offset, hwidth⟩
  exact List.all_eq_true.mpr fun u hu => Text.decimal_digit hu

end Asimposium.Search

/-!
## The window of a search

A search matches at most one exact reference, claims by their rank,
problems by their titles, problems by their statements and Fellows by
their names, in this order. The window has the identities and the pins of
the first matches; a page reads the bodies of a slice of it, and then
reads the whole window once more.

Each read sees the index as it stands at that moment. What a statement
selects is not modelled: an `Index` has the rows it returns, which are
arbitrary, and the checks on them are the code's.
-/

namespace Asimposium.Search

open Codec (Number Value stringify)
open Text (trim)

/-! ## Entries -/

structure ClaimKey (F : Type) where
  id : Text
  problemId : Text
  sourceSeq : Int
  payloadSha256 : Text
  rank : Number F

structure ProblemKey where
  id : Text
  publicSeq : Int
  updatedAt : Text
  title : Text

structure ProblemStatementKey where
  id : Text
  publicSeq : Int
  eventId : Text
  sourceSeq : Int
  statementVersion : Int
  payloadSha256 : Text

structure FellowKey where
  id : Text
  name : Text
  model : Text
  harness : Text

inductive ItemKind where
  | problem
  | claim
  | fellow
deriving DecidableEq

def ItemKind.name : ItemKind → String
  | .problem => "problem"
  | .claim => "claim"
  | .fellow => "fellow"

inductive MatchType where
  | exactReference
  | lexicalFts
deriving DecidableEq

def MatchType.name : MatchType → String
  | .exactReference => "exact_reference"
  | .lexicalFts => "lexical_fts"

structure SearchResultItem (F : Type) where
  kind : ItemKind
  id : Text
  problemId : Option Text
  version : Option Int
  url : Text
  title : Text
  statement : Option Text
  snippet : Text
  matchType : MatchType
  scoreExplanation : Text
  screeningNotice : Option (Codec.JsonValue F)

inductive SearchWindowEntry (F : Type) where
  | claim (key : ClaimKey F)
  | problem (key : ProblemKey)
  | statement (key : ProblemStatementKey)
  | fellow (key : FellowKey)
  | exact (item : SearchResultItem F)

structure SearchWindow (F : Type) where
  entries : List (SearchWindowEntry F)
  truncated : Bool

section Platform

variable {F : Type} (π : Platform F)

/-- The members of an object of which some may be absent. -/
def presentMembers (fields : List (Text × Option (Value F))) : List (Text × Value F) :=
  fields.filterMap fun field => field.2.map (field.1, ·)

def SearchResultItem.fields (item : SearchResultItem F) : List (Text × Option (Value F)) :=
  [(text "kind", some (.str (text item.kind.name))),
   (text "id", some (.str item.id)),
   (text "problem_id", item.problemId.map .str),
   (text "version", item.version.map fun version => .num (π.number version)),
   (text "url", some (.str item.url)),
   (text "title", some (.str item.title)),
   (text "statement", item.statement.map .str),
   (text "snippet", some (.str item.snippet)),
   (text "match_type", some (.str (text item.matchType.name))),
   (text "score_explanation", some (.str item.scoreExplanation)),
   (text "screening_notice", item.screeningNotice.map (·.1))]

/-- An entry as the JSON value of which the window's digest is taken. -/
def SearchWindowEntry.json : SearchWindowEntry F → Value F
  | .claim key => .obj
      [(text "kind", .str (text "claim")), (text "id", .str key.id),
       (text "problem_id", .str key.problemId), (text "source_seq", .num (π.number key.sourceSeq)),
       (text "payload_sha256", .str key.payloadSha256), (text "rank", .num key.rank)]
  | .problem key => .obj
      [(text "kind", .str (text "problem")), (text "id", .str key.id),
       (text "public_seq", .num (π.number key.publicSeq)),
       (text "updated_at", .str key.updatedAt), (text "title", .str key.title)]
  | .statement key => .obj
      [(text "kind", .str (text "problem-statement")), (text "id", .str key.id),
       (text "public_seq", .num (π.number key.publicSeq)), (text "event_id", .str key.eventId),
       (text "source_seq", .num (π.number key.sourceSeq)),
       (text "statement_version", .num (π.number key.statementVersion)),
       (text "payload_sha256", .str key.payloadSha256)]
  | .fellow key => .obj
      [(text "kind", .str (text "fellow")), (text "id", .str key.id), (text "name", .str key.name),
       (text "model", .str key.model), (text "harness", .str key.harness)]
  | .exact item => .obj
      [(text "kind", .str (text "exact")), (text "item", .obj (presentMembers (item.fields π)))]

def SearchWindow.json (window : SearchWindow F) : Value F :=
  windowValue (window.entries.map (·.json π)) window.truncated

/-! ## Identities -/

/-- `JSON.stringify` of what names a match. -/
def identityText (kind : ItemKind) (id problemId : Text) : Text :=
  stringify π.format (.arr [.str (text kind.name), .str id, .str problemId])

def SearchResultItem.identity (item : SearchResultItem F) : Text :=
  identityText π item.kind item.id (item.problemId.getD [])

/-- `identity(entry)`. -/
def SearchWindowEntry.identity : SearchWindowEntry F → Text
  | .claim key => identityText π .claim key.id key.problemId
  | .problem key => identityText π .problem key.id []
  | .statement key => identityText π .problem key.id []
  | .fellow key => identityText π .fellow key.id []
  | .exact item => item.identity π

/-- `validId`. -/
def validId (id : Text) : Bool :=
  1 ≤ id.length && id.length ≤ 128 && !id.any fun u => u < 32 || u == 127

/-- Whether `validateEntry` lets the row pass. -/
def SearchWindowEntry.isValid : SearchWindowEntry F → Bool
  | .exact _ => true
  | .claim key => validId key.id && validId key.problemId && isSafeInteger key.sourceSeq
      && 1 ≤ key.sourceSeq && isHex64 key.payloadSha256 && key.rank.isFinite
  | .problem key => validId key.id && isSafeInteger key.publicSeq && 0 ≤ key.publicSeq
      && 1 ≤ key.title.length && key.title.length ≤ 2000
  | .statement key => validId key.id && isSafeInteger key.publicSeq && isSafeInteger key.sourceSeq
      && 1 ≤ key.sourceSeq && key.sourceSeq ≤ key.publicSeq && isSafeInteger key.statementVersion
      && 1 ≤ key.statementVersion && validId key.eventId && isHex64 key.payloadSha256
  | .fellow key => validId key.id
      && [key.name, key.model, key.harness].all fun value => value.length ≤ 2000

/-! ## Reading the window -/

structure ClaimRow (F : Type) where
  id : Text
  problemId : Text
  statement : Text
  snippet : Option Text
  rank : Number F
  screeningProvenance : Option Text

structure PublishedProblemFormulation (F : Type) where
  screeningNotice : Option (Codec.JsonValue F)
  title : Text
  statement : Text
  currentStatementVersion : Int
  eventId : Text
  seq : Int
  payloadSha256 : Text

/-- What the statements return at one moment; `none` when one fails. -/
structure Index (F : Type) where
  claimKeys (ftsQuery problemId id : Text) (maximum : Nat) : Option (List (ClaimKey F))
  problemKeys (pattern id : Text) (maximum : Nat) : Option (List ProblemKey)
  statementKeys (selected : List Text) (pattern : Text) (maximum : Nat) :
    Option (List ProblemStatementKey)
  fellowKeys (pattern id : Text) (maximum : Nat) : Option (List FellowKey)
  claimPage (pins : List (ClaimKey F)) (ftsQuery : Text) : Option (List (ClaimRow F))
  /-- `readPublishedProblemFormulations`, by problem and the sequence it is
  read through. -/
  formulations (selected : List (Text × Int)) :
    Option (List (Text × PublishedProblemFormulation F))

structure WindowMoments (F : Type) where
  claims : Index F
  problems : Index F
  statements : Index F
  fellows : Index F

/-- A row joins the window, unless it is not valid or named before. -/
def appendRow (entries : List (SearchWindowEntry F)) (row : SearchWindowEntry F) :
    Except SearchError (List (SearchWindowEntry F)) :=
  if !row.isValid || (entries.map (·.identity π)).contains (row.identity π) then .error .failed
  else .ok (entries ++ [row])

/-- One of the reads, when it is wanted and the window is not full. -/
def appendRows (wanted : Bool) (read : Nat → Option (List (SearchWindowEntry F)))
    (entries : List (SearchWindowEntry F)) : Except SearchError (List (SearchWindowEntry F)) :=
  let maximum := searchWindowMax + 1 - entries.length
  if !wanted || maximum = 0 then .ok entries
  else match read maximum with
    | none => .error .failed
    | some rows =>
        if maximum < rows.length then .error .failed else rows.foldlM (appendRow π) entries

/-- `query.q.replace(/[%_\\]/g, "\\$&")` between percent signs. -/
def likePattern (q : Text) : Text :=
  let escaped := q.flatMap fun u =>
    if u == unit '%' || u == unit '_' || u == unit '\\' then [unit '\\', u] else [u]
  unit '%' :: escaped ++ [unit '%']

def selectedProblems (entries : List (SearchWindowEntry F)) : List Text :=
  entries.filterMap fun entry => match entry with
    | .problem key => some key.id
    | .exact item => if item.kind = .problem then some item.id else none
    | _ => none

def exactOf (exactItems : List (SearchResultItem F)) (kind : ItemKind) :
    Option (SearchResultItem F) :=
  exactItems.find? (·.kind == kind)

def exactId (exactItems : List (SearchResultItem F)) (kind : ItemKind) : Text :=
  ((exactOf exactItems kind).map (·.id)).getD []

def readSearchWindow (moments : WindowMoments F) (query : SearchPageQuery) (ftsQuery : Text)
    (exactItems : List (SearchResultItem F)) : Except SearchError (SearchWindow F) := do
  if 1 < exactItems.length then .error .failed
  let kind := query.kindOf
  let pattern := likePattern query.q
  let entries ← appendRows π (!ftsQuery.isEmpty && (kind == .all || kind == .claim))
    (fun maximum => (moments.claims.claimKeys ftsQuery
      (((exactOf exactItems .claim).bind (·.problemId)).getD []) (exactId exactItems .claim)
      maximum).map (·.map .claim))
    (exactItems.map .exact)
  let entries ← appendRows π (kind == .all || kind == .problem)
    (fun maximum => (moments.problems.problemKeys pattern (exactId exactItems .problem)
      maximum).map (·.map .problem)) entries
  let entries ← appendRows π (kind == .all || kind == .problem)
    (fun maximum => (moments.statements.statementKeys (selectedProblems entries) pattern
      maximum).map (·.map .statement)) entries
  let entries ← appendRows π (kind == .all || kind == .fellow)
    (fun maximum => (moments.fellows.fellowKeys pattern (exactId exactItems .fellow)
      maximum).map (·.map .fellow)) entries
  .ok ⟨entries.take searchWindowMax, searchWindowMax < entries.length⟩

/-! ## What a window holds -/

variable {π}

structure Named (π : Platform F) (entries : List (SearchWindowEntry F)) : Prop where
  names : (entries.map (·.identity π)).Nodup
  valid : ∀ entry ∈ entries, entry.isValid = true

theorem appendRow_ok {entries entries' : List (SearchWindowEntry F)} {row : SearchWindowEntry F}
    (h : appendRow π entries row = .ok entries') :
    entries' = entries ++ [row] ∧ row.isValid = true
      ∧ row.identity π ∉ entries.map (·.identity π) := by
  unfold appendRow at h
  split at h
  · cases h
  · rename_i hrow
    cases h
    simp only [Bool.or_eq_true, Bool.not_eq_true', not_or, Bool.not_eq_false,
      List.contains_iff_mem] at hrow
    exact ⟨rfl, hrow.1, hrow.2⟩

theorem Named.appendRow {entries entries' : List (SearchWindowEntry F)}
    {row : SearchWindowEntry F} (hnamed : Named π entries)
    (h : appendRow π entries row = .ok entries') : Named π entries' := by
  obtain ⟨rfl, hvalid, hnew⟩ := appendRow_ok h
  constructor
  · rw [List.map_append]
    refine hnamed.names.append (List.nodup_singleton _) ?_
    rw [List.map_singleton, List.disjoint_singleton]
    exact hnew
  · intro entry hentry
    rcases List.mem_append.mp hentry with hold | hrow
    · exact hnamed.valid entry hold
    · rw [List.mem_singleton.mp hrow]
      exact hvalid

theorem Named.appendRows {wanted : Bool} {read : Nat → Option (List (SearchWindowEntry F))}
    {entries entries' : List (SearchWindowEntry F)} (hnamed : Named π entries)
    (h : appendRows π wanted read entries = .ok entries') : Named π entries' := by
  unfold Search.appendRows at h
  dsimp only at h
  split at h
  · cases h
    exact hnamed
  · split at h
    · cases h
    · split at h
      · cases h
      · exact ExceptRun.run_invariant (fun _ _ _ _ hs hstep => hs.appendRow hstep) hnamed h

theorem readSearchWindow_named {moments : WindowMoments F} {query : SearchPageQuery}
    {ftsQuery : Text} {exactItems : List (SearchResultItem F)} {window : SearchWindow F}
    (h : readSearchWindow π moments query ftsQuery exactItems = .ok window) :
    Named π window.entries ∧ window.entries.length ≤ searchWindowMax := by
  unfold readSearchWindow at h
  dsimp only at h
  split at h
  · cases h
  rename_i hexact
  obtain ⟨claims, hclaims, h⟩ := ExceptRun.bind_ok.mp h
  obtain ⟨problems, hproblems, h⟩ := ExceptRun.bind_ok.mp h
  obtain ⟨statements, hstatements, h⟩ := ExceptRun.bind_ok.mp h
  obtain ⟨fellows, hfellows, h⟩ := ExceptRun.bind_ok.mp h
  cases h
  have hstart : Named π (exactItems.map .exact) := by
    constructor
    · match exactItems, hexact with
      | [], _ => exact .nil
      | [item], _ => exact List.nodup_singleton _
      | _ :: _ :: _, hexact => exact (hexact (by simp)).elim
    · intro entry hentry
      obtain ⟨item, -, rfl⟩ := List.mem_map.mp hentry
      rfl
  have hnamed := (((hstart.appendRows hclaims).appendRows hproblems).appendRows
    hstatements).appendRows hfellows
  refine ⟨⟨?_, fun entry hentry => hnamed.valid entry (List.mem_of_mem_take hentry)⟩, ?_⟩
  · rw [List.map_take]
    exact hnamed.names.sublist (List.take_sublist ..)
  · exact List.length_take_le ..

/-! ## The digested text of a window -/

theorem mem_presentMembers {fields : List (Text × Option (Value F))} {member : Text × Value F} :
    member ∈ presentMembers fields ↔ (member.1, some member.2) ∈ fields := by
  rw [presentMembers, List.mem_filterMap]
  constructor
  · rintro ⟨⟨key, value⟩, hfield, hmember⟩
    obtain ⟨value', rfl, rfl⟩ := Option.map_eq_some_iff.mp hmember
    exact hfield
  · exact fun hfield => ⟨_, hfield, rfl⟩

theorem presentMembers_keys (fields : List (Text × Option (Value F))) :
    ((presentMembers fields).map (·.1)).Sublist (fields.map (·.1)) := by
  induction fields with
  | nil => exact .slnil
  | cons field fields ih =>
      obtain ⟨key, value⟩ := field
      cases value with
      | none => exact ih.cons key
      | some value => exact ih.cons_cons key

theorem presentMembers_injective {fields : List (Text × Option (Value F))} :
    ∀ {fields' : List (Text × Option (Value F))}, fields.map (·.1) = fields'.map (·.1) →
      (fields.map (·.1)).Nodup → presentMembers fields = presentMembers fields' →
      fields = fields' := by
  have habsent : ∀ {key : Text} {fields : List (Text × Option (Value F))} {value : Value F},
      key ∉ fields.map (·.1) → (key, value) ∉ presentMembers fields := by
    intro key fields value hkey hmem
    exact hkey (List.mem_map.mpr ⟨_, mem_presentMembers.mp hmem, rfl⟩)
  induction fields with
  | nil =>
      intro fields' hkeys _ _
      exact (List.map_eq_nil_iff.mp hkeys.symm).symm
  | cons field fields ih =>
      obtain ⟨key, value⟩ := field
      intro fields' hkeys hnodup h
      cases fields' with
      | nil => cases hkeys
      | cons field' fields' =>
          obtain ⟨key', value'⟩ := field'
          rw [List.map_cons, List.map_cons, List.cons.injEq] at hkeys
          obtain ⟨rfl, hkeys⟩ := hkeys
          obtain ⟨hkey, hrest⟩ := List.nodup_cons.mp hnodup
          cases value with
          | none =>
              cases value' with
              | none => rw [ih hkeys hrest h]
              | some value' =>
                  have hmem : (key, value') ∈ presentMembers fields := by
                    change presentMembers fields = (key, value') :: presentMembers fields' at h
                    rw [h]
                    exact List.mem_cons_self ..
                  exact (habsent hkey hmem).elim
          | some value =>
              cases value' with
              | none =>
                  have hmem : (key, value) ∈ presentMembers fields' := by
                    change (key, value) :: presentMembers fields = presentMembers fields' at h
                    rw [← h]
                    exact List.mem_cons_self ..
                  exact (habsent (hkeys ▸ hkey) hmem).elim
              | some value' =>
                  change (key, value) :: presentMembers fields
                    = (key, value') :: presentMembers fields' at h
                  obtain ⟨hhead, htail⟩ := List.cons.inj h
                  rw [(Prod.mk.inj hhead).2, ih hkeys hrest htail]

theorem unsignedMembers_presentMembers (fields : List (Text × Option (Value F))) :
    Codec.unsignedMembers (presentMembers fields)
      = presentMembers (fields.map fun field => (field.1, field.2.map Value.unsigned)) := by
  rw [Codec.unsignedMembers_eq, presentMembers, presentMembers, List.filterMap_map,
    List.map_filterMap]
  refine congrArg (List.filterMap · fields) (funext fun field => ?_)
  obtain ⟨key, value⟩ := field
  cases value with
  | none => rfl
  | some value => rfl

inductive EntryKind where
  | claim
  | problem
  | statement
  | fellow
  | exact

def EntryKind.name : EntryKind → String
  | .claim => "claim"
  | .problem => "problem"
  | .statement => "problem-statement"
  | .fellow => "fellow"
  | .exact => "exact"

def SearchWindowEntry.entryKind : SearchWindowEntry F → EntryKind
  | .claim _ => .claim
  | .problem _ => .problem
  | .statement _ => .statement
  | .fellow _ => .fellow
  | .exact _ => .exact

theorem EntryKind.name_injective {kind kind' : EntryKind}
    (h : text kind.name = text kind'.name) : kind = kind' := by
  cases kind <;> cases kind' <;> first | rfl | exact absurd h (by decide)

theorem json_kind (entry : SearchWindowEntry F) : ∃ rest, (entry.json π).unsigned
    = .obj ((text "kind", .str (text entry.entryKind.name)) :: rest) := by
  cases entry <;> exact ⟨_, rfl⟩

theorem entryKind_of_json {entry entry' : SearchWindowEntry F}
    (h : (entry.json π).unsigned = (entry'.json π).unsigned) :
    entry.entryKind = entry'.entryKind := by
  obtain ⟨rest, hrest⟩ := json_kind (π := π) entry
  obtain ⟨rest', hrest'⟩ := json_kind (π := π) entry'
  rw [hrest, hrest'] at h
  have hhead := (List.cons.inj (Value.obj.inj h)).1
  exact EntryKind.name_injective (Value.str.inj (Prod.mk.inj hhead).2)

def itemKeys : List Text :=
  [text "kind", text "id", text "problem_id", text "version", text "url", text "title",
    text "statement", text "snippet", text "match_type", text "score_explanation",
    text "screening_notice"]

theorem itemKeys_nodup : itemKeys.Nodup := by decide

theorem identity_of_fields {item item' : SearchResultItem F}
    (h : Codec.unsignedMembers (presentMembers (item.fields π))
      = Codec.unsignedMembers (presentMembers (item'.fields π))) :
    item.identity π = item'.identity π := by
  rw [unsignedMembers_presentMembers, unsignedMembers_presentMembers] at h
  have hkeys : ∀ item : SearchResultItem F,
      ((item.fields π).map fun field => (field.1, field.2.map Value.unsigned)).map (·.1)
        = itemKeys := fun _ => rfl
  have hfields := presentMembers_injective ((hkeys item).trans (hkeys item').symm)
    (hkeys item ▸ itemKeys_nodup) h
  simp only [SearchResultItem.fields, List.map_cons, Option.map_some, Value.unsigned,
    List.cons.injEq, Prod.mk.injEq, Option.some.injEq, Value.str.injEq, true_and] at hfields
  obtain ⟨hkind, hid, hproblem, -⟩ := hfields
  have hproblem' : item.problemId = item'.problemId := by
    cases hleft : item.problemId <;> cases hright : item'.problemId <;>
      simp_all [Value.unsigned]
  rw [SearchResultItem.identity, SearchResultItem.identity, identityText, identityText, hkind, hid,
    hproblem']

theorem identity_of_json {entry entry' : SearchWindowEntry F}
    (h : (entry.json π).unsigned = (entry'.json π).unsigned) :
    entry.identity π = entry'.identity π := by
  have hkind := entryKind_of_json h
  cases entry <;> cases entry' <;> try cases hkind
  case claim.claim key key' =>
    simp only [SearchWindowEntry.json, Value.unsigned, Codec.unsignedMembers, Value.obj.injEq,
      List.cons.injEq, Prod.mk.injEq, Value.str.injEq, true_and] at h
    rw [SearchWindowEntry.identity, SearchWindowEntry.identity, h.1, h.2.1]
  case problem.problem key key' =>
    simp only [SearchWindowEntry.json, Value.unsigned, Codec.unsignedMembers, Value.obj.injEq,
      List.cons.injEq, Prod.mk.injEq, Value.str.injEq, true_and] at h
    rw [SearchWindowEntry.identity, SearchWindowEntry.identity, h.1]
  case statement.statement key key' =>
    simp only [SearchWindowEntry.json, Value.unsigned, Codec.unsignedMembers, Value.obj.injEq,
      List.cons.injEq, Prod.mk.injEq, Value.str.injEq, true_and] at h
    rw [SearchWindowEntry.identity, SearchWindowEntry.identity, h.1]
  case fellow.fellow key key' =>
    simp only [SearchWindowEntry.json, Value.unsigned, Codec.unsignedMembers, Value.obj.injEq,
      List.cons.injEq, Prod.mk.injEq, Value.str.injEq, true_and] at h
    rw [SearchWindowEntry.identity, SearchWindowEntry.identity, h.1]
  case exact.exact item item' =>
    simp only [SearchWindowEntry.json, Value.unsigned, Codec.unsignedMembers, Value.obj.injEq,
      List.cons.injEq, Prod.mk.injEq, true_and, and_true] at h
    exact identity_of_fields h

theorem map_eq_of_map_eq {α β γ : Type*} {f : α → β} {g : α → γ}
    (h : ∀ a b, f a = f b → g a = g b) {as : List α} :
    ∀ {bs : List α}, as.map f = bs.map f → as.map g = bs.map g := by
  induction as with
  | nil =>
      intro bs hmap
      rw [List.map_eq_nil_iff.mp hmap.symm]
  | cons a as ih =>
      intro bs hmap
      cases bs with
      | nil => cases hmap
      | cons b bs =>
          rw [List.map_cons, List.map_cons, List.cons.injEq] at hmap
          rw [List.map_cons, List.map_cons, h a b hmap.1, ih hmap.2]

/-- Two windows that are the same up to the sign of a zero. -/
def SearchWindow.Same (π : Platform F) (window window' : SearchWindow F) : Prop :=
  (window.json π).unsigned = (window'.json π).unsigned

theorem SearchWindow.Same.names {window window' : SearchWindow F} (h : window.Same π window') :
    window.entries.map (·.identity π) = window'.entries.map (·.identity π) := by
  simp only [Same, SearchWindow.json, windowValue, Value.unsigned, Codec.unsignedElements,
    Value.arr.injEq, List.cons.injEq, true_and, Codec.unsignedElements_eq] at h
  have hvalues := h.1
  rw [List.map_map, List.map_map] at hvalues
  exact map_eq_of_map_eq (fun _ _ => identity_of_json) hvalues

section Lawful

variable (lawful : π.Lawful)

include lawful

theorem isJson_field (item : SearchResultItem F) :
    ∀ field ∈ item.fields π, ∀ value, field.2 = some value → value.IsJson := by
  simp only [SearchResultItem.fields, List.forall_mem_cons, Option.some.injEq, forall_eq',
    Option.map_eq_some_iff]
  refine ⟨trivial, trivial, ?_, ?_, trivial, trivial, ?_, trivial, trivial, trivial, ?_, nofun⟩
  · rintro value ⟨problemId, -, rfl⟩
    trivial
  · rintro value ⟨version, -, rfl⟩
    exact lawful.finite version
  · rintro value ⟨statement, -, rfl⟩
    trivial
  · rintro value ⟨notice, -, rfl⟩
    exact notice.2

theorem isJson_item (item : SearchResultItem F) :
    (Value.obj (presentMembers (item.fields π))).IsJson := by
  constructor
  · have hsublist := presentMembers_keys (item.fields π)
    exact itemKeys_nodup.sublist hsublist
  · refine Codec.membersJson_iff.mpr fun member hmember => ?_
    exact isJson_field lawful item _ (mem_presentMembers.mp hmember) _ rfl

theorem isJson_entry {entry : SearchWindowEntry F} (h : entry.isValid = true) :
    (entry.json π).IsJson := by
  cases entry with
  | claim key =>
      have hrank : key.rank.isFinite = true := (Bool.and_eq_true_iff.mp h).2
      refine ⟨?_, trivial, trivial, trivial, lawful.finite _, trivial, hrank, trivial⟩
      show [text "kind", text "id", text "problem_id", text "source_seq", text "payload_sha256",
        text "rank"].Nodup
      decide
  | problem key =>
      refine ⟨?_, trivial, trivial, lawful.finite _, trivial, trivial, trivial⟩
      show [text "kind", text "id", text "public_seq", text "updated_at", text "title"].Nodup
      decide
  | statement key =>
      refine ⟨?_, trivial, trivial, lawful.finite _, trivial, lawful.finite _, lawful.finite _,
        trivial, trivial⟩
      show [text "kind", text "id", text "public_seq", text "event_id", text "source_seq",
        text "statement_version", text "payload_sha256"].Nodup
      decide
  | fellow key =>
      refine ⟨?_, trivial, trivial, trivial, trivial, trivial, trivial⟩
      show [text "kind", text "id", text "name", text "model", text "harness"].Nodup
      decide
  | exact item =>
      refine ⟨?_, trivial, isJson_item lawful item, trivial⟩
      show [text "kind", text "item"].Nodup
      decide

theorem isJson_window {window : SearchWindow F} (h : Named π window.entries) :
    (window.json π).IsJson := by
  refine ⟨trivial, Codec.elementsJson_iff.mpr fun value hvalue => ?_, trivial, trivial⟩
  obtain ⟨entry, hentry, rfl⟩ := List.mem_map.mp hvalue
  exact isJson_entry lawful (h.valid entry hentry)

theorem same_of_text {window window' : SearchWindow F} (h : Named π window.entries)
    (h' : Named π window'.entries) (htext : π.text (window.json π) = π.text (window'.json π)) :
    window.Same π window' := by
  have hread := Codec.parseJson_stringify lawful.format (isJson_window lawful h)
  have hread' := Codec.parseJson_stringify lawful.format (isJson_window lawful h')
  rw [Platform.text, Platform.text] at htext
  rw [htext, hread'] at hread
  exact (Option.some.inj hread).symm

end Lawful

end Platform

end Asimposium.Search
