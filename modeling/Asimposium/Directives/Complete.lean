import Asimposium.Directives.Walks
import Asimposium.Search.Consistency

/-!
# A read is complete or refused

The caller requests what `next_url` names until there is no more. Each page
but the first names the snapshot of the first, so that all of them are read
from the same rows, up to acknowledgements; and each continues after the last
forbid of the page before.
-/

namespace Asimposium.Directives

open Codec (Number Value)
open Text (decimal)

section Cursors

variable {F : Type} {π : Platform F} {binding : Binding} {query : ActiveDirectiveQuery}

theorem readCursor_ok {expected : Option Nat} {after : Nat}
    (h : readCursor π binding query = .ok (expected, after)) :
    query.cursor = none ∧ expected = none ∧ after = 0
      ∨ ∃ cursor snapshotText afterText, query.cursor = some cursor
        ∧ cursorParts cursor = some (queryDigest π binding query, snapshotText, afterText)
        ∧ expected = some (Codec.numeral snapshotText) ∧ after = Codec.numeral afterText := by
  unfold readCursor at h
  split at h
  · rename_i hnone
    cases h
    exact .inl ⟨hnone, rfl, rfl⟩
  · rename_i cursor hcursor
    split at h
    · cases h
    rename_i boundQuery snapshotText afterText hparts
    dsimp only at h
    split at h
    · cases h
    rename_i hgood
    rw [not_or, not_not] at hgood
    cases h
    exact .inr ⟨cursor, snapshotText, afterText, hcursor, hgood.1 ▸ hparts, rfl, rfl⟩

theorem readCursor_cursorText (lawful : π.Lawful) {query' : ActiveDirectiveQuery}
    {snapshot last : Nat} {expected : Option Nat} {after : Nat}
    (hcursor : query'.cursor = some (cursorText (queryDigest π binding query) snapshot last))
    (hvalid : query'.isValid = true)
    (h : readCursor π binding query' = .ok (expected, after)) :
    expected = some snapshot ∧ after = last := by
  have hgood : isCursor (cursorText (queryDigest π binding query) snapshot last) = true :=
    (ActiveDirectiveQuery.valid_cases hvalid).2.2.2 _ hcursor
  have hparts := cursorParts_cursorText (lawful.hex _) hgood
  rcases readCursor_ok h with ⟨hnone, _⟩ | ⟨cursor, _, _, hsome, hread, rfl, rfl⟩
  · rw [hcursor] at hnone
    cases hnone
  · rw [hcursor] at hsome
    obtain rfl := Option.some.inj hsome
    rw [queryDigest, hparts] at hread
    simp only [Option.some.injEq, Prod.mk.injEq] at hread
    obtain ⟨_, rfl, rfl⟩ := hread
    rw [Codec.numeral_decimal, Codec.numeral_decimal]
    exact ⟨rfl, rfl⟩

end Cursors

/-! ## Walks -/

section Walks

variable {F : Type} (π : Platform F) (binding : Binding)

/-- A caller that follows `next_url` until there is no more, and the tables
that each page was read from. -/
inductive Walk : Db → ActiveDirectiveQuery → List (Db × ActiveDirectiveResponse) → Prop
  | last {db : Db} {query : ActiveDirectiveQuery} {page : ActiveDirectiveResponse}
      (hread : readActiveDirectivePage π db true binding query = .ok page)
      (hend : page.hasMore = false) : Walk db query [(db, page)]
  | more {db db' : Db} {query query' : ActiveDirectiveQuery} {page : ActiveDirectiveResponse}
      {rest : List (Db × ActiveDirectiveResponse)}
      (hread : readActiveDirectivePage π db true binding query = .ok page)
      (hurl : page.nextUrl = some query'.url) (hsteps : Steps db db')
      (hrest : Walk db' query' rest) : Walk db query ((db, page) :: rest)

variable {π binding}

theorem Walk.head {db : Db} {query : ActiveDirectiveQuery}
    {pages : List (Db × ActiveDirectiveResponse)} (h : Walk π binding db query pages) :
    ∃ page, readActiveDirectivePage π db true binding query = .ok page := by
  cases h with
  | last hread _ => exact ⟨_, hread⟩
  | more hread _ _ _ => exact ⟨_, hread⟩

def bareReceipt (binding : Binding) (row : ActiveDirectiveRow) : Receipt :=
  (receipt binding row).bare

theorem map_bareReceipt (rows : List ActiveDirectiveRow) :
    (rows.map ActiveDirectiveRow.bare).map (bareReceipt binding)
      = rows.map (bareReceipt binding) := by
  rw [List.map_map]
  rfl

theorem distinct_of_bare {rows rows' : List ActiveDirectiveRow}
    (hbare : rows'.map ActiveDirectiveRow.bare = rows.map ActiveDirectiveRow.bare)
    (h : rows.Pairwise fun a b => a.seq ≠ b.seq) : rows'.Pairwise fun a b => a.seq ≠ b.seq := by
  have hseq : rows'.map (·.seq) = rows.map (·.seq) := by
    have hmapped := congrArg (List.map (·.seq)) hbare
    rw [List.map_map, List.map_map] at hmapped
    exact hmapped
  have hmapped : (rows.map (·.seq)).Pairwise (· ≠ ·) := List.pairwise_map.mpr h
  rw [← hseq] at hmapped
  exact List.pairwise_map.mp hmapped

/-- The request that a page's `next_url` names. -/
theorem Served.next {db : Db} {query query' : ActiveDirectiveQuery} {expected : Option Nat}
    {after : Nat} {page : ActiveDirectiveResponse}
    (h : Served π db binding query expected after page) (hvalid : query.isValid = true)
    (hvalid' : query'.isValid = true) (hurl : page.nextUrl = some query'.url) :
    ∃ last, ((forbidsAfter (applicable db binding query.problemId) after).take
        query.limit.toNat).getLast? = some last
      ∧ query' = { query with cursor := some (cursorText (queryDigest π binding query)
        (snapshotSeq (applicable db binding query.problemId)) last.seq) } := by
  obtain ⟨cursor, hcursor, hnamed⟩ := Option.map_eq_some_iff.mp (h.url.symm.trans hurl)
  have hmore : page.hasMore = true := by
    cases hmore : page.hasMore with
    | true => rfl
    | false =>
        have hnone := h.cursor
        rw [hmore, if_neg Bool.false_ne_true, hcursor] at hnone
        cases hnone
  have hgood : isCursor cursor = true := by
    have hall := h.valid
    rw [ActiveDirectiveResponse.isValid, hmore, if_pos rfl, hcursor] at hall
    simp only [Bool.and_eq_true] at hall
    exact hall.2.1
  have hmade := h.cursor
  rw [hmore, if_pos rfl, hcursor] at hmade
  obtain ⟨last, hlast, rfl⟩ := Option.map_eq_some_iff.mp hmade.symm
  refine ⟨last, hlast, ?_⟩
  have hvalidNext : ActiveDirectiveQuery.isValid { query with
      cursor := some (cursorText (queryDigest π binding query)
        (snapshotSeq (applicable db binding query.problemId)) last.seq) } = true := by
    simp only [ActiveDirectiveQuery.isValid, Bool.and_eq_true] at hvalid ⊢
    exact ⟨hvalid.1, hgood⟩
  exact ActiveDirectiveQuery.eq_of_url hvalid' hvalidNext hnamed.symm

/-- What is read at one moment of what was there at the first. -/
structure SameAs (db db' : Db) (binding : Binding) (problemId : Option Text) : Prop where
  rows : (applicable db' binding problemId).map ActiveDirectiveRow.bare
    = (applicable db binding problemId).map ActiveDirectiveRow.bare
  directives : ∀ d ∈ db'.directives, isScoped binding problemId d = true →
    (receiptOf? db' d).isSome → d ∈ db.directives ∧ (receiptOf? db d).isSome

theorem SameAs.refl (db : Db) (problemId : Option Text) : SameAs db db binding problemId :=
  ⟨rfl, fun _ hd _ hsome => ⟨hd, hsome⟩⟩

theorem Walk.reads (lawful : π.Lawful) {db : Db} {query : ActiveDirectiveQuery}
    {pages : List (Db × ActiveDirectiveResponse)} (hwalk : Walk π binding db query pages)
    (hdistinct : (applicable db binding query.problemId).Pairwise fun a b => a.seq ≠ b.seq)
    {expected : Option Nat} {after : Nat}
    (hcursor : readCursor π binding query = .ok (expected, after)) :
    (pages.flatMap fun p => p.2.forbids.map Receipt.bare)
      = (forbidsAfter (applicable db binding query.problemId) after).map (bareReceipt binding)
    ∧ ∀ p ∈ pages, SameAs db p.1 binding query.problemId
      ∧ p.2.focus.map Receipt.bare
        = (latestFocus (applicable db binding query.problemId)).map (bareReceipt binding) := by
  induction hwalk generalizing expected after with
  | @last db query page hread hend =>
      obtain ⟨_, expected', after', hcursor', hserved⟩ := readActiveDirectivePage_ok hdistinct hread
      obtain ⟨rfl, rfl⟩ := Prod.mk.inj (Except.ok.inj (hcursor'.symm.trans hcursor))
      have hall : (forbidsAfter (applicable db binding query.problemId) after').take
          query.limit.toNat = forbidsAfter (applicable db binding query.problemId) after' := by
        have hmore := hserved.hasMore
        rw [hend] at hmore
        exact List.take_of_length_le (Nat.le_of_not_lt (of_decide_eq_false hmore.symm))
      constructor
      · rw [List.flatMap_singleton, hserved.forbids, hall, List.map_map]
        rfl
      · rw [List.forall_mem_singleton]
        refine ⟨.refl db _, ?_⟩
        rw [hserved.focus, Option.map_map]
        rfl
  | @more db db' query query' page rest hread hurl hsteps hrest ih =>
      obtain ⟨hvalid, expected', after', hcursor', hserved⟩ :=
        readActiveDirectivePage_ok hdistinct hread
      obtain ⟨rfl, rfl⟩ := Prod.mk.inj (Except.ok.inj (hcursor'.symm.trans hcursor))
      obtain ⟨page', hread'⟩ := hrest.head
      obtain ⟨hvalid', expected'', after'', _, _, _, hcursor'', _, hnamed, _⟩ :=
        readActiveDirectivePage_rows hread'
      obtain ⟨last, hlast, rfl⟩ := hserved.next hvalid hvalid' hurl
      obtain ⟨rfl, rfl⟩ := readCursor_cursorText lawful rfl hvalid' hcursor''
      -- the next page is of the same snapshot
      obtain ⟨hrows, hdirectives⟩ := hsteps.grows.same_snapshot (hnamed _ rfl).symm
      obtain ⟨hforbids, hpages⟩ := ih (distinct_of_bare hrows hdistinct) hcursor''
      have hleft : (forbidsAfter (applicable db' binding query.problemId) last.seq).map
            (bareReceipt binding)
          = (forbidsAfter (applicable db binding query.problemId) last.seq).map
            (bareReceipt binding) := by
        rw [← map_bareReceipt, forbidsAfter_bare, hrows, ← forbidsAfter_bare, map_bareReceipt]
      have hfocus : (latestFocus (applicable db' binding query.problemId)).map
            (bareReceipt binding)
          = (latestFocus (applicable db binding query.problemId)).map (bareReceipt binding) := by
        have hbare := latestFocus_bare (applicable db' binding query.problemId)
        rw [hrows, ← latestFocus_bare] at hbare
        have hmapped := congrArg (Option.map (bareReceipt binding)) hbare
        rw [Option.map_map, Option.map_map] at hmapped
        exact hmapped
      constructor
      · -- it continues after the last of this one
        have hsplit := (List.take_append_drop query.limit.toNat
          (forbidsAfter (applicable db binding query.problemId) after')).symm
        have hdrop : forbidsAfter (applicable db binding query.problemId) last.seq
            = (forbidsAfter (applicable db binding query.problemId) after').drop
              query.limit.toNat := by
          rw [forbidsAfter_eq hdistinct last.seq]
          rw [forbidsAfter_eq hdistinct after'] at hsplit hlast ⊢
          exact Paging.filter_after_last (ordered_pairwise (hdistinct.filter _)) hsplit hlast
        rw [List.flatMap_cons, hforbids, hleft, hserved.forbids, hdrop]
        conv_rhs => rw [hsplit, List.map_append]
        rw [List.map_map]
        rfl
      · rw [List.forall_mem_cons]
        refine ⟨⟨.refl db _, ?_⟩, fun p hp => ?_⟩
        · rw [hserved.focus, Option.map_map]
          rfl
        · obtain ⟨hsame, hfocus'⟩ := hpages p hp
          refine ⟨⟨hsame.rows.trans hrows, fun d hd hscoped hsome => ?_⟩, hfocus'.trans hfocus⟩
          obtain ⟨hmem, hreceipt⟩ := hsame.directives d hd hscoped hsome
          exact hdirectives d hmem hscoped hreceipt

end Walks

/-! ## Cursors of other requests -/

section Refusals

variable {F : Type} {π : Platform F} {binding binding' : Binding}
  {query query' : ActiveDirectiveQuery}

def bound (binding : Binding) (query : ActiveDirectiveQuery) :
    Text × Text × Text × Option Text × Int :=
  (binding.fellowId, binding.sponsorId, binding.credentialId, query.problemId, query.limit)

theorem bound_of_queryText (lawful : π.Lawful) (hvalid : query.isValid = true)
    (hvalid' : query'.isValid = true)
    (h : queryText π binding query = queryText π binding' query') :
    bound binding query = bound binding' query' := by
  have hproblem : ∀ problemId : Option Text, (problemValue problemId : Value F).IsJson := by
    intro problemId
    cases problemId <;> trivial
  have hjson : ∀ (binding : Binding) (query : ActiveDirectiveQuery),
      (queryValue π binding query).IsJson := fun _ query =>
    ⟨trivial, trivial, trivial, trivial, hproblem query.problemId, lawful.finite _, trivial⟩
  have hsafe : ∀ {query : ActiveDirectiveQuery}, query.isValid = true →
      isSafeInteger query.limit = true := by
    intro query hvalid
    obtain ⟨_, hlow, hhigh, _⟩ := ActiveDirectiveQuery.valid_cases hvalid
    refine decide_eq_true ?_
    have : maxSafeInteger = 9007199254740991 := rfl
    omega
  have hread := Codec.parseJson_stringify lawful.format (hjson binding query)
  have hread' := Codec.parseJson_stringify lawful.format (hjson binding' query')
  rw [queryText, queryText] at h
  rw [h, hread'] at hread
  have hvalue := Option.some.inj hread
  simp only [queryValue, Value.unsigned, Codec.unsignedElements, Value.arr.injEq, List.cons.injEq,
    Value.str.injEq, Value.num.injEq, true_and, and_true] at hvalue
  obtain ⟨hfellow, hsponsor, hcredential, hproblemId, hlimit⟩ := hvalue
  have hproblems : query'.problemId = query.problemId := by
    cases hnew : query'.problemId <;> cases hold : query.problemId <;>
      rw [hnew, hold] at hproblemId
    · cases hproblemId
    · cases hproblemId
    · rw [Value.str.inj hproblemId]
  rw [bound, bound, hfellow, hsponsor, hcredential, hproblems,
    lawful.number _ _ (hsafe hvalid') (hsafe hvalid) hlimit]

theorem readCursor_refuses (lawful : π.Lawful) (hvalid : query.isValid = true)
    (hvalid' : query'.isValid = true) {snapshot last : Nat}
    (hcursor : query'.cursor = some (cursorText (queryDigest π binding query) snapshot last))
    (hne : bound binding' query' ≠ bound binding query)
    (hcollision : queryDigest π binding' query' = queryDigest π binding query →
      queryText π binding' query' = queryText π binding query) :
    readCursor π binding' query' = .error .invalid := by
  have hgood : isCursor (cursorText (queryDigest π binding query) snapshot last) = true :=
    (ActiveDirectiveQuery.valid_cases hvalid').2.2.2 _ hcursor
  have hparts := cursorParts_cursorText (lawful.hex _) hgood
  rw [readCursor, hcursor]
  dsimp only
  rw [queryDigest, hparts]
  refine if_pos (.inl fun hsame => hne ?_)
  exact bound_of_queryText lawful hvalid' hvalid (hcollision hsame.symm)

theorem nextCursor_of_read {db : Db} {success : Bool} {page : ActiveDirectiveResponse}
    {cursor : Text} (h : readActiveDirectivePage π db success binding query = .ok page)
    (hcursor : page.nextCursor = some cursor) :
    ∃ snapshot last, cursor = cursorText (queryDigest π binding query) snapshot last := by
  obtain ⟨_, _, _, _, _, _, _, _, _, rfl, _⟩ := readActiveDirectivePage_rows h
  rw [respond] at hcursor
  dsimp only at hcursor
  split at hcursor
  · obtain ⟨last, _, rfl⟩ := Option.map_eq_some_iff.mp hcursor
    exact ⟨_, _, rfl⟩
  · cases hcursor

end Refusals

/-! ## Complete or refused -/

/-- Every page is read with authority. A walk that ends has read the forbids
of its first snapshot, in their order and once each, with its focus on every
page, and no applicable directive was committed meanwhile. A cursor issued
for another credential, problem or limit is refused, as long as SHA-256 tells
the two apart. -/
theorem active_directives_complete {F : Type} {π : Platform F} (lawful : π.Lawful) :
    (∀ db success binding query page,
      readActiveDirectivePage π db success binding query = .ok page →
      ∃ f t g, Authorized π db binding query.problemId f t g)
    ∧ (∀ (db : Db) (binding : Binding) (query : ActiveDirectiveQuery)
        (pages : List (Db × ActiveDirectiveResponse)), db.Numbered → query.cursor = none →
      Walk π binding db query pages →
      (pages.flatMap fun p => p.2.forbids.map Receipt.bare)
          = (ordered ((applicable db binding query.problemId).filter (·.verb == .forbid))).map
            (bareReceipt binding)
      ∧ (pages.flatMap fun p => p.2.forbids).Pairwise (fun a b => a.seq < b.seq)
      ∧ (∃ focus, IsLatest (applicable db binding query.problemId) focus
        ∧ ∀ p ∈ pages, p.2.focus.map Receipt.bare = focus.map (bareReceipt binding))
      ∧ ∀ p ∈ pages, ∀ d ∈ p.1.directives, isScoped binding query.problemId d = true →
        (receiptOf? p.1 d).isSome → d ∈ db.directives ∧ (receiptOf? db d).isSome)
    ∧ ∀ db db' success success' binding binding' query query' page cursor,
      readActiveDirectivePage π db success binding query = .ok page →
      page.nextCursor = some cursor → query'.cursor = some cursor →
      bound binding' query' ≠ bound binding query →
      (queryDigest π binding' query' = queryDigest π binding query →
        queryText π binding' query' = queryText π binding query) →
      readActiveDirectivePage π db' success' binding' query' = .error .invalid := by
  refine ⟨?_, ?_, ?_⟩
  · intro db success binding query page h
    obtain ⟨_, _, _, f, t, g, _, hauthorized, _⟩ := readActiveDirectivePage_rows h
    exact ⟨f, t, g, hauthorized⟩
  · intro db binding query pages hnumbered hfirst hwalk
    have hdistinct : (applicable db binding query.problemId).Pairwise fun a b => a.seq ≠ b.seq :=
      applicable_distinct hnumbered
    have hcursor : readCursor π binding query = .ok (none, 0) := by rw [readCursor, hfirst]
    obtain ⟨hforbids, hpages⟩ := hwalk.reads lawful hdistinct hcursor
    -- every number is positive, so none was skipped
    have hall : forbidsAfter (applicable db binding query.problemId) 0
        = ordered ((applicable db binding query.problemId).filter (·.verb == .forbid)) := by
      rw [forbidsAfter_eq hdistinct, List.filter_eq_self]
      intro row hrow
      have hmem := (List.mem_filter.mp (mem_ordered.mp hrow)).1
      exact decide_eq_true (applicable_pos hnumbered hmem)
    rw [hall] at hforbids
    refine ⟨hforbids, ?_, ⟨_, isLatest_latestFocus _, fun p hp => (hpages p hp).2⟩,
      fun p hp => (hpages p hp).1.directives⟩
    have hascending : ((ordered ((applicable db binding query.problemId).filter
        (·.verb == .forbid))).map (bareReceipt binding)).Pairwise fun a b => a.seq < b.seq :=
      List.pairwise_map.mpr (ordered_pairwise (hdistinct.filter _))
    rw [← hforbids, ← List.map_flatMap, List.pairwise_map] at hascending
    exact hascending
  · intro db db' success success' binding binding' query query' page cursor h hissued hcursor hne
      hcollision
    obtain ⟨snapshot, last, rfl⟩ := nextCursor_of_read h hissued
    obtain ⟨hvalid, _⟩ := readActiveDirectivePage_rows h
    unfold readActiveDirectivePage
    cases hvalid' : query'.isValid with
    | false => rfl
    | true =>
        rw [readCursor_refuses lawful hvalid hvalid' hcursor hne hcollision]
        rfl

/-! A Fellow with a focus and two forbids, who reads one at a time. -/

def samplePlatform : Platform Search.SampleFloat where
  format := Codec.integers
  number := Search.sampleNumber
  sha256Hex := Search.sampleHash
  resources _ := ⟨none, none, none, none⟩

theorem sample_lawful : samplePlatform.Lawful where
  format := Codec.integers_lawful
  finite := Search.sample_lawful.finite
  number := Search.sample_lawful.number
  hex := Search.sample_lawful.hex

def sampleBinding : Binding := ⟨text "f", text "usr_s", text "c", text "h"⟩

def sampleDirective (digit : Char) (verb : Verb) (noticeId : String) : Directive where
  id := text "DIR-" ++ List.replicate 32 (unit digit)
  sponsorId := text "usr_s"
  fellowId := text "f"
  problemId := none
  verb := verb
  body := some (text "b")
  noticeId := text noticeId
  createdAt := 1

def sampleNotice (digit : Char) (seq : Nat) : Notice where
  fellowId := text "f"
  problemId := none
  noticeType := text "sponsor_directive"
  seq := seq
  targetId := some (text "DIR-" ++ List.replicate 32 (unit digit))
  acknowledgedAt := none

def sampleDb : Db where
  fellows id := if id = text "f" then some ⟨text "usr_s", text "active"⟩ else none
  tokens id := if id = text "c" then
      some ⟨text "f", text "usr_s", text "h", [], [], text "bearer", 1, 9, none⟩
    else none
  grants id := if id = text "f" then some ⟨text "usr_s", [], [], 1⟩ else none
  sponsors id := if id = text "usr_s" then some none else none
  panicAt _ := none
  problems _ := none
  notices id :=
    if id = text "n1" then some (sampleNotice '1' 1)
    else if id = text "n2" then some (sampleNotice '2' 2)
    else if id = text "n3" then some (sampleNotice '3' 3)
    else none
  directives := [sampleDirective '1' .forbid "n1", sampleDirective '2' .focus "n2",
    sampleDirective '3' .forbid "n3"]
  now := 5

def sampleQuery : ActiveDirectiveQuery := ⟨none, 1, none⟩

def sampleNext : ActiveDirectiveQuery :=
  ⟨none, 1, some (cursorText (queryDigest samplePlatform sampleBinding sampleQuery) 3 1)⟩

def samplePage (query : ActiveDirectiveQuery) (after : Nat) : ActiveDirectiveResponse :=
  respond samplePlatform sampleBinding query 3
    (ordered (selected (applicable sampleDb sampleBinding none) after 2))

theorem sample_first : readActiveDirectivePage samplePlatform sampleDb true sampleBinding sampleQuery
    = .ok (samplePage sampleQuery 0) := by decide +kernel

theorem sample_second : readActiveDirectivePage samplePlatform sampleDb true sampleBinding sampleNext
    = .ok (samplePage sampleNext 1) := by decide +kernel

theorem sample_notice {id : Text} {n : Notice} (h : sampleDb.notices id = some n) :
    id = text "n1" ∧ n.seq = 1 ∨ id = text "n2" ∧ n.seq = 2 ∨ id = text "n3" ∧ n.seq = 3 := by
  simp only [sampleDb] at h
  split at h
  · rename_i hid
    cases h
    exact .inl ⟨hid, rfl⟩
  split at h
  · rename_i hid
    cases h
    exact .inr (.inl ⟨hid, rfl⟩)
  split at h
  · rename_i hid
    cases h
    exact .inr (.inr ⟨hid, rfl⟩)
  · cases h

theorem sample_numbered : sampleDb.Numbered where
  positive _ _ h := by
    rcases sample_notice h with ⟨_, hseq⟩ | ⟨_, hseq⟩ | ⟨_, hseq⟩ <;> rw [hseq] <;> decide
  distinct _ _ _ _ h h' _ hsame := by
    rcases sample_notice h with ⟨rfl, hseq⟩ | ⟨rfl, hseq⟩ | ⟨rfl, hseq⟩ <;>
      rcases sample_notice h' with ⟨rfl, hseq'⟩ | ⟨rfl, hseq'⟩ | ⟨rfl, hseq'⟩ <;>
      first | rfl | omega
  directives := by decide

theorem active_directives_complete_sample :
    ([samplePage sampleQuery 0, samplePage sampleNext 1].flatMap fun page =>
        page.forbids.map Receipt.bare)
      = (ordered ((applicable sampleDb sampleBinding none).filter (·.verb == .forbid))).map
        (bareReceipt sampleBinding) := by
  have hwalk : Walk samplePlatform sampleBinding sampleDb sampleQuery
      [(sampleDb, samplePage sampleQuery 0), (sampleDb, samplePage sampleNext 1)] :=
    .more sample_first rfl .refl (.last sample_second rfl)
  exact ((active_directives_complete sample_lawful).2.1 sampleDb sampleBinding sampleQuery _
    sample_numbered rfl hwalk).1

end Asimposium.Directives
