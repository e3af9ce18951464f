import Asimposium.Search.Page
import Mathlib.Data.Set.Function

/-!
# Consistency of the pages

SHA-256 is taken to tell the texts apart that the calls of a walk take
digests of. Then a cursor names the query and the window it was made from,
and the pages of a walk are cut, one after the other, from one window.
-/

namespace Asimposium.Search

open Codec (Number Value)
open Text (decimal trim)

variable {F : Type} {π : Platform F}

/-! ## What a cursor is read as -/

theorem readSearchContinuation_ok {query : SearchPageQuery} {continuation : SearchContinuation}
    (h : readSearchContinuation π query = .ok continuation) :
    query.isValid = true ∧ continuation.queryDigest = queryDigest π query
      ∧ (continuation.offset : Int) % query.limitOf = 0
      ∧ match query.cursor with
        | none => continuation.offset = 0 ∧ continuation.windowDigest = none
        | some cursor => ∃ windowDigest offsetText,
            cursorParts cursor = some (queryDigest π query, windowDigest, offsetText)
            ∧ continuation.offset = Codec.numeral offsetText
            ∧ continuation.windowDigest = some windowDigest := by
  unfold readSearchContinuation at h
  split at h
  · cases h
  rename_i hvalid
  dsimp only at h
  refine ⟨by simpa using hvalid, ?_⟩
  cases hcursor : query.cursor with
  | none =>
      rw [hcursor] at h
      cases h
      exact ⟨rfl, rfl, rfl, rfl⟩
  | some cursor =>
      rw [hcursor] at h
      dsimp only at h ⊢
      split at h
      · cases h
      rename_i boundQuery windowDigest offsetText hparts
      split at h
      · cases h
      rename_i hbound
      cases h
      rw [not_or, not_or, not_or, not_not, not_not] at hbound
      exact ⟨rfl, hbound.2.2.2, windowDigest, offsetText, hbound.1 ▸ hparts, rfl, rfl⟩

theorem nextSearchCursor_ok {queryDigest windowDigest : Text} {offset : Nat} {cursor : Text}
    (h : nextSearchCursor queryDigest windowDigest offset = .ok cursor) :
    cursor = cursorText queryDigest windowDigest offset ∧ 1 ≤ offset
      ∧ offset < searchWindowMax := by
  unfold nextSearchCursor at h
  split at h
  · cases h
  · rename_i hvalid
    cases h
    simp only [Bool.or_eq_true, Bool.not_eq_true', decide_eq_true_eq, not_or] at hvalid
    exact ⟨rfl, by omega, by omega⟩

/-! ## A page and its windows -/

structure PageRead (π : Platform F) (query : SearchPageQuery) (call : Call F)
    (page : SearchPage F) (continuation : SearchContinuation) (window current : SearchWindow F) :
    Prop where
  read : readSearchContinuation π query = .ok continuation
  before : readSearchWindow π call.before query call.ftsQuery call.exactItems = .ok window
  after : ∃ refreshed, call.refreshed = some refreshed
    ∧ readSearchWindow π call.after query call.ftsQuery refreshed = .ok current
  unchanged : searchDigest π (current.json π) = searchDigest π (window.json π)
  bound : ∀ digest ∈ continuation.windowDigest, digest = searchDigest π (window.json π)
  offset : continuation.offset < window.entries.length ∨ continuation.offset = 0
  items : page.items.map (·.identity π)
    = ((window.entries.map (·.identity π)).take
        (pageEnd query continuation.offset window.entries.length)).drop continuation.offset
  cursor : pageCursor continuation.queryDigest (searchDigest π (window.json π))
    (pageEnd query continuation.offset window.entries.length) window.entries.length
      = .ok page.cursor

namespace PageRead

variable {query : SearchPageQuery} {call : Call F} {page : SearchPage F}
  {continuation : SearchContinuation} {window current : SearchWindow F}

theorem limit (h : PageRead π query call page continuation window current) :
    1 ≤ query.limitOf := by
  have hvalid := (readSearchContinuation_ok h.read).1
  simp only [SearchPageQuery.isValid, Bool.and_eq_true, decide_eq_true_eq] at hvalid
  exact hvalid.1.2

theorem issued (h : PageRead π query call page continuation window current) {cursor : Text}
    (hcursor : page.cursor = some cursor) :
    ∃ stop, stop = pageEnd query continuation.offset window.entries.length
      ∧ stop < window.entries.length ∧ 1 ≤ stop ∧ stop < searchWindowMax
      ∧ (stop : Int) % query.limitOf = 0
      ∧ cursor = cursorText (queryDigest π query) (searchDigest π (window.json π)) stop := by
  obtain ⟨-, hquery, hmultiple, -⟩ := readSearchContinuation_ok h.read
  have hlimit := h.limit
  have hnext := h.cursor
  rw [hcursor, pageCursor] at hnext
  split at hnext
  · rename_i hstop
    obtain ⟨cursor', hok, heq⟩ := ExceptRun.map_ok.mp hnext
    cases heq
    obtain ⟨rfl, hlow, hhigh⟩ := nextSearchCursor_ok hok
    refine ⟨_, rfl, hstop, hlow, hhigh, ?_, by rw [hquery]⟩
    have hfull : (pageEnd query continuation.offset window.entries.length : Int)
        = continuation.offset + query.limitOf := by
      unfold pageEnd at hstop ⊢
      omega
    rw [hfull, Int.add_emod, hmultiple, Int.emod_self, Int.add_zero, Int.zero_emod]
  · cases hnext

theorem ended (h : PageRead π query call page continuation window current)
    (hcursor : page.cursor = none) :
    pageEnd query continuation.offset window.entries.length = window.entries.length := by
  have hnext := h.cursor
  rw [hcursor, pageCursor] at hnext
  split at hnext
  · obtain ⟨cursor, -, heq⟩ := ExceptRun.map_ok.mp hnext
    cases heq
  · unfold pageEnd at *
    omega

end PageRead

/-! ## Digests that tell texts apart -/

theorem Kind.name_injective {kind kind' : Kind} (h : text kind.name = text kind'.name) :
    kind = kind' := by
  cases kind <;> cases kind' <;> first | rfl | exact absurd h (by decide)

structure Digested (π : Platform F) (texts : Set Text) (query : SearchPageQuery) (call : Call F) :
    Prop where
  bound : π.text (boundValue π query.bound) ∈ texts
  before : ∀ window, readSearchWindow π call.before query call.ftsQuery call.exactItems
    = .ok window → π.text (window.json π) ∈ texts
  after : ∀ refreshed window, call.refreshed = some refreshed →
    readSearchWindow π call.after query call.ftsQuery refreshed = .ok window →
    π.text (window.json π) ∈ texts

section Walks

variable (lawful : π.Lawful) {texts : Set Text} (hinjective : Set.InjOn π.sha256Hex texts)

include lawful hinjective

theorem PageRead.same {query : SearchPageQuery} {call : Call F} {page : SearchPage F}
    {continuation : SearchContinuation} {window current : SearchWindow F}
    (h : PageRead π query call page continuation window current)
    (hdigested : Digested π texts query call) : current.Same π window := by
  obtain ⟨refreshed, hrefreshed, hafter⟩ := h.after
  exact same_of_text lawful (readSearchWindow_named hafter).1 (readSearchWindow_named h.before).1
    (hinjective (hdigested.after refreshed current hrefreshed hafter)
      (hdigested.before window h.before) h.unchanged)

theorem PageRead.resumed {query : SearchPageQuery} {call : Call F} {page : SearchPage F}
    {continuation : SearchContinuation} {window current : SearchWindow F}
    (h : PageRead π query call page continuation window current)
    (hdigested : Digested π texts query call) {issued : SearchWindow F} {digest : Text}
    {offset : Nat} (hnamed : Named π issued.entries) (htext : π.text (issued.json π) ∈ texts)
    (hdigest : isHex64 digest = true) (hlow : 1 ≤ offset) (hhigh : offset < searchWindowMax)
    (hcursor : query.cursor
      = some (cursorText digest (searchDigest π (issued.json π)) offset)) :
    digest = queryDigest π query ∧ continuation.offset = offset
      ∧ searchDigest π (window.json π) = searchDigest π (issued.json π)
      ∧ issued.Same π window := by
  obtain ⟨-, -, -, hread⟩ := readSearchContinuation_ok h.read
  rw [hcursor] at hread
  obtain ⟨windowDigest, offsetText, hparts, hoffset, hwindow⟩ := hread
  have hissued : cursorParts (cursorText digest (searchDigest π (issued.json π)) offset)
      = some (digest, searchDigest π (issued.json π), decimal offset) :=
    cursorParts_cursorText hdigest (lawful.hex _) hlow hhigh
  rw [hissued] at hparts
  simp only [Option.some.injEq, Prod.mk.injEq] at hparts
  obtain ⟨hquery, rfl, rfl⟩ := hparts
  rw [Codec.numeral_decimal] at hoffset
  have hbound := h.bound _ hwindow
  exact ⟨hquery, hoffset, hbound.symm, same_of_text lawful hnamed (readSearchWindow_named h.before).1
    (hinjective htext (hdigested.before window h.before) hbound)⟩

end Walks

/-! ## Walks -/

/-- A call for this query, kind and limit with this cursor, whatever happens
to the index meanwhile, that ends with these items and the next cursor. -/
def Served [DecidableEq F] (π : Platform F) (texts : Set Text) (bound : Text × Kind × Int)
    (cursor : Option Text) (items : List (SearchResultItem F)) (next : Option (Option Text)) :
    Prop :=
  ∃ query call page, query.bound = bound ∧ query.cursor = cursor ∧ Digested π texts query call
    ∧ search π query call = .ok page ∧ items = page.items ∧ next = page.cursor.map some

def LeftAt (π : Platform F) (window : SearchWindow F) (bound : Text × Kind × Int)
    (cursor : Option Text) (left : List Text) : Prop :=
  ∃ offset, cursor = some (cursorText (searchDigest π (boundValue π bound))
      (searchDigest π (window.json π)) offset)
    ∧ 1 ≤ offset ∧ offset < searchWindowMax
    ∧ left = (window.entries.map (·.identity π)).drop offset

theorem PageRead.leaves {query : SearchPageQuery} {call : Call F} {page : SearchPage F}
    {continuation : SearchContinuation} {window current issued : SearchWindow F}
    (h : PageRead π query call page continuation window current)
    (hnames : issued.entries.map (·.identity π) = window.entries.map (·.identity π))
    (hdigest : searchDigest π (window.json π) = searchDigest π (issued.json π)) :
    ∃ rest, (issued.entries.map (·.identity π)).drop continuation.offset
        = page.items.map (·.identity π) ++ rest
      ∧ Paging.Remains (LeftAt π issued query.bound) rest (page.cursor.map some) := by
  have hoffset := h.offset
  have hlimit := h.limit
  have hstart : continuation.offset
      ≤ pageEnd query continuation.offset window.entries.length := by
    unfold pageEnd
    omega
  have hlength : (window.entries.map (·.identity π)).length = window.entries.length :=
    List.length_map _
  rw [hnames]
  refine ⟨(window.entries.map (·.identity π)).drop
    (pageEnd query continuation.offset window.entries.length), ?_, ?_⟩
  · rw [h.items]
    conv_lhs => rw [← List.take_append_drop
      (pageEnd query continuation.offset window.entries.length)
      (window.entries.map (·.identity π))]
    refine List.drop_append_of_le_length ?_
    rw [List.length_take, hlength]
    omega
  · cases hcursor : page.cursor with
    | none =>
        show List.drop _ _ = []
        rw [h.ended hcursor, ← hlength, List.drop_length]
    | some cursor =>
        obtain ⟨stop, rfl, -, hlow, hhigh, -, hcursor⟩ := h.issued hcursor
        refine ⟨_, ?_, hlow, hhigh, by rw [hnames]⟩
        rw [hcursor, hdigest]
        rfl

section Served

variable [DecidableEq F] (lawful : π.Lawful) {texts : Set Text}
  (hinjective : Set.InjOn π.sha256Hex texts)

include lawful hinjective

end Served

/-! ## A search for one Fellow -/

abbrev SampleFloat := { n : Nat // 0 < n }

def sampleNumber (n : Int) : Number SampleFloat :=
  if h : 0 < n.natAbs then .finite (decide (n < 0)) ⟨n.natAbs, h⟩ else .zero false

def sampleHash (t : Text) : Text :=
  List.replicate 63 (unit '0') ++ [if t.length < 50 then unit '0' else unit '1']

def samplePlatform : Platform SampleFloat where
  format := Codec.integers
  number := sampleNumber
  sha256Hex := sampleHash
  toFixed2 _ := []
  encodeURIComponent t := some t
  receiptNotice _ := some none

theorem sample_lawful : samplePlatform.Lawful where
  format := Codec.integers_lawful
  finite n := by
    show (sampleNumber n).isFinite = true
    unfold sampleNumber
    split <;> rfl
  number m n _ _ h := by
    change (sampleNumber m).unsigned = (sampleNumber n).unsigned at h
    unfold sampleNumber at h
    split at h <;> split at h
    · simp only [Number.unsigned, Number.finite.injEq, decide_eq_decide, Subtype.mk.injEq] at h
      omega
    · cases h
    · cases h
    · omega
  hex t := by
    show isHex64 (sampleHash t) = true
    unfold sampleHash
    split <;> rfl

def sampleQuery : SearchPageQuery where
  q := text "socrates"
  kind := some .fellow
  limit := some 1
  cursor := none

end Asimposium.Search
