import Asimposium.Hypotheses.Listing
import Asimposium.Lib.ExceptRun

/-!
# Damaged bodies

Two problems with the same envelopes, of which one has lost bodies to
redaction, controls, size or a changed digest. Which hypotheses a page lists,
and the envelopes it lists them with, is the same in both: a statement over
envelopes selects them. A body only ever takes a hypothesis off the frontier
where it is read wrongly, and puts it back only where it is read.
-/

namespace Asimposium.Hypotheses.Listing

open Text (byteLength)

variable {V C K L : Type} {π : Platform V C K L} {db db' : Db}

def body (π : Platform V C K L) (db : Db) (e : Event) : Option V :=
  verifiedContent π (db.payloadJson e) e.payloadSha256

/-- The body of an event is redacted, hidden, oversized, or no longer what its
digest says. -/
def IsDamaged (π : Platform V C K L) (db : Db) (e : Event) : Prop :=
  (∃ target ∈ e.targets, db.hides target = true)
    ∨ ∀ row, db.content e.id = some row → row.isRedacted = true
      ∨ hypothesisContentBytes < byteLength row.payloadJson
      ∨ row.payloadSha256 ≠ e.payloadSha256 ∨ π.sha256Hex row.payloadJson ≠ e.payloadSha256

/-- Some of the bodies are damaged, and nothing else is changed. -/
structure Damaged (π : Platform V C K L) (db db' : Db) : Prop where
  problemId : db'.problemId = db.problemId
  publicSeq : db'.publicSeq = db.publicSeq
  isPrivateDraft : db'.isPrivateDraft = db.isPrivateDraft
  unlisted : db'.unlisted = db.unlisted
  events : db'.events = db.events
  problem : db'.hides (text "problem") = db.hides (text "problem")
  hides : ∀ target, db.hides target = true → db'.hides target = true
  bodies : ∀ e ∈ db.events, IsDamaged π db' e
    ∨ db'.content e.id = db.content e.id ∧ ∀ target ∈ e.targets, db'.hides target = db.hides target

theorem body_of_damaged {e : Event} (h : IsDamaged π db e) : body π db e = none := by
  rw [body, Db.payloadJson]
  cases hrow : db.content e.id with
  | none => rfl
  | some row =>
      dsimp only
      split
      · rename_i hall
        obtain ⟨hsha, hredacted, hvisible, hsize⟩ := hall
        rw [verifiedContent, Option.bind_some, if_neg (Nat.not_lt.mpr hsize)]
        refine if_pos ?_
        rcases h with ⟨target, htarget, hhides⟩ | h
        · have hshown := List.all_eq_true.mp hvisible target htarget
          rw [hhides] at hshown
          cases hshown
        · rcases h row hrow with hgone | hlarge | hother | hdigest
          · rw [hredacted] at hgone
            cases hgone
          · omega
          · exact absurd hsha hother
          · exact hdigest
      · rfl

theorem Damaged.body (h : Damaged π db db') {e : Event} (he : e ∈ db.events) :
    Listing.body π db' e = none ∨ Listing.body π db' e = Listing.body π db e := by
  rcases h.bodies e he with hdamaged | ⟨hcontent, hhides⟩
  · exact .inl (body_of_damaged hdamaged)
  · refine .inr ?_
    have hvisible : e.targets.all (fun target => !db'.hides target)
        = e.targets.all fun target => !db.hides target := by
      rw [Bool.eq_iff_iff, List.all_eq_true, List.all_eq_true]
      exact forall₂_congr fun target htarget => by rw [hhides target htarget]
    rw [Listing.body, Listing.body, Db.payloadJson, Db.payloadJson, hcontent, hvisible]

/-! ## Items -/

variable {r : PageRow}

theorem recordedStatus_active (h : recordedStatus r = .lifecycle .active) :
    r.head.type = .created ∨ r.head.type = .resumed := by
  unfold recordedStatus at h
  split at h
  · cases h
  split at h
  · cases h
  split at h
  · rename_i hcreated
    exact .inl hcreated.1
  split at h
  · cases h
  · rename_i status hstatus
    cases h
    cases htype : r.head.type <;> rw [htype] at hstatus <;> first | exact .inr rfl | cases hstatus

theorem active_of_ite {p : Prop} [Decidable p] {status : PublicStatus}
    (h : (if p then status else .unavailable) = .lifecycle .active) :
    status = .lifecycle .active := by
  split at h
  · exact h
  · cases h

theorem active_of_ite' {p : Prop} [Decidable p] {status : PublicStatus}
    (h : (if p then .unavailable else status) = .lifecycle .active) :
    status = .lifecycle .active := by
  split at h
  · cases h
  · exact h

/-- A route is listed as active where the envelopes say so and, after a
resumption, its body is read and belongs to it. -/
theorem active_iff {r : Row} {publication last : Envelope} :
    (readItem π r publication last).status = .lifecycle .active ↔
      recordedStatus r.toPageRow = .lifecycle .active ∧ (r.head.type = .resumed →
        ∃ lifecycle, π.decoders.lifecycle.bind
            (· (verifiedContent π r.lastPayloadJson r.head.payloadSha256)) = some lifecycle
          ∧ belongs π r.toPageRow lifecycle = true) := by
  rw [readItem]
  dsimp only
  by_cases hrecorded : recordedStatus r.toPageRow = .lifecycle .active
  · rcases recordedStatus_active hrecorded with hcreated | hresumed
    · simp [hrecorded, hcreated, EventType.lifecycleStatus]
    · cases hdecoded : π.decoders.lifecycle.bind
          (· (verifiedContent π r.lastPayloadJson r.head.payloadSha256)) with
      | none => simp [hrecorded, hresumed, EventType.lifecycleStatus]
      | some lifecycle =>
          by_cases hown : belongs π r.toPageRow lifecycle = true <;>
            simp [hrecorded, hresumed, hown, EventType.lifecycleStatus]
  · -- no body makes it active
    refine ⟨fun h => absurd ?_ hrecorded, fun h => absurd h.1 hrecorded⟩
    exact active_of_ite (active_of_ite (active_of_ite' h))

theorem Damaged.active (lawful : π.Lawful) (h : Damaged π db db') (hhead : r.head ∈ db.events)
    {publication last : Envelope}
    (hactive : (readItem π (withContent db' r) publication last).status = .lifecycle .active) :
    (readItem π (withContent db r) publication last).status = .lifecycle .active := by
  obtain ⟨hrecorded, hresumed⟩ := active_iff.mp hactive
  refine active_iff.mpr ⟨hrecorded, fun htype => ?_⟩
  obtain ⟨lifecycle, hdecoded, hown⟩ := hresumed htype
  refine ⟨lifecycle, ?_, hown⟩
  change π.decoders.lifecycle.bind (· (Listing.body π db' r.head)) = some lifecycle at hdecoded
  change π.decoders.lifecycle.bind (· (Listing.body π db r.head)) = some lifecycle
  rcases h.body hhead with hlost | hsame
  · rw [hlost] at hdecoded
    obtain ⟨decode, hdecode, hsome⟩ := Option.bind_eq_some_iff.mp hdecoded
    rw [lawful.lifecycle decode hdecode] at hsome
    cases hsome
  · rwa [hsame] at hdecoded

/-! ## Pages -/

def PublicHypothesis.listed (item : PublicHypothesis C K L) : Text × Envelope × Envelope :=
  (item.hypothesisId, item.publication, item.lastEvent)

structure Withheld (item' item : PublicHypothesis C K L) : Prop where
  listed : item'.listed = item.listed
  active : item'.status = .lifecycle .active → item.status = .lifecycle .active

def checkRows (π : Platform V C K L) (cursor : Int) (target : Option Text) :
    List Text → Int → List PageRow → Except ReadError (List (PageRow × Envelope × Envelope))
  | _, _, [] => .ok []
  | ids, previous, r :: rest =>
      if !isPublicHypothesisId r.hypothesisId || ids.contains r.hypothesisId
          || target.any (· != r.hypothesisId) then
        .error .hypothesesUnavailable
      else match envelope π r.creation, envelope π r.head with
      | some publication, some last =>
          if (publication.seq : Int) ≤ previous ∨ last.seq < publication.seq ∨ cursor < last.seq then
            .error .hypothesesUnavailable
          else (checkRows π cursor target (r.hypothesisId :: ids) publication.seq rest).map
            ((r, publication, last) :: ·)
      | _, _ => .error .hypothesesUnavailable

def itemOf (π : Platform V C K L) (db : Db) (checked : PageRow × Envelope × Envelope) :
    PublicHypothesis C K L :=
  readItem π (withContent db checked.1) checked.2.1 checked.2.2

theorem readRows_eq (cursor : Int) (target : Option Text) (rows : List PageRow) (ids : List Text)
    (previous : Int) :
    readRows π cursor target ids previous (rows.map (withContent db))
      = (checkRows π cursor target ids previous rows).map (List.map (itemOf π db)) := by
  induction rows generalizing ids previous with
  | nil => rfl
  | cons r rows ih =>
      rw [List.map_cons, readRows, checkRows]
      by_cases hid : (!isPublicHypothesisId r.hypothesisId || ids.contains r.hypothesisId
          || target.any (· != r.hypothesisId)) = true
      · rw [if_pos hid]
        exact if_pos hid
      rw [if_neg hid]
      refine (if_neg hid).trans ?_
      have hcreation : envelope π (withContent db r).creation = envelope π r.creation := rfl
      have hhead : envelope π (withContent db r).head = envelope π r.head := rfl
      rw [hcreation, hhead]
      cases hpublication : envelope π r.creation with
      | none => rfl
      | some publication =>
          cases hlast : envelope π r.head with
          | none => rfl
          | some last =>
              dsimp only
              by_cases horder : (publication.seq : Int) ≤ previous ∨ last.seq < publication.seq
                  ∨ cursor < last.seq
              · rw [if_pos horder, if_pos horder]
                rfl
              rw [if_neg horder, if_neg horder]
              have hname : (withContent db r).hypothesisId = r.hypothesisId := rfl
              rw [hname, ih]
              cases checkRows π cursor target (r.hypothesisId :: ids) publication.seq rows <;> rfl

theorem checkRows_rows {cursor : Int} {target : Option Text} {rows : List PageRow}
    {ids : List Text} {previous : Int} {checked : List (PageRow × Envelope × Envelope)}
    (h : checkRows π cursor target ids previous rows = .ok checked) :
    checked.map (·.1) = rows := by
  induction rows generalizing ids previous checked with
  | nil => cases h; rfl
  | cons r rows ih =>
      rw [checkRows] at h
      split at h
      · cases h
      split at h
      · split at h
        · cases h
        obtain ⟨rest, hrest, rfl⟩ := ExceptRun.map_ok.mp h
        rw [List.map_cons, ih hrest]
      · cases h

/-- A page by its envelopes: its rows and where it continues. -/
def readPage (π : Platform V C K L) (db : Db) (query : HypothesisReadQuery)
    (selection : Selection) :
    Except ReadError (Option (List (PageRow × Envelope × Envelope) × Option Nat)) :=
  let after := query.after.getD 0
  let exact := selection.target.isSome
  let limit := selection.pageLimit
  if isRefused db query selection then .error .cursorInvalid
  else if !sequence limit 1 || hypothesisPageSize < limit then .error .hypothesesUnavailable
  else
    let cursor := query.through.getD db.publicSeq
    let rows := page db cursor after selection.rowLimit selection
    if !db.isServed then .ok none
    else if !sequence db.publicSeq 0 || !sequence cursor 0 then .error .hypothesesUnavailable
    else if db.publicSeq < cursor ∨ cursor < after then .error .cursorInvalid
    else if exact && rows.isEmpty then .ok none
    else (checkRows π cursor selection.target [] after (rows.take limit.toNat)).map fun checked =>
      some (checked, if !exact && limit < rows.length then
        checked.getLast?.map (·.2.1.seq) else none)

def faceOf (π : Platform V C K L) (db : Db) (query : HypothesisReadQuery)
    (checked : List (PageRow × Envelope × Envelope)) (next : Option Nat) :
    HypothesesResponse C K L where
  problemId := db.problemId
  cursor := query.through.getD db.publicSeq
  after := query.after.getD 0
  hypotheses := checked.map (itemOf π db)
  nextAfter := next
  omitted := firstOccurrences
    ((checked.map (itemOf π db)).flatMap omissions ++ if next.isSome then [.pageLimit] else [])

theorem readHypotheses_eq (query : HypothesisReadQuery) (selection : Selection) :
    readHypotheses π db query selection = (readPage π db query selection).map
      (Option.map fun page => (faceOf π db query page.1 page.2, db.unlisted)) := by
  unfold readHypotheses readPage
  dsimp only
  split
  · rfl
  split
  · rfl
  split
  · rfl
  split
  · rfl
  split
  · rfl
  rw [hypothesisRows, List.isEmpty_map, List.length_map, ← List.map_take, readRows_eq]
  split
  · rfl
  cases checkRows π (query.through.getD db.publicSeq) selection.target [] (query.after.getD 0)
    ((page db (query.through.getD db.publicSeq) (query.after.getD 0) selection.rowLimit
      selection).take selection.pageLimit.toNat) with
  | error e => rfl
  | ok checked =>
      simp only [Except.map, Option.map_some, faceOf, List.getLast?_map, Option.map_map]
      rfl

theorem Damaged.items (lawful : π.Lawful) (h : Damaged π db db')
    {checked : List (PageRow × Envelope × Envelope)}
    (hrows : ∀ t ∈ checked, t.1.head ∈ db.events) :
    List.Forall₂ Withheld (checked.map (itemOf π db')) (checked.map (itemOf π db)) := by
  rw [List.forall₂_map_left_iff, List.forall₂_map_right_iff, List.forall₂_same]
  exact fun t ht => ⟨rfl, h.active lawful (hrows t ht)⟩

/-! ## Reads -/

theorem pageRow_some {scope : List Event} {creation : Event} (h : pageRow scope creation = some r) :
    r.hypothesisId = creation.objectId ∧ r.creation = creation
      ∧ (history scope creation.objectId).getLast? = some r.head := by
  unfold pageRow at h
  obtain ⟨head, hhead, hr⟩ := Option.bind_eq_some_iff.mp h
  cases hr
  exact ⟨rfl, rfl, hhead⟩

variable {selection : Selection}

theorem mem_page {cursor after limit : Int} (h : r ∈ page db cursor after limit selection) :
    ∃ creation ∈ admissions (db.events.filter fun e => (e.seq : Int) ≤ cursor),
      pageRow (db.events.filter fun e => (e.seq : Int) ≤ cursor) creation = some r := by
  rw [page] at h
  split at h
  · have hmem := (List.mem_filter.mp (List.mem_of_mem_take h)).1
    exact List.mem_filterMap.mp hmem
  · cases h

theorem head_mem {cursor after limit : Int} (h : r ∈ page db cursor after limit selection) :
    r.head ∈ db.events := by
  obtain ⟨creation, _, hrow⟩ := mem_page h
  have hhistory := List.mem_of_getLast? (pageRow_some hrow).2.2
  exact (List.mem_filter.mp (List.mem_filter.mp hhistory).1).1

theorem readPage_some {query : HypothesisReadQuery}
    {p : List (PageRow × Envelope × Envelope) × Option Nat}
    (h : readPage π db query selection = .ok (some p)) :
    1 ≤ selection.pageLimit ∧ db.isServed = true
      ∧ query.through.getD db.publicSeq ≤ db.publicSeq
      ∧ ∃ rows, rows = page db (query.through.getD db.publicSeq) (query.after.getD 0)
          selection.rowLimit selection
        ∧ checkRows π (query.through.getD db.publicSeq) selection.target [] (query.after.getD 0)
          (rows.take selection.pageLimit.toNat) = .ok p.1
        ∧ p.2 = if !selection.target.isSome && selection.pageLimit < rows.length then
          p.1.getLast?.map (·.2.1.seq) else none := by
  unfold readPage at h
  dsimp only at h
  split at h
  · cases h
  split at h
  · cases h
  rename_i hlimit
  split at h
  · cases h
  rename_i hserved
  split at h
  · cases h
  split at h
  · cases h
  rename_i hcursor
  split at h
  · cases h
  obtain ⟨checked, hchecked, hp⟩ := ExceptRun.map_ok.mp h
  cases hp
  rw [Bool.or_eq_true, not_or, Bool.not_eq_true', Bool.not_eq_false, sequence,
    Bool.and_eq_true, decide_eq_true_eq] at hlimit
  refine ⟨hlimit.1.2, by simpa using hserved, by omega, _, rfl, hchecked, rfl⟩

/-- The pages of both problems have the same envelopes, unless what is asked
for exactly was hidden. -/
theorem Damaged.readPage (h : Damaged π db db') (query : HypothesisReadQuery)
    (selection : Selection) :
    Listing.readPage π db' query selection = Listing.readPage π db query selection
      ∨ selection.target.isSome = true ∧ ∀ p,
        Listing.readPage π db' query selection ≠ .ok (some p) := by
  have hserved : db'.isServed = db.isServed := by
    rw [Db.isServed, Db.isServed, h.isPrivateDraft, h.problem]
  have hrefused : isRefused db' query selection = isRefused db query selection := by
    rw [isRefused, isRefused, h.problemId]
  by_cases htarget : selection.target.all (!db'.hides ·) = selection.target.all (!db.hides ·)
  · refine .inl ?_
    have hpage : ∀ cursor after limit, page db' cursor after limit selection
        = page db cursor after limit selection := by
      intro cursor after limit
      rw [page, page, hserved, h.publicSeq, htarget, h.events]
    simp only [Listing.readPage, hrefused, hserved, h.publicSeq, hpage]
  · refine .inr ?_
    cases hexact : selection.target with
    | none => rw [hexact] at htarget; exact absurd rfl htarget
    | some target =>
        refine ⟨rfl, fun p hp => ?_⟩
        have hhidden : db'.hides target = true := by
          rw [hexact, Option.all_some, Option.all_some] at htarget
          cases hnew : db'.hides target with
          | true => rfl
          | false =>
              cases hold : db.hides target with
              | true => rw [h.hides target hold] at hnew; cases hnew
              | false => rw [hnew, hold] at htarget; exact absurd rfl htarget
        have hempty : ∀ cursor after limit, page db' cursor after limit selection = [] := by
          intro cursor after limit
          rw [page, hexact, Option.all_some, hhidden]
          exact if_neg (by simp)
        simp only [Listing.readPage, hempty, hexact, Option.isSome_some, List.isEmpty_nil,
          Bool.and_self, if_true] at hp
        split at hp
        · cases hp
        split at hp
        · cases hp
        split at hp
        · cases hp
        split at hp
        · cases hp
        split at hp
        · cases hp
        · cases hp

def HypothesesResponse.listed (face : HypothesesResponse C K L) :
    Text × Int × Int × List (Text × Envelope × Envelope) × Option Nat :=
  (face.problemId, face.cursor, face.after, face.hypotheses.map (·.listed), face.nextAfter)

theorem Damaged.listed (h : Damaged π db db') (query : HypothesisReadQuery)
    (hlist : selection.target = none) :
    (readHypotheses π db' query selection).map (Option.map fun r => (r.1.listed, r.2))
      = (readHypotheses π db query selection).map (Option.map fun r => (r.1.listed, r.2)) := by
  rcases h.readPage query selection with hsame | ⟨hexact, _⟩
  · rw [readHypotheses_eq, readHypotheses_eq, hsame]
    cases Listing.readPage π db query selection with
    | error e => rfl
    | ok found =>
        cases found with
        | none => rfl
        | some p =>
            simp only [Except.map, Option.map_some, HypothesesResponse.listed, faceOf, List.map_map,
              h.problemId, h.publicSeq, h.unlisted]
            rfl
  · rw [hlist] at hexact
    cases hexact

theorem Damaged.read (lawful : π.Lawful) (h : Damaged π db db') {query : HypothesisReadQuery}
    {face' : HypothesesResponse C K L} {unlisted : Bool}
    (hread : readHypotheses π db' query selection = .ok (some (face', unlisted))) :
    ∃ face, readHypotheses π db query selection = .ok (some (face, unlisted))
      ∧ List.Forall₂ Withheld face'.hypotheses face.hypotheses := by
  rw [readHypotheses_eq] at hread
  obtain ⟨found, hfound, hface⟩ := ExceptRun.map_ok.mp hread
  obtain ⟨p, rfl, hp⟩ := Option.map_eq_some_iff.mp hface
  rcases h.readPage query selection with hsame | ⟨_, hnone⟩
  · rw [hsame] at hfound
    obtain ⟨rfl, rfl⟩ := Prod.mk.inj hp
    refine ⟨faceOf π db query p.1 p.2, ?_, h.items lawful ?_⟩
    · rw [readHypotheses_eq, hfound, h.unlisted]
      rfl
    · obtain ⟨_, _, _, rows, rfl, hchecked, _⟩ := readPage_some hfound
      intro t ht
      have hrow : t.1 ∈ p.1.map (·.1) := List.mem_map_of_mem ht
      rw [checkRows_rows hchecked] at hrow
      exact head_mem (List.mem_of_mem_take hrow)
  · exact absurd hfound (hnone p)

end Asimposium.Hypotheses.Listing
