import Asimposium.Hypotheses.Lifecycle
import Mathlib.Data.List.Nodup

/-!
# Trails

A trail is a history in which every event was admitted after the one
before it and names it. The reader accepts a trail, and the status it
records for one is the status its last event left.
-/

namespace Asimposium.Hypotheses

variable {db : Db} {hypothesisId creator : String}

/-- The histories of a hypothesis, and the status each leaves. -/
inductive Trail (hypothesisId creator : String) : List Event → LifecycleStatus → Prop where
  | created (e : Event) (htype : e.type = .created) (hversion : e.objectVersion = 1)
      (hactor : e.actorFellowId = some creator) : Trail hypothesisId creator [e] .active
  | lifecycle (earlier : List Event) (previous e : Event) (request : LifecycleRequest)
      (state : LifecycleStatus) (h : Trail hypothesisId creator (earlier ++ [previous]) state)
      (hpermits : request.permits (.lifecycle state) = true) (htype : e.type = request.eventType)
      (hversion : e.objectVersion = 1) (hactor : e.actorFellowId = some creator)
      (hpayload : e.payload = .lifecycle hypothesisId request)
      (hexpected : request.expectedLastEventId = previous.id) :
      Trail hypothesisId creator (earlier ++ [previous] ++ [e]) request.state
  | killed (earlier : List Event) (previous e : Event) (evidence reason : String)
      (state : LifecycleStatus) (h : Trail hypothesisId creator (earlier ++ [previous]) state)
      (hstate : state = .active ∨ state = .deferred) (htype : e.type = .killed)
      (hversion : e.objectVersion = 1) (hpayload : e.payload = .kill hypothesisId evidence reason) :
      Trail hypothesisId creator (earlier ++ [previous] ++ [e]) .killed

def EventType.leaves (type : EventType) (state : LifecycleStatus) : Prop :=
  match state with
  | .active => type = .created ∨ type = .resumed
  | .deferred => type = .deferred
  | .narrowed => type = .narrowed
  | .superseded => type = .superseded
  | .killed => type = .killed

theorem leaves_state (request : LifecycleRequest) : request.eventType.leaves request.state := by
  cases request with
  | resume => exact .inr rfl
  | defer => rfl
  | narrow => rfl
  | supersede => rfl

variable {l : List Event} {state : LifecycleStatus}

theorem Trail.ends (h : Trail hypothesisId creator l state) :
    ∃ earlier last, l = earlier ++ [last] ∧ last.type.leaves state ∧ last.objectVersion = 1 := by
  cases h with
  | created e htype hversion => exact ⟨[], e, rfl, .inl htype, hversion⟩
  | lifecycle earlier previous e request state h hpermits htype hversion =>
      exact ⟨earlier ++ [previous], e, rfl, htype ▸ leaves_state request, hversion⟩
  | killed earlier previous e evidence reason state h hstate htype hversion =>
      exact ⟨earlier ++ [previous], e, rfl, htype, hversion⟩

theorem Trail.begins (h : Trail hypothesisId creator l state) :
    ∃ creation rest, l = creation :: rest ∧ creation.type = .created ∧ creation.objectVersion = 1
      ∧ creation.actorFellowId = some creator ∧ ∀ e ∈ rest, e.type ≠ .created := by
  induction h with
  | created e htype hversion hactor =>
      exact ⟨e, [], rfl, htype, hversion, hactor, by simp⟩
  | lifecycle earlier previous e request state h hpermits htype hversion hactor hpayload hexpected
      ih =>
      obtain ⟨creation, rest, hl, hcreated, hcversion, hcactor, hrest⟩ := ih
      refine ⟨creation, rest ++ [e], by rw [hl]; rfl, hcreated, hcversion, hcactor, ?_⟩
      intro x hx
      rcases List.mem_append.mp hx with hx | hx
      · exact hrest x hx
      · rw [List.mem_singleton.mp hx, htype]
        cases request <;> simp [LifecycleRequest.eventType]
  | killed earlier previous e evidence reason state h hstate htype hversion hpayload ih =>
      obtain ⟨creation, rest, hl, hcreated, hcversion, hcactor, hrest⟩ := ih
      refine ⟨creation, rest ++ [e], by rw [hl]; rfl, hcreated, hcversion, hcactor, ?_⟩
      intro x hx
      rcases List.mem_append.mp hx with hx | hx
      · exact hrest x hx
      · rw [List.mem_singleton.mp hx, htype]
        simp

variable {e : Event}

theorem Trail.expected (h : Trail hypothesisId creator l state) {i : Nat} {previous : Event}
    (hprevious : l[i]? = some previous) (he : l[i + 1]? = some e)
    (htype : e.type.authorOnly = true) :
    ∃ request, e.payload = .lifecycle hypothesisId request
      ∧ request.expectedLastEventId = previous.id := by
  have hsplit : ∀ (earlier : List Event) (before last : Event),
      (earlier ++ [before] ++ [last])[i]? = some previous →
      (earlier ++ [before] ++ [last])[i + 1]? = some e →
      ((earlier ++ [before])[i]? = some previous ∧ (earlier ++ [before])[i + 1]? = some e)
        ∨ (before = previous ∧ last = e) := by
    intro earlier before last hprevious he
    by_cases hi : i + 1 < (earlier ++ [before]).length
    · rw [List.getElem?_append_left (by omega)] at hprevious
      rw [List.getElem?_append_left hi] at he
      exact .inl ⟨hprevious, he⟩
    · have hlt := (List.getElem?_eq_some_iff.mp he).1
      have hi' : i = earlier.length := by
        simp only [List.length_append, List.length_cons, List.length_nil] at hi hlt
        omega
      subst hi'
      have hbefore : (earlier ++ [before] ++ [last])[earlier.length]? = some before := by simp
      have hlast : (earlier ++ [before] ++ [last])[earlier.length + 1]? = some last := by simp
      rw [hbefore, Option.some.injEq] at hprevious
      rw [hlast, Option.some.injEq] at he
      exact .inr ⟨hprevious, he⟩
  induction h with
  | created => simp at he
  | lifecycle earlier before last request state h hpermits htype' hversion hactor hpayload
      hexpected ih =>
      rcases hsplit earlier before last hprevious he with ⟨hprevious, he⟩ | ⟨rfl, rfl⟩
      · exact ih hprevious he
      · exact ⟨request, hpayload, hexpected⟩
  | killed earlier before last evidence reason state h hstate htype' hversion hpayload ih =>
      rcases hsplit earlier before last hprevious he with ⟨hprevious, he⟩ | ⟨rfl, rfl⟩
      · exact ih hprevious he
      · rw [htype'] at htype
        cases htype

/-! ## The reader accepts a trail -/

theorem isValidHistory_snoc {author : Option String} {previous : Option EventType}
    {earlier : List Event} {before : Event}
    (h : isValidHistory author previous (earlier ++ [before]) = true)
    (he : isValidAfter (some before.type) author e = true) :
    isValidHistory author previous (earlier ++ [before] ++ [e]) = true := by
  induction earlier generalizing previous with
  | nil =>
      simp only [List.nil_append, List.cons_append, isValidHistory, Bool.and_true] at h ⊢
      rw [h, he]
      rfl
  | cons first rest ih =>
      simp only [List.cons_append, isValidHistory, Bool.and_eq_true] at h ⊢
      exact ⟨h.1, ih h.2⟩

theorem isValidAfter_lifecycle {request : LifecycleRequest} {previous : Event}
    (hprevious : previous.type.leaves state)
    (hpermits : request.permits (.lifecycle state) = true) (htype : e.type = request.eventType)
    (hversion : e.objectVersion = 1) (hactor : e.actorFellowId = some creator) :
    isValidAfter (some previous.type) (some creator) e = true := by
  unfold isValidAfter
  rw [htype, hversion, hactor]
  cases request with
  | resume =>
      cases state <;> simp [LifecycleRequest.permits] at hpermits
      have hdeferred : previous.type = .deferred := hprevious
      simp [LifecycleRequest.eventType, hdeferred]
  | defer =>
      cases state <;> simp [LifecycleRequest.permits] at hpermits
      rcases hprevious with hprevious | hprevious <;>
        simp [LifecycleRequest.eventType, hprevious]
  | narrow =>
      cases state <;> simp [LifecycleRequest.permits] at hpermits
      · rcases hprevious with hprevious | hprevious <;>
          simp [LifecycleRequest.eventType, hprevious]
      · have hdeferred : previous.type = .deferred := hprevious
        simp [LifecycleRequest.eventType, hdeferred]
  | supersede =>
      cases state <;> simp [LifecycleRequest.permits] at hpermits
      · rcases hprevious with hprevious | hprevious <;>
          simp [LifecycleRequest.eventType, hprevious]
      · have hdeferred : previous.type = .deferred := hprevious
        simp [LifecycleRequest.eventType, hdeferred]

theorem isValidAfter_killed {author : Option String} {previous : Event}
    (hprevious : previous.type.leaves state) (hstate : state = .active ∨ state = .deferred)
    (htype : e.type = .killed) (hversion : e.objectVersion = 1) :
    isValidAfter (some previous.type) author e = true := by
  unfold isValidAfter
  rw [htype, hversion]
  rcases hstate with rfl | rfl
  · rcases hprevious with hprevious | hprevious <;> simp [hprevious, EventType.authorOnly]
  · have hdeferred : previous.type = .deferred := hprevious
    simp [hdeferred, EventType.authorOnly]

theorem Trail.valid (h : Trail hypothesisId creator l state) :
    isValidHistory (some creator) none l = true := by
  induction h with
  | created e htype hversion hactor =>
      simp [isValidHistory, isValidAfter, htype, hversion, EventType.authorOnly]
  | lifecycle earlier previous e request state h hpermits htype hversion hactor hpayload hexpected
      ih =>
      obtain ⟨earlier', last, hl, hleaves, -⟩ := h.ends
      obtain ⟨-, hlast⟩ := List.append_inj' hl rfl
      obtain rfl := List.singleton_inj.mp hlast
      exact isValidHistory_snoc ih (isValidAfter_lifecycle hleaves hpermits htype hversion hactor)
  | killed earlier previous e evidence reason state h hstate htype hversion hpayload ih =>
      obtain ⟨earlier', last, hl, hleaves, -⟩ := h.ends
      obtain ⟨-, hlast⟩ := List.append_inj' hl rfl
      obtain rfl := List.singleton_inj.mp hlast
      exact isValidHistory_snoc ih (isValidAfter_killed hleaves hstate htype hversion)

/-! ## The status of a trail -/

theorem Trail.row (h : Trail hypothesisId creator l state)
    (hhistory : db.history hypothesisId = l) :
    ∃ row, hypothesisRow db hypothesisId = some row ∧ row.hypothesisId = hypothesisId
      ∧ row.creations = 1 ∧ l.head? = some row.creation ∧ l.getLast? = some row.head
      ∧ row.previousEventId = l.dropLast.getLast?.map (·.id)
      ∧ row.creation.objectVersion = 1 ∧ row.head.objectVersion = 1
      ∧ row.invalidHistory = false := by
  obtain ⟨earlier, last, hl, -, hlversion⟩ := h.ends
  obtain ⟨creation, rest, hl', hcreated, hcversion, hcactor, hrest⟩ := h.begins
  have hadmissions : l.filter (·.type == .created) = [creation] := by
    rw [hl', List.filter_cons_of_pos (by simp [hcreated])]
    refine congrArg _ (List.filter_eq_nil_iff.mpr fun e he => ?_)
    simpa using hrest e he
  have hlast : l.getLast? = some last := by rw [hl, List.getLast?_concat]
  refine ⟨⟨hypothesisId, 1, creation, last, l.dropLast.getLast?.map (·.id), false⟩, ?_, rfl, rfl,
    by rw [hl']; rfl, hlast, rfl, hcversion, hlversion, rfl⟩
  unfold hypothesisRow
  simp only [hhistory, hadmissions, hlast, hcactor, h.valid, List.head?_cons, bind, Option.bind,
    pure, List.length_cons, List.length_nil, Nat.zero_add, Bool.not_true]

theorem HypothesisRow.recordedStatus_of {row : HypothesisRow} (hcreations : row.creations = 1)
    (hcversion : row.creation.objectVersion = 1) (hhversion : row.head.objectVersion = 1)
    (hvalid : row.invalidHistory = false) :
    row.recordedStatus =
      if row.head.type = .killed then .lifecycle .killed
      else if row.head.type = .created ∧ row.creation.id = row.head.id then .lifecycle .active
      else
        match row.head.type.lifecycleStatus with
        | none => .unavailable
        | some status => .lifecycle status := by
  refine if_neg ?_
  rw [hcreations, hcversion, hhversion, hvalid]
  simp

theorem eventType_lifecycleStatus (request : LifecycleRequest) :
    request.eventType.lifecycleStatus = some request.state := by
  cases request <;> rfl

/-- A lifecycle event at the head that names its predecessor is read as
the status it left, unless it is a resumption whose body is withheld. -/
theorem readItem_lifecycle {row : HypothesisRow} {request : LifecycleRequest} {expected : String}
    (hrecorded : row.recordedStatus = .lifecycle request.state)
    (htype : row.head.type = request.eventType)
    (hpayload : row.head.payload = .lifecycle row.hypothesisId request)
    (hprevious : row.previousEventId = some expected)
    (hexpected : request.expectedLastEventId = expected) :
    (readItem db row).status = .lifecycle request.state
      ∨ (db.serves row.head = false ∧ request.state = .active
        ∧ (readItem db row).status = .unavailable) := by
  have hstate : request.state ≠ .killed := by
    cases request <;> simp [LifecycleRequest.state]
  have hbelongs : row.belongs (row.hypothesisId, request) = true := by
    simp [HypothesisRow.belongs, decodesAs, htype, hprevious, hexpected]
  cases hserves : db.serves row.head with
  | true =>
      left
      simp [readItem, hstate, hrecorded, htype, eventType_lifecycleStatus, Db.body, hserves,
        hpayload, Payload.asLifecycle, hbelongs]
  | false =>
      cases request with
      | resume =>
          exact .inr ⟨rfl, rfl, by
            simp [readItem, hrecorded, htype, Db.body, hserves, LifecycleRequest.eventType]⟩
      | defer =>
          exact .inl (by
            simp [readItem, hrecorded, htype, Db.body, hserves, LifecycleRequest.eventType])
      | narrow =>
          exact .inl (by
            simp [readItem, hrecorded, htype, Db.body, hserves, LifecycleRequest.eventType])
      | supersede =>
          exact .inl (by
            simp [readItem, hrecorded, htype, Db.body, hserves, LifecycleRequest.eventType])

/-- The reader computes the status a trail leaves, unless its last event
is a resumption whose body is withheld. -/
theorem Trail.read (h : Trail hypothesisId creator l state)
    (hhistory : db.history hypothesisId = l) :
    ∃ row item, hypothesisRow db hypothesisId = some row ∧ row.invalidHistory = false
      ∧ l.getLast? = some row.head ∧ loadHypothesis db hypothesisId = some item
      ∧ (item.status = .lifecycle state
        ∨ (db.serves row.head = false ∧ state = .active ∧ item.status = .unavailable)) := by
  obtain ⟨row, hrow, hid, hcreations, hfirst, hlast, hprevious, hcversion, hhversion, hvalid⟩ :=
    h.row hhistory
  have hrecorded := row.recordedStatus_of hcreations hcversion hhversion hvalid
  refine ⟨row, readItem db row, hrow, hvalid, hlast, by rw [loadHypothesis, hrow]; rfl, ?_⟩
  cases h with
  | created e htype =>
      obtain rfl := Option.some.inj hfirst
      have hsame : row.creation = row.head := Option.some.inj hlast
      rw [hsame] at htype hrecorded
      simp only [htype, reduceCtorEq, if_false, true_and, if_true] at hrecorded
      left
      simp [readItem, hrecorded, htype, EventType.lifecycleStatus]
  | lifecycle earlier previous e request before h hpermits htype hversion hactor hpayload
      hexpected =>
      rw [List.getLast?_concat, Option.some.injEq] at hlast
      subst hlast
      rw [List.dropLast_concat, List.getLast?_concat] at hprevious
      refine readItem_lifecycle ?_ htype (hid ▸ hpayload) hprevious hexpected
      rw [hrecorded, htype, eventType_lifecycleStatus]
      cases request <;> simp [LifecycleRequest.eventType]
  | killed earlier previous e evidence reason before h hstate htype hversion hpayload =>
      rw [List.getLast?_concat, Option.some.injEq] at hlast
      subst hlast
      rw [if_pos htype] at hrecorded
      left
      cases hserves : db.serves row.head with
      | true =>
          simp [readItem, hrecorded, htype, Db.body, hserves, hpayload, Payload.asKill, hid,
            EventType.lifecycleStatus]
      | false => simp [readItem, hrecorded, htype, Db.body, hserves, EventType.lifecycleStatus]

end Asimposium.Hypotheses

/-!
## The tables of the routes

What a publication preserves: every row of `hypotheses` describes the
trail of its hypothesis, no event belongs to a hypothesis without a row,
and a successor is a later publication. A guard that holds pins the row
it read, and with it the head of the trail.
-/

namespace Asimposium.Hypotheses

variable {db db' : Db} {hypothesisId creator : String}

/-! ## The log grows at its end -/

/-- A pointer to a hypothesis published after `seq`. -/
def PointsLater (db : Db) (seq : Nat) (successor : Option String) : Prop :=
  ∀ id, successor = some id → ∃ next ∈ db.hypotheses, next.hypothesisId = id ∧ seq < next.sourceSeq

structure Describes (db : Db) (row : Hypothesis) : Prop where
  trail : Trail row.hypothesisId row.authorFellowId (db.history row.hypothesisId)
    row.lifecycleStatus
  source : ∃ creation, (db.history row.hypothesisId).head? = some creation
    ∧ creation.id = row.sourceEventId ∧ creation.seq = row.sourceSeq
  head : ∃ last, (db.history row.hypothesisId).getLast? = some last ∧ last.id = row.lifecycleEventId
  successor : PointsLater db row.sourceSeq row.successorHypothesisId

structure Lawful (db : Db) : Prop where
  ids : (db.events.map (·.id)).Nodup
  rowIds : (db.hypotheses.map (·.hypothesisId)).Nodup
  rows : ∀ row ∈ db.hypotheses, Describes db row
  rowless : ∀ id, (∀ row ∈ db.hypotheses, row.hypothesisId ≠ id) → db.history id = []

variable {e : Event}

theorem append_some (h : db.append e = some db') :
    db' = { db with events := db.events ++ [e] } ∧ ∀ old ∈ db.events, old.id ≠ e.id := by
  unfold Db.append at h
  split at h
  · cases h
  · rename_i hfree
    rw [Bool.not_eq_true, List.any_eq_false] at hfree
    exact ⟨(Option.some.inj h).symm, fun old hold heq => hfree old hold (beq_iff_eq.mpr heq)⟩

theorem history_append {events : List Event} (hypotheses : List Hypothesis)
    (withheld : List String) (hypothesisId : String) :
    Db.history ⟨events ++ [e], hypotheses, withheld⟩ hypothesisId
      = Db.history ⟨events, hypotheses, withheld⟩ hypothesisId
        ++ if e.objectKind = .hypothesis ∧ e.objectId = hypothesisId then [e] else [] := by
  unfold Db.history
  rw [List.filter_append]
  by_cases he : e.objectKind = .hypothesis ∧ e.objectId = hypothesisId
  · rw [if_pos he]
    simp [he.1, he.2]
  · rw [if_neg he]
    simpa [List.filter_cons] using he

theorem Lawful.unique (h : Lawful db) {row row' : Hypothesis} (hrow : row ∈ db.hypotheses)
    (hrow' : row' ∈ db.hypotheses) (hid : row.hypothesisId = row'.hypothesisId) : row = row' :=
  List.inj_on_of_nodup_map h.rowIds hrow hrow' hid

theorem Lawful.event_eq (h : Lawful db) {a b : Event} (ha : a ∈ db.events) (hb : b ∈ db.events)
    (hid : a.id = b.id) : a = b :=
  List.inj_on_of_nodup_map h.ids ha hb hid

theorem Lawful.row_of_event (h : Lawful db) (he : e ∈ db.history hypothesisId) :
    ∃ row ∈ db.hypotheses, row.hypothesisId = hypothesisId := by
  by_contra hnone
  have hempty := h.rowless hypothesisId fun row hrow hid => hnone ⟨row, hrow, hid⟩
  rw [hempty] at he
  cases he

theorem PointsLater.mono {seq : Nat} {successor : Option String} (h : PointsLater db seq successor)
    (hkept : ∀ row ∈ db.hypotheses, ∃ row' ∈ db'.hypotheses,
      row'.hypothesisId = row.hypothesisId ∧ row'.sourceSeq = row.sourceSeq) :
    PointsLater db' seq successor := by
  intro id hid
  obtain ⟨next, hnext, hnid, hlt⟩ := h id hid
  obtain ⟨next', hnext', hnid', hseq⟩ := hkept next hnext
  exact ⟨next', hnext', hnid'.trans hnid, hseq ▸ hlt⟩

theorem Describes.keep {row : Hypothesis} (h : Describes db row)
    (hhistory : db'.history row.hypothesisId = db.history row.hypothesisId)
    (hkept : ∀ row ∈ db.hypotheses, ∃ row' ∈ db'.hypotheses,
      row'.hypothesisId = row.hypothesisId ∧ row'.sourceSeq = row.sourceSeq) :
    Describes db' row where
  trail := hhistory ▸ h.trail
  source := by rw [hhistory]; exact h.source
  head := by rw [hhistory]; exact h.head
  successor := h.successor.mono hkept

/-! ## What a guard pins -/

/-- The publication of a hypothesis, as a reader was given it. -/
def Published (db : Db) (hypothesisId : String) (publication : Envelope) : Prop :=
  ∃ e ∈ db.history hypothesisId, e.type = .created ∧ e.envelope = publication

/-- A guard that holds pins the row of its hypothesis, with the status and
the last event that were read. -/
theorem Lawful.pinned (h : Lawful db) {guard : HeadGuard} (hholds : guard.holds db = true)
    {publication : Envelope} (hpublished : Published db hypothesisId publication)
    (hsource : guard.publicationEventId = publication.eventId) :
    ∃ row ∈ db.hypotheses, row.hypothesisId = hypothesisId ∧ row.lifecycleStatus = guard.state
      ∧ row.lifecycleEventId = guard.lastEventId ∧ row.sourceSeq = publication.seq
      ∧ publication.fellowId = some row.authorFellowId := by
  obtain ⟨source, hsourceMem, hcond⟩ := List.any_eq_true.mp hholds
  simp only [Bool.and_eq_true, beq_iff_eq] at hcond
  obtain ⟨⟨⟨⟨⟨⟨hsourceId, -⟩, -⟩, -⟩, -⟩, -⟩, hheadAny⟩ := hcond
  obtain ⟨head, -, hheadCond⟩ := List.any_eq_true.mp hheadAny
  simp only [Bool.and_eq_true, beq_iff_eq] at hheadCond
  obtain ⟨⟨⟨⟨⟨⟨⟨⟨hheadId, -⟩, -⟩, -⟩, -⟩, -⟩, -⟩, hrowAny⟩, -⟩ := hheadCond
  obtain ⟨row, hrow, hrowCond⟩ := List.any_eq_true.mp hrowAny
  simp only [Bool.and_eq_true, beq_iff_eq] at hrowCond
  obtain ⟨⟨⟨hrowId, hrowSource⟩, hrowState⟩, hrowHead⟩ := hrowCond
  -- the pinned source is the publication that was read
  obtain ⟨e, he, hetype, henvelope⟩ := hpublished
  obtain ⟨heMem, hekind⟩ := List.mem_filter.mp he
  simp only [Bool.and_eq_true, beq_iff_eq] at hekind
  have heid : e.id = source.id := by
    rw [hsourceId, hsource, ← henvelope]
    rfl
  obtain rfl := h.event_eq heMem hsourceMem heid
  have hid : row.hypothesisId = hypothesisId := hrowId.trans hekind.2
  have hdescribes := h.rows row hrow
  obtain ⟨creation, hcreation, hcid, hcseq⟩ := hdescribes.source
  obtain ⟨first, rest, hhistory, -, -, hfactor, -⟩ := hdescribes.trail.begins
  rw [hhistory, List.head?_cons, Option.some.injEq] at hcreation
  subst hcreation
  have hfirstMem : first ∈ db.events := by
    have hmem : first ∈ db.history row.hypothesisId := by rw [hhistory]; exact List.mem_cons_self
    exact List.mem_of_mem_filter hmem
  obtain rfl := h.event_eq hfirstMem heMem (hcid.trans hrowSource)
  refine ⟨row, hrow, hid, hrowState, hrowHead.trans hheadId, ?_, ?_⟩
  · rw [← hcseq, ← henvelope]
    rfl
  · rw [← hfactor, ← henvelope]
    rfl

/-! ## One more event of a hypothesis -/

theorem Lawful.extend (h : Lawful db) {row : Hypothesis} (hrow : row ∈ db.hypotheses)
    (hkind : e.objectKind = .hypothesis) (hobject : e.objectId = row.hypothesisId)
    (hfresh : ∀ old ∈ db.events, old.id ≠ e.id) (update : Hypothesis → Hypothesis)
    (hupdate : (update row).hypothesisId = row.hypothesisId
      ∧ (update row).sourceEventId = row.sourceEventId ∧ (update row).sourceSeq = row.sourceSeq
      ∧ (update row).lifecycleEventId = e.id)
    (htrail : Trail row.hypothesisId (update row).authorFellowId
      (db.history row.hypothesisId ++ [e]) (update row).lifecycleStatus)
    (hsuccessor : PointsLater db row.sourceSeq (update row).successorHypothesisId)
    {hypotheses : List Hypothesis}
    (hhypotheses : hypotheses = db.hypotheses.map fun other =>
      if other.hypothesisId = row.hypothesisId then update other else other) :
    Lawful ⟨db.events ++ [e], hypotheses, db.withheld⟩ := by
  obtain ⟨hid, hsource, hseq, hlast⟩ := hupdate
  have hmapped : ∀ other ∈ db.hypotheses,
      (if other.hypothesisId = row.hypothesisId then update other else other)
        = if other = row then update row else other := by
    intro other hother
    by_cases hsame : other.hypothesisId = row.hypothesisId
    · rw [if_pos hsame, h.unique hother hrow hsame, if_pos rfl]
    · rw [if_neg hsame, if_neg fun heq => hsame (congrArg _ heq)]
  have hkept : ∀ other ∈ db.hypotheses, ∃ other' ∈ hypotheses,
      other'.hypothesisId = other.hypothesisId ∧ other'.sourceSeq = other.sourceSeq := by
    intro other hother
    refine ⟨_, hhypotheses ▸ List.mem_map_of_mem hother, ?_⟩
    rw [hmapped other hother]
    by_cases hsame : other = row
    · rw [if_pos hsame, hsame]
      exact ⟨hid, hseq⟩
    · rw [if_neg hsame]
      exact ⟨rfl, rfl⟩
  have hnew : Db.history ⟨db.events ++ [e], hypotheses, db.withheld⟩ row.hypothesisId
      = db.history row.hypothesisId ++ [e] := by
    rw [history_append, if_pos ⟨hkind, hobject⟩]
    rfl
  have hold : ∀ id, id ≠ row.hypothesisId →
      Db.history ⟨db.events ++ [e], hypotheses, db.withheld⟩ id = db.history id := by
    intro id hne
    have hother : ¬(e.objectKind = .hypothesis ∧ e.objectId = id) := fun he =>
      hne (he.2.symm.trans hobject)
    rw [history_append, if_neg hother, List.append_nil]
    rfl
  have hids : hypotheses.map (·.hypothesisId) = db.hypotheses.map (·.hypothesisId) := by
    rw [hhypotheses, List.map_map]
    refine List.map_congr_left fun other hother => ?_
    rw [Function.comp_apply, hmapped other hother]
    by_cases hsame : other = row
    · rw [if_pos hsame, hsame, hid]
    · rw [if_neg hsame]
  refine ⟨?_, by rw [hids]; exact h.rowIds, ?_, ?_⟩
  · rw [List.map_append, List.nodup_append]
    refine ⟨h.ids, List.nodup_singleton _, fun a ha b hb => ?_⟩
    obtain ⟨old, hmem, rfl⟩ := List.mem_map.mp ha
    rw [List.mem_singleton.mp hb]
    exact hfresh old hmem
  · intro changed hchanged
    rw [hhypotheses] at hchanged
    obtain ⟨other, hother, rfl⟩ := List.mem_map.mp hchanged
    rw [hmapped other hother]
    by_cases hsame : other = row
    · subst hsame
      rw [if_pos rfl]
      obtain ⟨creation, hcreation, hcid, hcseq⟩ := (h.rows other hother).source
      refine ⟨?_, ⟨creation, ?_, hcid.trans hsource.symm, hcseq.trans hseq.symm⟩,
        ⟨e, ?_, hlast.symm⟩, ?_⟩
      · rw [hid, hnew]
        exact htrail
      · rw [hid, hnew, List.head?_append, hcreation]
        rfl
      · rw [hid, hnew, List.getLast?_concat]
      · rw [hseq]
        exact hsuccessor.mono hkept
    · rw [if_neg hsame]
      exact (h.rows other hother).keep
        (hold _ fun hid => hsame (h.unique hother hrow hid)) hkept
  · intro id hnone
    have hne : id ≠ row.hypothesisId := by
      rintro rfl
      obtain ⟨row', hrow', hid', -⟩ := hkept row hrow
      exact hnone row' hrow' hid'
    rw [hold id hne]
    refine h.rowless id fun other hother hoid => ?_
    obtain ⟨other', hother', hoid', -⟩ := hkept other hother
    exact hnone other' hother' (hoid'.trans hoid)

end Asimposium.Hypotheses
