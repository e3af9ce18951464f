import Mathlib
import Asimposium.Lib.Paging
import Asimposium.Lib.ExceptRun
import Asimposium.Herald.Room
import Asimposium.Ledger.EventTail

/-!
# Pages neither lose nor repeat

A page that is returned holds the sequences right after its cursor, and
its next cursor is the last of them. The rows were compared with the
cursor one by one, so a sequence that is not stored is an error; and the
first row always fits, for what is disclosed of it is bounded. Followed to
the end, the pages hold every sequence up to the bound once.
-/

namespace Asimposium.EventTail

open Herald (Plain plain_roomProblem plain_toString)
open Krater (JsonValue)

/-! ## Sequences -/

def after (cursor : Int) (n : Nat) : List Int := (List.range n).map fun i : Nat => cursor + i + 1

@[simp]
theorem length_after (cursor : Int) (n : Nat) : (after cursor n).length = n := by simp [after]

theorem after_add (cursor : Int) (m n : Nat) :
    after cursor (m + n) = after cursor m ++ after (cursor + m) n := by
  rw [after, List.range_add, List.map_append, List.map_map]
  refine congrArg (after cursor m ++ ·) (List.map_congr_left fun i _ => ?_)
  simp only [Function.comp_apply]
  omega

theorem mem_after {cursor s : Int} {n : Nat} :
    s ∈ after cursor n ↔ cursor < s ∧ s ≤ cursor + n := by
  rw [after, List.mem_map]
  constructor
  · rintro ⟨i, hi, rfl⟩
    have hlt := List.mem_range.mp hi
    omega
  · rintro ⟨hlow, hhigh⟩
    exact ⟨(s - cursor - 1).toNat, List.mem_range.mpr (by omega), by omega⟩

theorem pairwise_after (cursor : Int) (n : Nat) : (after cursor n).Pairwise (· < ·) := by
  rw [after, List.pairwise_map]
  exact List.pairwise_lt_range.imp fun h => by omega

theorem take_after (cursor : Int) (m n : Nat) :
    (after cursor n).take m = after cursor (min m n) := by
  rw [after, ← List.map_take, List.take_range]
  rfl

theorem getElem?_after {cursor : Int} {n i : Nat} (h : i < n) :
    (after cursor n)[i]? = some (cursor + i + 1) := by
  rw [after, List.getElem?_map, List.getElem?_range h]
  rfl

/-! ## Envelopes -/

theorem undisclosed_size {row : TailRow} (hproblem : isTailProblem row.problemId = true)
    (hseq : safeInteger (row.seq.getD 0) = true) :
    (undisclosed row).json.utf8ByteSize ≤ envelopeBytes := by
  have hid := (plain_roomProblem hproblem).quote_size_le
  have hcursor := (plain_toString hseq).size_le
  have hmarks : ∀ text ∈ ["\x7b", "\x7d", ",", ":", "null"], text.utf8ByteSize ≤ 4 := by
    decide +kernel
  have hnames : ∀ name ∈ ["record", "problem_id", "seq", "event", "body_omitted",
      BodyOmitted.undisclosedEvent.text], (quoteJson name).utf8ByteSize ≤ 20 := by
    decide +kernel
  simp only [List.forall_mem_cons] at hmarks hnames
  have hbound : envelopeBytes = 8192 := rfl
  simp only [undisclosed, PublicEventEnvelope.json, objectText, List.map_cons, List.map_nil,
    String.intercalate_cons_cons, String.intercalate_singleton, String.utf8ByteSize_append]
  omega

variable {through : Int}

theorem publicEnvelope_ok {platform : Platform} {row : TailRow} {event : PublicEventEnvelope}
    (h : publicEnvelope platform row through = .ok event) :
    event.problemId = row.problemId ∧ event.seq = row.seq.getD 0
      ∧ (event.json.utf8ByteSize ≤ envelopeBytes ∨ event = undisclosed row)
      ∧ ∀ disclosed ∈ event.event,
        ∃ notice, disclosed = disclosedEvent platform row through notice := by
  have hnone : ∀ disclosed ∈ (undisclosed row).event,
      ∃ notice, disclosed = disclosedEvent platform row through notice := by
    rintro _ ⟨⟩
  unfold publicEnvelope at h
  split at h
  · cases h
    exact ⟨rfl, rfl, .inr rfl, hnone⟩
  · obtain ⟨notice, -, hevent⟩ := ExceptRun.map_ok.mp h
    dsimp only at hevent
    by_cases hsize : (disclosedEnvelope platform row through notice).json.utf8ByteSize
        ≤ envelopeBytes
    · rw [if_pos hsize] at hevent
      subst hevent
      refine ⟨rfl, rfl, .inl hsize, fun disclosed hdisclosed => ?_⟩
      exact ⟨notice, (Option.some.inj hdisclosed).symm⟩
    · rw [if_neg hsize] at hevent
      subst hevent
      exact ⟨rfl, rfl, .inr rfl, hnone⟩

variable {rows : List TailRow}

theorem takeEnvelopes_ok {platform : Platform} {eventBytes : Nat}
    {events : List PublicEventEnvelope}
    (h : takeEnvelopes platform through eventBytes rows = .ok events) :
    ∃ taken rest, rows = taken ++ rest
      ∧ List.Forall₂ (fun row event => publicEnvelope platform row through = .ok event)
          taken events := by
  induction rows generalizing eventBytes events with
  | nil =>
      cases h
      exact ⟨[], [], rfl, .nil⟩
  | cons row rows ih =>
      rw [takeEnvelopes] at h
      obtain ⟨event, hevent, hrest⟩ := ExceptRun.bind_ok.mp h
      dsimp only at hrest
      split at hrest
      · cases hrest
        exact ⟨[], row :: rows, rfl, .nil⟩
      · obtain ⟨events', hevents', rfl⟩ := ExceptRun.map_ok.mp hrest
        obtain ⟨taken, rest, hrows, htaken⟩ := ih hevents'
        exact ⟨row :: taken, rest, congrArg (row :: ·) hrows, .cons hevent htaken⟩

theorem envelopes_seq {platform : Platform} {events : List PublicEventEnvelope}
    (h : List.Forall₂ (fun row event => publicEnvelope platform row through = .ok event)
      rows events) :
    events.map (·.seq) = rows.map fun row => row.seq.getD 0 := by
  induction h with
  | nil => rfl
  | cons hrow _ ih => rw [List.map_cons, List.map_cons, ih, (publicEnvelope_ok hrow).2.1]

theorem envelopes_mem {platform : Platform} {events : List PublicEventEnvelope}
    (h : List.Forall₂ (fun row event => publicEnvelope platform row through = .ok event)
      rows events)
    {event : PublicEventEnvelope} (hevent : event ∈ events) :
    ∃ row ∈ rows, publicEnvelope platform row through = .ok event := by
  induction h with
  | nil => cases hevent
  | cons hrow _ ih =>
      rcases List.mem_cons.mp hevent with rfl | hmem
      · exact ⟨_, List.mem_cons_self, hrow⟩
      · obtain ⟨row, hrow', hok⟩ := ih hmem
        exact ⟨row, List.mem_cons_of_mem _ hrow', hok⟩

theorem takeEnvelopes_ne_nil {platform : Platform} {row : TailRow}
    {events : List PublicEventEnvelope} (hproblem : isTailProblem row.problemId = true)
    (hseq : safeInteger (row.seq.getD 0) = true)
    (h : takeEnvelopes platform through 0 (row :: rows) = .ok events) : events ≠ [] := by
  rw [takeEnvelopes] at h
  obtain ⟨event, hevent, hrest⟩ := ExceptRun.bind_ok.mp h
  have hsize : event.json.utf8ByteSize ≤ envelopeBytes := by
    obtain ⟨-, -, hsize | rfl, -⟩ := publicEnvelope_ok hevent
    · exact hsize
    · exact undisclosed_size hproblem hseq
  have hroom : envelopeBytes ≤ pageBytes := by decide
  dsimp only at hrest
  rw [if_neg (by omega)] at hrest
  obtain ⟨events', -, rfl⟩ := ExceptRun.map_ok.mp hrest
  exact List.cons_ne_nil _ _

theorem takeEnvelopes_exists {platform : Platform} {through : Int} {rows : List TailRow}
    (h : ∀ row ∈ rows, ∃ event, publicEnvelope platform row through = .ok event)
    (eventBytes : Nat) : ∃ events, takeEnvelopes platform through eventBytes rows = .ok events := by
  induction rows generalizing eventBytes with
  | nil => exact ⟨[], rfl⟩
  | cons row rows ih =>
      obtain ⟨event, hevent⟩ := h row List.mem_cons_self
      obtain ⟨events, hevents⟩ := ih (fun r hr => h r (List.mem_cons_of_mem _ hr))
        (eventBytes + event.json.utf8ByteSize)
      rw [takeEnvelopes, hevent]
      dsimp only [Except.bind]
      split
      · exact ⟨[], rfl⟩
      · exact ⟨event :: events, by rw [hevents]; rfl⟩

/-! ## What a read compares -/

section Read

variable {platform : Platform} {db : Db} {problemId : String} {query : EventTailQuery} {p : Problem}

def bound (p : Problem) (query : EventTailQuery) : Int := query.through.getD p.publicSeq

def selected (db : Db) (p : Problem) (query : EventTailQuery) : List Event :=
  (tailEvents db p query.since (bound p query)).take (query.limit + 1).toNat

def expected (p : Problem) (query : EventTailQuery) : Nat :=
  (min (query.limit + 1) (bound p query - query.since)).toNat

theorem visibleProblem_id (hp : visibleProblem db problemId = some p) : p.id = problemId := by
  have hfound := List.find?_some hp
  simp only [Bool.and_eq_true, beq_iff_eq] at hfound
  exact hfound.1.1

variable (platform) in
theorem eventTailSelect_visible (hp : visibleProblem db problemId = some p)
    (hlimit : 1 ≤ query.limit) :
    ∃ first rest, eventTailSelect platform db query.through problemId query.since (query.limit + 1)
        = first :: rest
      ∧ (first.problemId = problemId ∧ first.publicSeq = p.publicSeq
        ∧ first.through = bound p query ∧ first.unlisted = p.unlisted)
      ∧ (first :: rest).filter (·.seq.isSome)
        = (selected db p query).map (eventRow platform db p (bound p query)) := by
  obtain ⟨n, hn⟩ : ∃ n, (query.limit + 1).toNat = n + 1 :=
    ⟨query.limit.toNat, by omega⟩
  have hid := visibleProblem_id hp
  rw [selected, eventTailSelect, hp, hn]
  dsimp only
  rw [show query.through.getD p.publicSeq = bound p query from rfl]
  cases htail : tailEvents db p query.since (bound p query) with
  | nil =>
      refine ⟨_, _, rfl, ⟨hid, rfl, rfl, rfl⟩, ?_⟩
      rw [List.take_nil, List.take_nil]
      rfl
  | cons e events =>
      refine ⟨_, _, rfl, ⟨hid, rfl, rfl, rfl⟩, ?_⟩
      rw [← List.map_take, List.take_succ_cons, List.map_cons]
      refine List.filter_eq_self.mpr fun row hrow => ?_
      rcases List.mem_cons.mp hrow with rfl | hrow
      · rfl
      · obtain ⟨event, -, rfl⟩ := List.mem_map.mp hrow
        rfl

theorem areRowsComplete_iff {first : TailRow} {since : Int} {events : List Event}
    (hid : p.id = problemId)
    (hfirst : first.publicSeq = p.publicSeq ∧ first.through = bound p query
      ∧ first.unlisted = p.unlisted) :
    areRowsComplete first problemId since
        (events.map (eventRow platform db p (bound p query))) = true
      ↔ events.map (·.seq) = after since events.length := by
  obtain ⟨hseq, hthrough, hunlisted⟩ := hfirst
  rw [areRowsComplete, List.all_eq_true, List.ext_getElem?_iff]
  constructor
  · intro h i
    by_cases hi : i < events.length
    · have hrow := h (eventRow platform db p (bound p query) events[i], i)
        (List.mk_mem_zipIdx_iff_getElem?.mpr (by
          rw [List.getElem?_map, List.getElem?_eq_getElem hi]
          rfl))
      simp only [Bool.and_eq_true, beq_iff_eq] at hrow
      rw [getElem?_after hi, List.getElem?_map, List.getElem?_eq_getElem hi]
      exact hrow.2
    · rw [List.getElem?_eq_none (by simpa using hi), List.getElem?_eq_none (by simpa using hi)]
  · rintro h ⟨row, i⟩ hmem
    have hget := List.mk_mem_zipIdx_iff_getElem?.mp hmem
    rw [List.getElem?_map, Option.map_eq_some_iff] at hget
    obtain ⟨event, hevent, rfl⟩ := hget
    have hi := (List.getElem?_eq_some_iff.mp hevent).1
    have hsame := h i
    rw [getElem?_after hi, List.getElem?_map, hevent] at hsame
    simp only [Bool.and_eq_true, beq_iff_eq]
    exact ⟨⟨⟨⟨hid, hthrough.symm⟩, hseq.symm⟩, hunlisted.symm⟩, hsame⟩

/-- A read of a visible problem: the head and the bound are compared, then
the sequences, and then the page is put together. -/
theorem readPublicEventTail_visible (hvalid : isQueryValid problemId query = true)
    (hp : visibleProblem db problemId = some p) :
    readPublicEventTail platform db problemId query
      = if !safeInteger p.publicSeq || !safeInteger (bound p query)
            || (p.unlisted != 0 && p.unlisted != 1) then .error .eventTailUnavailable
        else if p.publicSeq < bound p query || bound p query < query.since then
          .error .cursorInvalid
        else if (selected db p query).map (·.seq) = after query.since (expected p query) then
          (takeEnvelopes platform (bound p query) 0
              (((selected db p query).map (eventRow platform db p (bound p query))).take
                query.limit.toNat)).map fun events =>
            some (eventTailPage problemId query (bound p query) events, p.unlisted == 1)
        else .error .eventTailUnavailable := by
  have hlimit : 1 ≤ query.limit := by
    simp only [isQueryValid, Bool.and_eq_true, decide_eq_true_eq] at hvalid
    exact hvalid.1.1.1.2
  obtain ⟨first, rest, hselect, ⟨hid, hseq, hthrough, hunlisted⟩, hrows⟩ :=
    eventTailSelect_visible platform hp hlimit
  have hcomplete : query.since ≤ bound p query →
      ((!((((selected db p query).map (eventRow platform db p (bound p query))).length : Int)
          != min (query.limit + 1) (bound p query - query.since))
        && areRowsComplete first problemId query.since
          ((selected db p query).map (eventRow platform db p (bound p query)))) = true
      ↔ (selected db p query).map (·.seq) = after query.since (expected p query)) := by
    intro hle
    rw [Bool.and_eq_true, areRowsComplete_iff (visibleProblem_id hp) ⟨hseq, hthrough, hunlisted⟩,
      bne, Bool.not_not, beq_iff_eq, List.length_map]
    constructor
    · rintro ⟨hlength, hall⟩
      rw [hall, expected]
      exact congrArg (after query.since) (by omega)
    · intro hall
      have hlength := congrArg List.length hall
      rw [List.length_map, length_after] at hlength
      refine ⟨by rw [hlength, expected]; omega, ?_⟩
      rw [hall, hlength]
  unfold readPublicEventTail
  rw [hvalid, hselect]
  dsimp only
  rw [hrows, hid, hseq, hthrough, hunlisted]
  have hsame : (bound p query != query.through.getD p.publicSeq) = false := bne_self_eq_false _
  rw [hsame, bne_self_eq_false]
  simp only [Bool.not_true, Bool.false_or, Bool.false_eq_true, if_false]
  refine ite_congr rfl (fun _ => rfl) fun _ => ite_congr rfl (fun _ => rfl) fun hbound => ?_
  have hle : query.since ≤ bound p query := by
    by_contra hlt
    exact hbound (Bool.or_eq_true_iff.mpr (.inr (decide_eq_true (not_le.mp hlt))))
  by_cases hall : (selected db p query).map (·.seq) = after query.since (expected p query)
  · have hrow := (hcomplete hle).mpr hall
    rw [if_pos hall, if_neg]
    rw [Bool.or_eq_true, not_or, Bool.not_eq_true', Bool.not_eq_false]
    rw [Bool.and_eq_true, Bool.not_eq_true'] at hrow
    exact ⟨ne_true_of_eq_false hrow.1, hrow.2⟩
  · have hrow := mt (hcomplete hle).mp hall
    rw [if_neg hall, if_pos]
    rw [Bool.and_eq_true, not_and_or, Bool.not_eq_true', Bool.not_eq_false, Bool.not_eq_true] at hrow
    rw [Bool.or_eq_true, Bool.not_eq_true']
    exact hrow

structure PageRead (platform : Platform) (db : Db) (problemId : String) (query : EventTailQuery)
    (p : Problem) (events : List PublicEventEnvelope) : Prop where
  valid : isQueryValid problemId query = true
  visible : visibleProblem db problemId = some p
  safe : safeInteger (bound p query) = true
  ahead : query.since ≤ bound p query
  published : bound p query ≤ p.publicSeq
  complete : (selected db p query).map (·.seq) = after query.since (expected p query)
  taken : takeEnvelopes platform (bound p query) 0
    (((selected db p query).take query.limit.toNat).map
      (eventRow platform db p (bound p query))) = .ok events

theorem readPublicEventTail_ok {page : EventTailPage} {unlisted : Bool}
    (h : readPublicEventTail platform db problemId query = .ok (some (page, unlisted))) :
    ∃ p, page = eventTailPage problemId query (bound p query) page.events
      ∧ PageRead platform db problemId query p page.events := by
  by_cases hvalid : isQueryValid problemId query = true
  · cases hp : visibleProblem db problemId with
    | none =>
        unfold readPublicEventTail at h
        rw [hvalid, eventTailSelect, hp] at h
        cases h
    | some p =>
        rw [readPublicEventTail_visible hvalid hp] at h
        split at h
        · cases h
        rename_i hflags
        split at h
        · cases h
        rename_i hbounds
        split at h
        · rename_i hcomplete
          simp only [Bool.or_eq_true, not_or, Bool.not_eq_true', Bool.not_eq_false,
            decide_eq_true_eq, not_lt] at hflags hbounds
          obtain ⟨events, htaken, hpage⟩ := ExceptRun.map_ok.mp h
          cases hpage
          rw [← List.map_take] at htaken
          exact ⟨p, rfl, hvalid, hp, hflags.1.2, hbounds.2, hbounds.1, hcomplete, htaken⟩
        · cases h
  · unfold readPublicEventTail at h
    rw [Bool.not_eq_true] at hvalid
    rw [hvalid] at h
    cases h

namespace PageRead

variable {events : List PublicEventEnvelope}

theorem limit_pos (h : PageRead platform db problemId query p events) : 1 ≤ query.limit := by
  have hvalid := h.valid
  simp only [isQueryValid, Bool.and_eq_true, decide_eq_true_eq] at hvalid
  exact hvalid.1.1.1.2

theorem seqs (h : PageRead platform db problemId query p events) :
    events.map (·.seq) = after query.since events.length
      ∧ query.since + events.length ≤ bound p query := by
  obtain ⟨taken, rest, hrows, htaken⟩ := takeEnvelopes_ok h.taken
  have hseq : events.map (·.seq) = ((((selected db p query).take query.limit.toNat).map
      (eventRow platform db p (bound p query))).take events.length).map
        fun row => row.seq.getD 0 := by
    rw [envelopes_seq htaken, hrows, ← htaken.length_eq, List.take_left]
  have hrow : ∀ es : List Event, (es.map (eventRow platform db p (bound p query))).map
      (fun row => row.seq.getD 0) = es.map (·.seq) := fun es => List.map_map
  rw [← List.map_take, hrow, List.map_take, List.map_take, h.complete, take_after, take_after]
    at hseq
  have hlength := congrArg List.length hseq
  rw [List.length_map, length_after] at hlength
  rw [← hlength] at hseq
  refine ⟨hseq, ?_⟩
  have hahead := h.ahead
  unfold expected at hlength
  omega

theorem progress (h : PageRead platform db problemId query p events)
    (hlt : query.since < bound p query) : events ≠ [] := by
  have hlimit := h.limit_pos
  obtain ⟨n, hn⟩ : ∃ n, expected p query = n + 1 :=
    ⟨expected p query - 1, by unfold expected; omega⟩
  obtain ⟨m, hm⟩ : ∃ m, query.limit.toNat = m + 1 := ⟨query.limit.toNat - 1, by omega⟩
  have hcomplete := h.complete
  have htaken := h.taken
  cases hselected : selected db p query with
  | nil =>
      rw [hselected, hn] at hcomplete
      exact absurd (congrArg List.length hcomplete) (by simp)
  | cons e es =>
      rw [hselected, hm, List.take_succ_cons, List.map_cons] at htaken
      have hvalid := h.valid
      simp only [isQueryValid, Bool.and_eq_true] at hvalid
      have hsince := hvalid.1.1.1.1.1.2
      have hseq : e.seq = query.since + 1 := by
        have hhead := congrArg List.head? hcomplete
        rw [hselected, List.map_cons, List.head?_cons, List.head?_eq_getElem?,
          getElem?_after (by omega)] at hhead
        simpa using Option.some.inj hhead
      refine takeEnvelopes_ne_nil ?_ ?_ htaken
      · change isTailProblem p.id = true
        rw [visibleProblem_id h.visible]
        exact hvalid.1.1.1.1.1.1
      · change safeInteger e.seq = true
        have hsafe := h.safe
        simp only [safeInteger, isSafeInteger, Bool.and_eq_true, decide_eq_true_eq] at hsafe hsince ⊢
        omega

end PageRead

end Read

/-! ## Causal parents -/

/-- The text that `json_extract` takes out of a stored payload reads as the
array that is there. -/
def ReadsAlike (platform : Platform) (db : Db) : Prop :=
  ∀ content ∈ db.contents, ∀ payload causes, platform.parse content.payloadJson = some payload →
    member "caused_by" payload = some (.array causes) →
      platform.parse (platform.causedByText content.payloadJson) = some (.array causes)

section Causes

variable {platform : Platform} {db : Db}

theorem causalState_recorded {e : Event} (h : causalState platform db e = .recorded) :
    ∃ content payload causes, db.availableContent e = some content
      ∧ platform.parse content.payloadJson = some payload
      ∧ member "caused_by" payload = some (.array causes)
      ∧ ∀ cause ∈ causes, db.isCauseAvailable e cause = true := by
  unfold causalState at h
  cases hcontent : db.availableContent e with
  | none => rw [hcontent] at h; cases h
  | some content =>
      rw [hcontent] at h
      dsimp only at h
      split at h
      · cases h
      cases hpayload : platform.parse content.payloadJson with
      | none => rw [hpayload] at h; cases h
      | some payload =>
          rw [hpayload] at h
          dsimp only at h
          split at h
          · cases h
          · rename_i causes hcauses
            split at h
            · rename_i hall
              rw [Bool.and_eq_true] at hall
              exact ⟨content, payload, causes, rfl, hpayload, hcauses, List.all_eq_true.mp hall.2⟩
            · cases h
          · cases h

theorem publicCausality_parents {row : TailRow} {parents : List BatchEventCause}
    (h : (publicCausality platform row).1 = some parents) :
    row.causalState = .recorded ∧ ∃ text, row.causalJson = some text
      ∧ parseCauses platform text = some parents ∧ areParentsValid row parents = true := by
  unfold publicCausality at h
  split at h
  · cases h
  · rename_i text hstate hjson
    split at h
    · cases h
    · rename_i parents' hparents
      cases h
      obtain ⟨hparse, hvalid⟩ := Option.filter_eq_some_iff.mp hparents
      exact ⟨hstate, text, hjson, hparse, hvalid⟩
  · cases h

theorem textSuch_some {holds : String → Bool} {value : Option JsonValue} {text : String}
    (h : Krater.textSuch holds value = some text) : value = some (.text text) := by
  unfold Krater.textSuch at h
  split at h
  · split at h
    · cases h
      rfl
    · cases h
  · cases h

theorem positiveInteger_some {value : Option JsonValue} {n : Nat}
    (h : Krater.positiveInteger value = some n) : value = some (.number n) := by
  obtain ⟨hnat, -⟩ := Option.filter_eq_some_iff.mp h
  unfold Krater.nonNegativeInteger at hnat
  split at hnat
  · split at hnat
    · rename_i hsafe
      cases hnat
      rw [Bool.and_eq_true, decide_eq_true_eq] at hsafe
      rw [Int.toNat_of_nonneg hsafe.2]
    · cases hnat
  · cases hnat

theorem parseCause_some {cause : JsonValue} {parent : BatchEventCause}
    (h : parseCause cause = some parent) :
    ∃ members, cause = .object members ∧ members.lookup "event_id" = some (.text parent.eventId)
      ∧ members.lookup "seq" = some (.number parent.seq) := by
  unfold parseCause at h
  split at h
  · rename_i members
    split at h
    · obtain ⟨scopeId, -, h⟩ := Option.bind_eq_some_iff.mp h
      obtain ⟨eventId, hevent, h⟩ := Option.bind_eq_some_iff.mp h
      obtain ⟨seq, hseq, h⟩ := Option.bind_eq_some_iff.mp h
      cases h
      exact ⟨members, rfl, textSuch_some hevent, positiveInteger_some hseq⟩
    · cases h
  · cases h

theorem isCauseAvailable_event {e : Event} {cause : JsonValue} {parent : BatchEventCause}
    (h : db.isCauseAvailable e cause = true) (hparse : parseCause cause = some parent) :
    ∃ found ∈ db.events, found.problemId = e.problemId ∧ found.id = parent.eventId
      ∧ found.seq = parent.seq ∧ found.seq < e.seq := by
  obtain ⟨members, rfl, hid, hseq⟩ := parseCause_some hparse
  unfold Db.isCauseAvailable at h
  obtain ⟨found, hfound, hearlier⟩ := (Option.any_eq_true ..).mp h
  have hjoin := List.find?_some hfound
  rw [member, member, hid, hseq] at hjoin
  simp only [Krater.isText, Krater.isNumber, Bool.and_eq_true, beq_iff_eq, decide_eq_true_eq]
    at hjoin hearlier
  exact ⟨found, List.mem_of_find?_eq_some hfound, hjoin.1.1, hjoin.1.2.symm, hjoin.2.symm,
    hearlier.1.1⟩

theorem disclosed_parents {p : Problem} {through : Int} {e : Event}
    {parents : List BatchEventCause} (halike : ReadsAlike platform db)
    (h : (publicCausality platform (eventRow platform db p through e)).1 = some parents)
    {parent : BatchEventCause} (hparent : parent ∈ parents) :
    ∃ found ∈ db.events, found.problemId = e.problemId ∧ found.id = parent.eventId
      ∧ found.seq = parent.seq ∧ found.seq < e.seq := by
  obtain ⟨hstate, text, htext, hparse, -⟩ := publicCausality_parents h
  obtain ⟨content, payload, causes, hcontent, hpayload, hcauses, hall⟩ :=
    causalState_recorded hstate
  have hof := (Option.filter_eq_some_iff.mp hcontent).1
  have hsame : text = platform.causedByText content.payloadJson := by
    change causalJson platform db e = some text at htext
    change causalState platform db e = .recorded at hstate
    rw [causalJson, if_pos hstate, hof] at htext
    exact (Option.some.inj htext).symm
  subst hsame
  have hread := halike content (List.mem_of_find?_eq_some hof) payload causes hpayload hcauses
  rw [parseCauses, hread] at hparse
  dsimp only at hparse
  split at hparse
  · obtain ⟨cause, hmem, hcause⟩ := ExceptRun.mem_of_mapM hparse hparent
    exact isCauseAvailable_event (hall cause hmem) hcause
  · cases hparse

end Causes

/-! ## Ledgers with contiguous sequences -/

/-- A visible problem whose sequences up to the head are stored once each,
with screening receipts that can be read. -/
structure PublicLedger (platform : Platform) (db : Db) (problemId : String) (head : Int) :
    Prop where
  visible : ∃ p, visibleProblem db problemId = some p ∧ p.publicSeq = head
    ∧ (p.unlisted = 0 ∨ p.unlisted = 1)
  safe : safeInteger head = true
  unique : ((db.events.filter (·.problemId == problemId)).map (·.seq)).Nodup
  contiguous : ∀ s, 1 ≤ s → s ≤ head → ∃ e ∈ db.events, e.problemId = problemId ∧ e.seq = s
  receipts : ∀ screening ∈ db.screenings, ∃ notice,
    publicationScreeningNotice platform (some screening.provenanceJson) = .ok notice

namespace PublicLedger

variable {platform : Platform} {db : Db} {problemId : String} {head : Int} {p : Problem}

theorem tailEvents_seqs (h : PublicLedger platform db problemId head)
    (hp : visibleProblem db problemId = some p) (hhead : p.publicSeq = head) {since through : Int}
    (hsince : 0 ≤ since) (hthrough : through ≤ head) :
    (tailEvents db p since through).map (·.seq) = after since (through - since).toNat := by
  have hid := visibleProblem_id hp
  have hmem : ∀ e, e ∈ tailEvents db p since through
      ↔ e ∈ db.events ∧ e.problemId = problemId ∧ since < e.seq ∧ e.seq ≤ through := by
    intro e
    simp only [tailEvents, List.mem_mergeSort, List.mem_filter, Bool.and_eq_true, beq_iff_eq,
      decide_eq_true_eq, hid, hhead]
    constructor
    · rintro ⟨hstored, ⟨⟨hproblem, hlow⟩, hhigh⟩, -⟩
      exact ⟨hstored, hproblem, hlow, hhigh⟩
    · rintro ⟨hstored, hproblem, hlow, hhigh⟩
      exact ⟨hstored, ⟨⟨hproblem, hlow⟩, hhigh⟩, by omega⟩
  have hsorted : ((tailEvents db p since through).map (·.seq)).Pairwise (· ≤ ·) := by
    rw [List.pairwise_map]
    refine (List.pairwise_mergeSort (fun a b c hab hbc => ?_) (fun a b => ?_) _).imp fun hab => ?_
    · simp only [decide_eq_true_eq] at hab hbc ⊢
      omega
    · simp only [Bool.or_eq_true, decide_eq_true_eq]
      omega
    · exact decide_eq_true_eq.mp hab
  have hnodup : ((tailEvents db p since through).map (·.seq)).Nodup := by
    rw [tailEvents, ((List.mergeSort_perm _ _).map _).nodup_iff]
    refine h.unique.sublist (List.Sublist.map _ ?_)
    refine List.monotone_filter_right _ fun e he => ?_
    simp only [Bool.and_eq_true] at he
    rw [hid] at he
    exact he.1.1.1
  have hstrict : ((tailEvents db p since through).map (·.seq)).Pairwise (· < ·) :=
    (hsorted.and hnodup).imp fun hab => lt_of_le_of_ne hab.1 hab.2
  refine hstrict.eq_of_mem_iff (pairwise_after _ _) fun s => ?_
  rw [List.mem_map, mem_after]
  constructor
  · rintro ⟨e, he, rfl⟩
    obtain ⟨-, -, hlow, hhigh⟩ := (hmem e).mp he
    omega
  · rintro ⟨hlow, hhigh⟩
    obtain ⟨e, hstored, hproblem, rfl⟩ := h.contiguous s (by omega) (by omega)
    exact ⟨e, (hmem e).mpr ⟨hstored, hproblem, hlow, by omega⟩, rfl⟩

theorem publicEnvelope_exists (h : PublicLedger platform db problemId head) (through : Int)
    (e : Event) :
    ∃ event, publicEnvelope platform (eventRow platform db p through e) through = .ok event := by
  unfold publicEnvelope
  split
  · exact ⟨_, rfl⟩
  have hnotice : ∀ available : Bool, ∃ notice, publicationScreeningNotice platform
      (if available then (eventRow platform db p through e).screeningProvenance else none)
        = .ok notice := by
    intro available
    cases available with
    | false => exact ⟨none, rfl⟩
    | true =>
        change ∃ notice, publicationScreeningNotice platform
          ((db.screenings.find? (·.eventId == e.id)).map (·.provenanceJson)) = .ok notice
        cases hfound : db.screenings.find? (·.eventId == e.id) with
        | none => exact ⟨none, rfl⟩
        | some screening => exact h.receipts screening (List.mem_of_find?_eq_some hfound)
  obtain ⟨notice, hnotice⟩ := hnotice (eventRow platform db p through e).contentAvailable
  rw [hnotice]
  exact ⟨_, rfl⟩

theorem read_exists (h : PublicLedger platform db problemId head) {query : EventTailQuery}
    (hvalid : isQueryValid problemId query = true) (hahead : query.since ≤ query.through.getD head)
    (hpublished : query.through.getD head ≤ head) :
    ∃ page unlisted,
      readPublicEventTail platform db problemId query = .ok (some (page, unlisted)) := by
  obtain ⟨p, hp, rfl, hflag⟩ := h.visible
  have hbound : bound p query = query.through.getD p.publicSeq := rfl
  rw [← hbound] at hahead hpublished
  have hquery := hvalid
  simp only [isQueryValid, Bool.and_eq_true, decide_eq_true_eq] at hquery
  have hsince := hquery.1.1.1.1.1.2
  have hhead := h.safe
  simp only [safeInteger, isSafeInteger, Bool.and_eq_true, decide_eq_true_eq] at hsince hhead
  have hseqs := h.tailEvents_seqs hp rfl hsince.2 hpublished
  have hcomplete : (selected db p query).map (·.seq) = after query.since (expected p query) := by
    rw [selected, List.map_take, hseqs, take_after, expected]
    exact congrArg (after query.since) (by omega)
  have hsafe : safeInteger (bound p query) = true := by
    simp only [safeInteger, isSafeInteger, Bool.and_eq_true, decide_eq_true_eq]
    omega
  have hunlisted : (p.unlisted != 0 && p.unlisted != 1) = false := by
    rcases hflag with hflag | hflag
    · rw [hflag]; rfl
    · rw [hflag]; rfl
  obtain ⟨events, hevents⟩ := @takeEnvelopes_exists platform (bound p query)
    (((selected db p query).map (eventRow platform db p (bound p query))).take query.limit.toNat)
    (fun row hrow => by
      obtain ⟨e, -, rfl⟩ := List.mem_map.mp (List.mem_of_mem_take hrow)
      exact h.publicEnvelope_exists (bound p query) e) 0
  rw [readPublicEventTail_visible hvalid hp, h.safe, hsafe, hunlisted, if_neg (by decide),
    if_neg (by simp [hpublished, hahead]), if_pos hcomplete, hevents]
  exact ⟨_, _, rfl⟩

end PublicLedger

/-! ## Following the cursors -/

/-- The query of the next page, if the page says that there is one. -/
def nextQuery (query : EventTailQuery) (page : EventTailPage) : Option EventTailQuery :=
  if page.pageEnd.hasMore then
    some (query.resume page.pageEnd.through page.pageEnd.nextCursor)
  else none

theorem nextQuery_page (problemId : String) (query : EventTailQuery) (through : Int)
    (events : List PublicEventEnvelope) :
    nextQuery query (eventTailPage problemId query through events)
      = if query.since + (events.length : Int) < through then
          some (query.resume through (query.since + events.length)) else none := by
  simp only [nextQuery, eventTailPage, decide_eq_true_eq]

/-- One page of a reader whose reads see one state of the store after
another. -/
def ReadsPage (platform : Platform) (problemId : String) (dbs : Nat → Db)
    (c : Nat × EventTailQuery) (events : List PublicEventEnvelope)
    (next : Option (Nat × EventTailQuery)) : Prop :=
  ∃ page unlisted, readPublicEventTail platform (dbs c.1) problemId c.2 = .ok (some (page, unlisted))
    ∧ events = page.events ∧ next = (nextQuery c.2 page).map (c.1 + 1, ·)

def throughOf (db : Db) (problemId : String) (query : EventTailQuery) : Int :=
  query.through.getD (((visibleProblem db problemId).map (·.publicSeq)).getD 0)

section Walks

variable {platform : Platform} {problemId : String} {dbs : Nat → Db}

def Left (problemId : String) (dbs : Nat → Db) (c : Nat × EventTailQuery) (left : List Int) :
    Prop :=
  left = after c.2.since (throughOf (dbs c.1) problemId c.2 - c.2.since).toNat

theorem readsPage_step {c : Nat × EventTailQuery} {events : List PublicEventEnvelope}
    {next : Option (Nat × EventTailQuery)} {left : List Int}
    (hpage : ReadsPage platform problemId dbs c events next) (hleft : Left problemId dbs c left) :
    ∃ rest, left = events.map (·.seq) ++ rest ∧ Paging.Remains (Left problemId dbs) rest next := by
  obtain ⟨k, query⟩ := c
  obtain ⟨page, unlisted, hread, rfl, rfl⟩ := hpage
  dsimp only [Left] at hread hleft ⊢
  obtain ⟨p, hpage, hfound⟩ := readPublicEventTail_ok hread
  obtain ⟨hseqs, hle⟩ := hfound.seqs
  have hthrough : throughOf (dbs k) problemId query = bound p query := by
    rw [throughOf, hfound.visible]
    rfl
  have hsplit : (bound p query - query.since).toNat
      = page.events.length + (bound p query - (query.since + page.events.length)).toNat := by
    omega
  rw [hthrough, hsplit, after_add, ← hseqs] at hleft
  refine ⟨_, hleft, ?_⟩
  rw [(congrArg (nextQuery query) hpage).trans (nextQuery_page ..)]
  split
  · rfl
  · change after _ _ = []
    rw [show (bound p query - (query.since + page.events.length)).toNat = 0 by omega]
    rfl

/-- A cursor that can be read from, over stores with these heads. -/
structure Ready (problemId : String) (dbs : Nat → Db) (heads : Nat → Int)
    (c : Nat × EventTailQuery) : Prop where
  valid : isQueryValid problemId c.2 = true
  ahead : c.2.since ≤ throughOf (dbs c.1) problemId c.2
  published : throughOf (dbs c.1) problemId c.2 ≤ heads c.1

def remaining (problemId : String) (dbs : Nat → Db) (c : Nat × EventTailQuery) : Nat :=
  (throughOf (dbs c.1) problemId c.2 - c.2.since).toNat

theorem PublicLedger.throughOf_eq {db : Db} {head : Int}
    (h : PublicLedger platform db problemId head) (query : EventTailQuery) :
    throughOf db problemId query = query.through.getD head := by
  obtain ⟨p, hp, hseq, -⟩ := h.visible
  rw [throughOf, hp, ← hseq]
  rfl

theorem isQueryValid_resume {query : EventTailQuery} {through cursor : Int}
    (hvalid : isQueryValid problemId query = true) (hsafe : safeInteger through = true)
    (hcursor : query.since ≤ cursor) (hle : cursor ≤ through) :
    isQueryValid problemId (query.resume through cursor) = true := by
  simp only [isQueryValid, Bool.and_eq_true, decide_eq_true_eq] at hvalid
  obtain ⟨⟨⟨⟨⟨⟨hproblem, hsince⟩, hlimit⟩, hone⟩, hmax⟩, -⟩, hwait⟩ := hvalid
  have hcursorSafe : safeInteger cursor = true := by
    simp only [safeInteger, isSafeInteger, Bool.and_eq_true, decide_eq_true_eq] at hsince hsafe ⊢
    omega
  simp only [isQueryValid, EventTailQuery.resume, Bool.and_eq_true, Option.all_some]
  exact ⟨⟨⟨⟨⟨⟨hproblem, hcursorSafe⟩, hlimit⟩, decide_eq_true hone⟩, decide_eq_true hmax⟩, hsafe,
    decide_eq_true hle⟩, hwait⟩

theorem Ready.next {heads : Nat → Int}
    (hledgers : ∀ k, PublicLedger platform (dbs k) problemId (heads k)) (hgrows : Monotone heads)
    (c : Nat × EventTailQuery) (h : Ready problemId dbs heads c) :
    ∃ events next, ReadsPage platform problemId dbs c events next
      ∧ ∀ c' ∈ next, Ready problemId dbs heads c' ∧ remaining problemId dbs c'
        < remaining problemId dbs c := by
  obtain ⟨k, query⟩ := c
  obtain ⟨hvalid, hahead, hpublished⟩ := h
  dsimp only at hvalid hahead hpublished
  rw [(hledgers k).throughOf_eq] at hahead hpublished
  obtain ⟨page, unlisted, hread⟩ := (hledgers k).read_exists hvalid hahead hpublished
  obtain ⟨p, hpage, hfound⟩ := readPublicEventTail_ok hread
  have hthrough : bound p query = throughOf (dbs k) problemId query := by
    rw [throughOf, hfound.visible]
    rfl
  obtain ⟨-, hle⟩ := hfound.seqs
  refine ⟨page.events, _, ⟨page, unlisted, hread, rfl, rfl⟩, fun c hc => ?_⟩
  obtain ⟨next, hnext, rfl⟩ := Option.map_eq_some_iff.mp hc
  rw [(congrArg (nextQuery query) hpage).trans (nextQuery_page ..)] at hnext
  split at hnext
  · rename_i hlt
    cases hnext
    have hprogress := List.length_pos_iff.mpr (hfound.progress (by omega))
    have hbound : bound p query ≤ heads k := by
      rw [hthrough, (hledgers k).throughOf_eq]
      exact hpublished
    refine ⟨⟨isQueryValid_resume hvalid hfound.safe (by omega) hle, hle,
      hbound.trans (hgrows (Nat.le_succ k))⟩, ?_⟩
    change (bound p query - (query.since + page.events.length)).toNat
      < (throughOf (dbs k) problemId query - query.since).toNat
    rw [← hthrough]
    omega
  · cases hnext

/-- What one page shows: a page before the bound is not empty, its events
are stored, and the parents of an event are earlier ones of the problem. -/
theorem page_discloses {db : Db} {query : EventTailQuery} {page : EventTailPage} {unlisted : Bool}
    (hread : readPublicEventTail platform db problemId query = .ok (some (page, unlisted))) :
    (query.since < throughOf db problemId query → page.events ≠ [])
      ∧ ∀ event ∈ page.events, event.problemId = problemId
        ∧ (∃ e ∈ db.events, e.problemId = problemId ∧ e.seq = event.seq)
        ∧ (ReadsAlike platform db → ∀ disclosed ∈ event.event, ∀ parents,
          disclosed.causedBy = some parents → ∀ parent ∈ parents, parent.scopeId = problemId
            ∧ ∃ found ∈ db.events, found.problemId = problemId ∧ found.id = parent.eventId
              ∧ found.seq = parent.seq ∧ found.seq < event.seq) := by
  obtain ⟨p, -, hfound⟩ := readPublicEventTail_ok hread
  have hthrough : throughOf db problemId query = bound p query := by
    rw [throughOf, hfound.visible]
    rfl
  have hid := visibleProblem_id hfound.visible
  refine ⟨fun hlt => hfound.progress (hthrough ▸ hlt), fun event hevent => ?_⟩
  obtain ⟨taken, rest, hrows, htaken⟩ := takeEnvelopes_ok hfound.taken
  obtain ⟨row, hrow, hok⟩ := envelopes_mem htaken hevent
  have hmem : row ∈ ((selected db p query).take query.limit.toNat).map
      (eventRow platform db p (bound p query)) := hrows ▸ List.mem_append_left rest hrow
  obtain ⟨e, he, rfl⟩ := List.mem_map.mp hmem
  have hstored : e ∈ db.events ∧ e.problemId = problemId := by
    have htail : e ∈ tailEvents db p query.since (bound p query) :=
      List.mem_of_mem_take (List.mem_of_mem_take he)
    rw [tailEvents, List.mem_mergeSort, List.mem_filter] at htail
    simp only [Bool.and_eq_true, beq_iff_eq] at htail
    exact ⟨htail.1, htail.2.1.1.1.trans hid⟩
  obtain ⟨hproblem, hseq, -, hdisclosed⟩ := publicEnvelope_ok hok
  refine ⟨hproblem.trans hid, ⟨e, hstored.1, hstored.2, hseq.symm⟩, ?_⟩
  intro halike disclosed hmember parents hparents parent hparent
  obtain ⟨notice, rfl⟩ := hdisclosed disclosed hmember
  obtain ⟨-, text, -, -, hvalid⟩ := publicCausality_parents hparents
  simp only [areParentsValid, Bool.and_eq_true, List.all_eq_true, beq_iff_eq] at hvalid
  obtain ⟨found, hmemFound, hfoundProblem, hfoundId, hfoundSeq, hearlier⟩ :=
    disclosed_parents halike hparents hparent
  refine ⟨(hvalid.1.1 parent hparent).1.1.trans hid, found, hmemFound,
    hfoundProblem.trans hstored.2, hfoundId, hfoundSeq, ?_⟩
  rw [hseq]
  exact hearlier

theorem missing_refused {db : Db} {query : EventTailQuery} {p : Problem} {s : Int}
    (hvalid : isQueryValid problemId query = true) (hp : visibleProblem db problemId = some p)
    (hpublished : throughOf db problemId query ≤ p.publicSeq)
    (hs : query.since < s ∧ s ≤ throughOf db problemId query ∧ s ≤ query.since + query.limit + 1)
    (hmissing : ∀ e ∈ db.events, e.problemId = problemId → e.seq ≠ s) :
    readPublicEventTail platform db problemId query = .error .eventTailUnavailable := by
  have hthrough : throughOf db problemId query = bound p query := by
    rw [throughOf, hp]
    rfl
  rw [hthrough] at hpublished hs
  rw [readPublicEventTail_visible hvalid hp]
  split
  · rfl
  rw [if_neg (by simp; omega), if_neg]
  intro hcomplete
  have hmem : s ∈ (selected db p query).map (·.seq) := by
    rw [hcomplete, mem_after, expected]
    omega
  obtain ⟨e, he, rfl⟩ := List.mem_map.mp hmem
  have htail := List.mem_of_mem_take he
  rw [tailEvents, List.mem_mergeSort, List.mem_filter] at htail
  simp only [Bool.and_eq_true, beq_iff_eq] at htail
  exact hmissing e htail.1 (htail.2.1.1.1.trans (visibleProblem_id hp)) rfl

end Walks

/-- Over public ledgers that only grow, the pages read from a cursor come to
an end, and hold every sequence up to the bound of the first page once and in
order; so far as a walk has come, it has left none out. Each page makes
progress, a sequence that is not stored is an error, and the parents that an
event discloses are earlier events of the problem. -/
theorem readPublicEventTail_walks (platform : Platform) (problemId : String) (dbs : Nat → Db)
    (heads : Nat → Int) (query : EventTailQuery)
    (hledgers : ∀ k, PublicLedger platform (dbs k) problemId (heads k)) (hgrows : Monotone heads)
    (halike : ∀ k, ReadsAlike platform (dbs k)) (hvalid : isQueryValid problemId query = true)
    (hahead : query.since ≤ throughOf (dbs 0) problemId query)
    (hpublished : throughOf (dbs 0) problemId query ≤ heads 0) :
    let through := throughOf (dbs 0) problemId query
    let sequences := after query.since (through - query.since).toNat
    (∃ pages, Paging.Walk (ReadsPage platform problemId dbs) (0, query) pages none)
      ∧ (∀ pages next, Paging.Walk (ReadsPage platform problemId dbs) (0, query) pages next →
        ∃ rest, sequences = pages.flatten.map (·.seq) ++ rest ∧ (next = none → rest = []))
      ∧ (∀ k query page unlisted,
        readPublicEventTail platform (dbs k) problemId query = .ok (some (page, unlisted)) →
          (query.since < throughOf (dbs k) problemId query → page.events ≠ [])
          ∧ ∀ event ∈ page.events, ∀ disclosed ∈ event.event, ∀ parents,
            disclosed.causedBy = some parents → ∀ parent ∈ parents, parent.scopeId = problemId
              ∧ ∃ found ∈ (dbs k).events, found.problemId = problemId
                ∧ found.id = parent.eventId ∧ found.seq = parent.seq ∧ found.seq < event.seq)
      ∧ ∀ db query p s, isQueryValid problemId query = true →
        visibleProblem db problemId = some p → throughOf db problemId query ≤ p.publicSeq →
        (query.since < s ∧ s ≤ throughOf db problemId query
          ∧ s ≤ query.since + query.limit + 1) →
        (∀ e ∈ db.events, e.problemId = problemId → e.seq ≠ s) →
        readPublicEventTail platform db problemId query = .error .eventTailUnavailable := by
  refine ⟨?_, ?_, ?_, ?_⟩
  · have hready : Ready problemId dbs heads (0, query) := ⟨hvalid, hahead, hpublished⟩
    exact Paging.Walk.ends (Ready.next hledgers hgrows) hready
  · intro pages next hwalk
    obtain ⟨rest, hpages, hrest⟩ := hwalk.covers
      (fun _ _ _ _ => readsPage_step) (show Left problemId dbs (0, query) _ from rfl)
    refine ⟨rest, hpages, ?_⟩
    rintro rfl
    exact hrest
  · intro k query page unlisted hread
    obtain ⟨hprogress, hevents⟩ := page_discloses hread
    exact ⟨hprogress, fun event hevent => (hevents event hevent).2.2 (halike k)⟩
  · intro db query p s hquery hp hbound hs hmissing
    exact missing_refused hquery hp hbound hs hmissing

/-! ### Two events, one to a page -/

def samplePayload : String := "\x7b\"caused_by\":[]\x7d"

def samplePlatform : Platform where
  parse text :=
    if text = samplePayload then some (.object [("caused_by", .array [])])
    else if text = "[]" then some (.array []) else none
  causedByText _ := "[]"
  receipt _ := none

def sampleEvent (seq : Int) : Event :=
  { problemId := "P-1", seq, id := "EV-" ++ toString seq, type := "claim.created"
    objectKind := "claim", objectId := "C-1", objectVersion := seq
    createdAt := "2026-01-01T00:00:00.000Z", payloadSha256 := "", actorFellowId := none
    actorSponsorId := none, actorSessionId := none, modelStringSelfDeclared := none
    harness := none }

def sampleDb : Db :=
  { problems := [⟨"P-1", 2, 0, false⟩], events := [sampleEvent 2, sampleEvent 1]
    contents := [⟨"EV-1", "", samplePayload, false⟩], controls := [], screenings := [] }

theorem sampleDb_ledger : PublicLedger samplePlatform sampleDb "P-1" 2 where
  visible := ⟨⟨"P-1", 2, 0, false⟩, by decide +kernel, rfl, .inl rfl⟩
  safe := rfl
  unique := by decide +kernel
  contiguous s hlow hhigh := by
    obtain rfl | rfl : s = 1 ∨ s = 2 := by omega
    · exact ⟨sampleEvent 1, .tail _ (.head _), rfl, rfl⟩
    · exact ⟨sampleEvent 2, .head _, rfl, rfl⟩
  receipts := by rintro _ ⟨⟩

theorem sampleDb_readsAlike : ReadsAlike samplePlatform sampleDb := by
  rintro content hcontent payload causes hparse hcauses
  obtain rfl := List.mem_singleton.mp hcontent
  have hparsed : samplePlatform.parse samplePayload
      = some (.object [("caused_by", .array [])]) := by simp [samplePlatform]
  have hother : "[]" ≠ samplePayload := by decide
  obtain rfl := Option.some.inj (hparsed.symm.trans hparse)
  cases hcauses
  simp [samplePlatform, hother]

theorem readPublicEventTail_walks_sample :
    ∃ pages, Paging.Walk (ReadsPage samplePlatform "P-1" fun _ => sampleDb)
        (0, ⟨0, 1, none, none⟩) pages none ∧ pages.flatten.map (·.seq) = [1, 2] := by
  have hthrough : throughOf sampleDb "P-1" ⟨0, 1, none, none⟩ = 2 := by decide +kernel
  obtain ⟨⟨pages, hwalk⟩, hcovers, -⟩ := readPublicEventTail_walks samplePlatform "P-1"
    (fun _ => sampleDb) (fun _ => 2) ⟨0, 1, none, none⟩ (fun _ => sampleDb_ledger)
    monotone_const (fun _ => sampleDb_readsAlike) (by decide +kernel)
    (by rw [hthrough]; decide) (by rw [hthrough])
  obtain ⟨rest, hpages, hrest⟩ := hcovers pages none hwalk
  refine ⟨pages, hwalk, ?_⟩
  rw [hrest rfl, List.append_nil, hthrough] at hpages
  exact hpages.symm

end Asimposium.EventTail
