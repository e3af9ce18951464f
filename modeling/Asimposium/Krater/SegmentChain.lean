import Mathlib.Data.List.Perm.Subperm
import Asimposium.Krater.CanonicalText
import Asimposium.Krater.ExportRecords

/-!
# Segments compose

An archive is written in segments, each verified from the sequence and the
root its predecessor ended with. All segments of a partition verify
exactly when the whole export verifies from the genesis and no segment is
empty, and they end where it ends (`segments_compose`). An empty segment
is refused, since its terminal pin lies at the root it starts from.
-/

namespace Asimposium.Krater

/-! ## Sound ranges -/

structure ChainCursor where
  seq : Nat
  root : String
deriving Repr, DecidableEq

def ChainCursor.pin (cursor : ChainCursor) (problemId : String) : ProblemExportCheckpointPin :=
  { problemId, checkpointSeq := cursor.seq, rootChainDigest := cursor.root }

def ChainCursor.after (start : ChainCursor) (events : List ProblemExportEvent) : ChainCursor :=
  { seq := (events.getLast?.map (·.seq)).getD start.seq
    root := HashChain.tip (·.chainDigest) start.root events }

/-- What the verifier may be given as the root before a range. -/
structure Pinnable (sha256Hex : String → String) (problem : String) (cursor : ChainCursor) :
    Prop where
  safe : cursor.seq ≤ maxSafeInteger
  hex : isSha256Hex cursor.root = true
  genesis : cursor.seq = 0 → cursor.root = sha256Hex (genesisPreimage problem)

structure Sound (sha256Hex : String → String) (problem : String) (start : ChainCursor)
    (events : List ProblemExportEvent) (checkpoints : List KraterCheckpoint) : Prop where
  eventsOk : ∀ event ∈ events, parseEvent (eventRecord event) = .ok event
  checkpointsOk : ∀ c ∈ checkpoints, CheckpointExportable problem c
  ordered : Ordered (checkpointRows checkpoints)
  chain : ChainSound sha256Hex problem start.root (start.seq + 1) events
  marks : AllMark sha256Hex problem events (checkpointRows checkpoints)

section Ranges

variable {parseJson : String → Option JsonValue} {sha256Hex : String → String}
  {records : Records} {input : ProblemExportInput} {problem : String} {start : ChainCursor}
  {events later : List ProblemExportEvent} {checkpoints afterwards : List KraterCheckpoint}

theorem ChainSound.after_seq
    (h : ChainSound sha256Hex problem start.root (start.seq + 1) events) :
    (start.after events).seq = start.seq + events.length := by
  by_cases hne : events = []
  · rw [hne]
    rfl
  · have hcursor := h.finalCursor hne
    rw [← hcursor, ChainCursor.after, Krater.finalCursor]
    cases hlast : events.getLast? with
    | none => exact absurd (List.getLast?_eq_none_iff.mp hlast) hne
    | some last => rfl

theorem after_append : start.after (events ++ later) = (start.after events).after later := by
  unfold ChainCursor.after
  rw [ChainCursor.mk.injEq]
  refine ⟨?_, HashChain.tip_append⟩
  rw [List.getLast?_append]
  cases later.getLast? with
  | none => rfl
  | some last => rfl

theorem Sound.pinnable (h : Sound sha256Hex problem start events checkpoints)
    (hstart : Pinnable sha256Hex problem start) :
    Pinnable sha256Hex problem (start.after events) := by
  rcases List.eq_nil_or_concat' events with rfl | ⟨before, last, rfl⟩
  · exact hstart
  · obtain ⟨-, hpos, hsafe, hhex⟩ := parseEvent_ok (h.eventsOk last (by simp))
    have hseq : (start.after (before ++ [last])).seq = last.seq := by
      simp [ChainCursor.after]
    have hroot : (start.after (before ++ [last])).root = last.chainDigest := by
      simp [ChainCursor.after]
    refine ⟨hseq ▸ hsafe, hroot ▸ hhex, fun hzero => ?_⟩
    omega

theorem Sound.checkpoints_le (h : Sound sha256Hex problem start events checkpoints) :
    checkpoints.length ≤ events.length := by
  have hnodup : ((checkpointRows checkpoints).map (·.checkpointSeq)).Nodup := by
    exact (List.pairwise_map.mpr h.ordered).imp fun hlt => ne_of_lt hlt
  have hsub : (checkpointRows checkpoints).map (·.checkpointSeq) ⊆ events.map (·.seq) := by
    intro seq hseq
    obtain ⟨row, hrow, rfl⟩ := List.mem_map.mp hseq
    obtain ⟨event, hevent, hmarks⟩ := h.marks row hrow
    exact List.mem_map.mpr ⟨event, hevent, hmarks.seq.symm⟩
  have hle := (List.subperm_of_subset hnodup hsub).length_le
  simpa [checkpointRows] using hle

theorem Sound.bound (h : Sound sha256Hex problem start events checkpoints) :
    ∀ c ∈ checkpointRows checkpoints, c.checkpointSeq ≤ start.seq + events.length := by
  intro c hc
  obtain ⟨event, hevent, hmarks⟩ := h.marks c hc
  have hbounds := h.chain.seq_mem event hevent
  have heq := hmarks.seq
  omega

theorem verifyExportRange_sound {pin preceding : Option ProblemExportCheckpointPin}
    {verified : Verified} (h : Carries parseJson records input)
    (hverify : verifyExportRange parseJson sha256Hex records.text pin preceding = .ok verified) :
    HeadExportable input
      ∧ Sound sha256Hex input.problemId
        { seq := startSeq preceding, root := startRoot sha256Hex input.problemId preceding }
        input.events input.checkpoints
      ∧ Intact sha256Hex input.parsed pin preceding
      ∧ verified = { eventCount := input.events.length
                     finalChainDigest := HashChain.tip (·.chainDigest)
                       (startRoot sha256Hex input.problemId preceding) input.events } := by
  obtain ⟨parsed, hparse, hverify⟩ := ExceptRun.bind_ok.mp hverify
  obtain ⟨rfl, hexportable, -⟩ := (parseExportRange_carries h).mp hparse
  obtain ⟨hintact, hverified⟩ := (verifyParsed_ok hexportable.ordered).mp hverify
  exact ⟨hexportable.head, ⟨hexportable.events, hexportable.checkpoints, hexportable.ordered,
    hintact.chain, hintact.marks⟩, hintact, hverified⟩

theorem Sound.verifies {pin preceding : Option ProblemExportCheckpointPin}
    (hcarries : Carries parseJson records input) (hhead : HeadExportable input)
    (hsafe : startSeq preceding ≤ maxSafeInteger)
    (h : Sound sha256Hex input.problemId
      { seq := startSeq preceding, root := startRoot sha256Hex input.problemId preceding }
      input.events input.checkpoints)
    (hcursor : finalCursor input.events = startSeq preceding + input.events.length)
    (hend : rangeEnd preceding.isSome input.events = startSeq preceding + input.events.length)
    (hpin : pin.any (isPinInvalid input.problemId) = false)
    (hpreceding : preceding.any (isPrecedingInvalid sha256Hex input.problemId pin) = false)
    (hpinned : ∀ p ∈ pin, ∃ event ∈ input.events,
      p.checkpointSeq = event.seq ∧ p.rootChainDigest = event.chainDigest) :
    verifyExportRange parseJson sha256Hex records.text pin preceding
      = .ok { eventCount := input.events.length
              finalChainDigest := HashChain.tip (·.chainDigest)
                (startRoot sha256Hex input.problemId preceding) input.events } := by
  have hlast : finalCursor input.events ≤ maxSafeInteger := by
    rcases List.eq_nil_or_concat' input.events with hnil | ⟨before, last, hevents⟩
    · rw [hcursor, hnil]
      exact hsafe
    · obtain ⟨-, -, hle, -⟩ := parseEvent_ok (h.eventsOk last (by simp [hevents]))
      rw [finalCursor, hevents]
      simpa using hle
  refine ExceptRun.bind_ok.mpr ⟨input.parsed, (parseExportRange_carries hcarries).mpr
    ⟨rfl, ⟨hhead, h.checkpointsOk, h.ordered, h.eventsOk⟩, by omega, hlast, h.checkpoints_le,
      fun c hc => ?_⟩, ?_⟩
  · rw [hend]
    exact h.bound c hc
  · exact (verifyParsed_ok h.ordered).mpr
      ⟨⟨hpin, hpreceding, h.chain, h.marks, hpinned, rfl, hcursor⟩, rfl⟩

theorem verifyProblemExportChain_ok {verified : Verified} (h : Carries parseJson records input) :
    verifyProblemExportChain parseJson sha256Hex records.text none = .ok verified
      ↔ HeadExportable input
        ∧ Sound sha256Hex input.problemId
          { seq := 0, root := sha256Hex (genesisPreimage input.problemId) }
          input.events input.checkpoints
        ∧ verified = { eventCount := input.events.length
                       finalChainDigest := HashChain.tip (·.chainDigest)
                         (sha256Hex (genesisPreimage input.problemId)) input.events } := by
  constructor
  · intro hverify
    obtain ⟨hhead, hsound, -, hverified⟩ := verifyExportRange_sound h hverify
    exact ⟨hhead, hsound, hverified⟩
  · rintro ⟨hhead, hsound, rfl⟩
    have hcursor : finalCursor input.events = 0 + input.events.length := by
      by_cases hne : input.events = []
      · rw [hne]
        rfl
      · exact hsound.chain.finalCursor hne
    change verifyExportRange parseJson sha256Hex records.text none none = _
    exact Sound.verifies h hhead (Nat.zero_le _) hsound hcursor (Nat.zero_add _).symm rfl rfl
      (fun p hp => by cases hp)

theorem verifyProblemExportSegment_ok {verified : Verified} (h : Carries parseJson records input)
    (hstart : Pinnable sha256Hex input.problemId start) :
    verifyProblemExportSegment parseJson sha256Hex records.text (start.pin input.problemId)
        ((start.after input.events).pin input.problemId) = .ok verified
      ↔ HeadExportable input ∧ input.events ≠ []
        ∧ Sound sha256Hex input.problemId start input.events input.checkpoints
        ∧ verified = { eventCount := input.events.length
                       finalChainDigest := HashChain.tip (·.chainDigest) start.root
                         input.events } := by
  constructor
  · intro hverify
    obtain ⟨hhead, hsound, hintact, hverified⟩ := verifyExportRange_sound h hverify
    refine ⟨hhead, fun hnil => ?_, hsound, hverified⟩
    -- the terminal pin of an empty segment is the preceding one
    obtain ⟨event, hevent, -⟩ := hintact.pinned _ rfl
    have hevents : event ∈ input.events := hevent
    rw [hnil] at hevents
    exact absurd hevents List.not_mem_nil
  · rintro ⟨hhead, hne, hsound, rfl⟩
    have hlast := hsound.pinnable hstart
    have hafter := hsound.chain.after_seq
    have hlength : 0 < input.events.length := List.length_pos_of_ne_nil hne
    have hcursor : finalCursor input.events = start.seq + input.events.length :=
      hsound.chain.finalCursor hne
    have hpin : isPinInvalid input.problemId ((start.after input.events).pin input.problemId)
        = false := by
      have hsafe := hlast.safe
      have hpos : 0 < (start.after input.events).seq := by omega
      simp [isPinInvalid, ChainCursor.pin, isPositiveInteger, isNonNegativeInteger, isSafeInteger,
        hlast.hex, hsafe, hpos]
    have hpreceding : isPrecedingInvalid sha256Hex input.problemId
        (some ((start.after input.events).pin input.problemId)) (start.pin input.problemId)
        = false := by
      have hsafe := hstart.safe
      have hgrows : start.seq < (start.after input.events).seq := by omega
      have hgenesis := hstart.genesis
      simp only [isPrecedingInvalid, ChainCursor.pin, isNonNegativeInteger, isSafeInteger,
        hstart.hex]
      simpa [hsafe, hgrows] using hgenesis
    have hpinned : ∀ p ∈ some ((start.after input.events).pin input.problemId),
        ∃ event ∈ input.events,
          p.checkpointSeq = event.seq ∧ p.rootChainDigest = event.chainDigest := by
      rintro p ⟨⟩
      rcases List.eq_nil_or_concat' input.events with hnil | ⟨before, last, hevents⟩
      · exact absurd hnil hne
      · refine ⟨last, by simp [hevents], ?_, ?_⟩
        · simp [ChainCursor.pin, ChainCursor.after, hevents]
        · simp [ChainCursor.pin, ChainCursor.after, hevents]
    change verifyExportRange parseJson sha256Hex records.text _
      (some (start.pin input.problemId)) = _
    exact Sound.verifies h hhead hstart.safe hsound hcursor hcursor hpin hpreceding hpinned

/-- A range is sound when its parts are, the second from where the first
ends. A checkpoint is in the part that has its event, if any has. -/
theorem sound_append
    (hplaced : ∀ c ∈ checkpointRows checkpoints,
      (∃ event ∈ events ++ later, event.seq = c.checkpointSeq) →
        ∃ event ∈ events, event.seq = c.checkpointSeq)
    (hplaced' : ∀ c ∈ checkpointRows afterwards,
      (∃ event ∈ events ++ later, event.seq = c.checkpointSeq) →
        ∃ event ∈ later, event.seq = c.checkpointSeq) :
    Sound sha256Hex problem start (events ++ later) (checkpoints ++ afterwards)
      ↔ Sound sha256Hex problem start events checkpoints
        ∧ Sound sha256Hex problem (start.after events) later afterwards := by
  have hrows : checkpointRows (checkpoints ++ afterwards)
      = checkpointRows checkpoints ++ checkpointRows afterwards := List.map_append
  constructor
  · intro h
    obtain ⟨hfirst, hsecond⟩ := chainSound_append.mp h.chain
    have hordered := h.ordered
    have hmarks := h.marks
    rw [hrows] at hordered hmarks
    obtain ⟨hordered₁, hordered₂, -⟩ := List.pairwise_append.mp hordered
    have hseq : start.seq + 1 + events.length = (start.after events).seq + 1 := by
      rw [hfirst.after_seq]
      omega
    -- an event is known by its sequence
    have hmarked : ∀ part ⊆ events ++ later, ∀ c, (∃ event ∈ part, event.seq = c.checkpointSeq) →
        (∃ event ∈ events ++ later, Marks sha256Hex problem event c) →
          ∃ event ∈ part, Marks sha256Hex problem event c := by
      rintro part hpart c ⟨event, hevent, hat⟩ ⟨other, hother, hmark⟩
      have heq := h.chain.seq_injective (hpart hevent) hother (hat.trans hmark.seq)
      exact ⟨event, hevent, heq ▸ hmark⟩
    refine ⟨⟨fun e he => h.eventsOk e (List.mem_append_left _ he),
      fun c hc => h.checkpointsOk c (List.mem_append_left _ hc), hordered₁, hfirst,
      fun c hc => ?_⟩, ⟨fun e he => h.eventsOk e (List.mem_append_right _ he),
      fun c hc => h.checkpointsOk c (List.mem_append_right _ hc), hordered₂, hseq ▸ hsecond,
      fun c hc => ?_⟩⟩
    · have hmark := hmarks c (List.mem_append_left _ hc)
      obtain ⟨event, hevent, hat⟩ := hmark
      exact hmarked events (List.subset_append_left _ _) c
        (hplaced c hc ⟨event, hevent, hat.seq.symm⟩) ⟨event, hevent, hat⟩
    · have hmark := hmarks c (List.mem_append_right _ hc)
      obtain ⟨event, hevent, hat⟩ := hmark
      exact hmarked later (List.subset_append_right _ _) c
        (hplaced' c hc ⟨event, hevent, hat.seq.symm⟩) ⟨event, hevent, hat⟩
  · rintro ⟨h, h'⟩
    have hafter := h.chain.after_seq
    have hchain : ChainSound sha256Hex problem start.root (start.seq + 1) (events ++ later) := by
      refine chainSound_append.mpr ⟨h.chain, ?_⟩
      have hseq : (start.after events).seq + 1 = start.seq + 1 + events.length := by omega
      exact hseq ▸ h'.chain
    refine ⟨fun e he => (List.mem_append.mp he).elim (h.eventsOk e) (h'.eventsOk e),
      fun c hc => (List.mem_append.mp hc).elim (h.checkpointsOk c) (h'.checkpointsOk c), ?_,
      hchain, ?_⟩
    · rw [hrows]
      refine List.pairwise_append.mpr ⟨h.ordered, h'.ordered, fun c hc d hd => ?_⟩
      have hle := h.bound c hc
      obtain ⟨event, hevent, hmark⟩ := h'.marks d hd
      have hge := (h'.chain.seq_mem event hevent).1
      have heq := hmark.seq
      omega
    · rw [hrows]
      intro c hc
      rcases List.mem_append.mp hc with hc | hc
      · obtain ⟨event, hevent, hmark⟩ := h.marks c hc
        exact ⟨event, List.mem_append_left _ hevent, hmark⟩
      · obtain ⟨event, hevent, hmark⟩ := h'.marks c hc
        exact ⟨event, List.mem_append_right _ hevent, hmark⟩

theorem sound_nil : Sound sha256Hex problem start [] [] :=
  ⟨fun _ h => absurd h List.not_mem_nil, fun _ h => absurd h List.not_mem_nil, .nil, trivial,
    allMark_nil⟩

end Ranges

/-! ## Partitions -/

/-- A segment of a history, and the records it is written to. -/
structure Segment where
  records : Records
  events : List ProblemExportEvent
  checkpoints : List KraterCheckpoint
deriving Repr, DecidableEq

def Segment.input (head : ProblemExportInput) (segment : Segment) : ProblemExportInput :=
  { head with events := segment.events, checkpoints := segment.checkpoints }

def wholeInput (head : ProblemExportInput) (segments : List Segment) : ProblemExportInput :=
  { head with
    events := segments.flatMap (·.events), checkpoints := segments.flatMap (·.checkpoints) }

/-- A checkpoint is in the segment that has its event, if any has. -/
def IsPlaced (segments : List Segment) : Prop :=
  ∀ segment ∈ segments, ∀ c ∈ checkpointRows segment.checkpoints,
    (∃ event ∈ segments.flatMap (·.events), event.seq = c.checkpointSeq) →
      ∃ event ∈ segment.events, event.seq = c.checkpointSeq

section Partitions

variable (parseJson : String → Option JsonValue) (sha256Hex : String → String)

/-- Verify a segment from where its predecessor ended, up to its last
event. -/
def verifySegment (problemId : String) (cursor : ChainCursor) (segment : Segment) :
    Except Broken ChainCursor :=
  let terminal := cursor.after segment.events
  (verifyProblemExportSegment parseJson sha256Hex segment.records.text (cursor.pin problemId)
    (terminal.pin problemId)).map fun verified =>
      { seq := terminal.seq, root := verified.finalChainDigest }

def verifySegments (problemId : String) (segments : List Segment) (start : ChainCursor) :
    Except Broken ChainCursor :=
  segments.foldlM (verifySegment parseJson sha256Hex problemId) start

variable {parseJson : String → Option JsonValue} {sha256Hex : String → String}

theorem verifySegments_ok {head : ProblemExportInput} {segments : List Segment}
    {start last : ChainCursor}
    (hsegments : ∀ segment ∈ segments, Carries parseJson segment.records (segment.input head))
    (hplaced : IsPlaced segments) (hstart : Pinnable sha256Hex head.problemId start) :
    verifySegments parseJson sha256Hex head.problemId segments start = .ok last
      ↔ (∀ segment ∈ segments, segment.events ≠ []) ∧ (segments ≠ [] → HeadExportable head)
        ∧ Sound sha256Hex head.problemId start (segments.flatMap (·.events))
          (segments.flatMap (·.checkpoints))
        ∧ last = start.after (segments.flatMap (·.events)) := by
  induction segments generalizing start with
  | nil =>
      rw [verifySegments, ExceptRun.run_nil_ok]
      exact ⟨fun h => ⟨fun _ h => absurd h List.not_mem_nil, fun h => absurd rfl h, sound_nil,
        h.symm⟩, fun h => h.2.2.2.symm⟩
  | cons segment rest ih =>
      obtain ⟨hfirst, hrest⟩ := List.forall_mem_cons.mp hsegments
      have hhead : HeadExportable (segment.input head) ↔ HeadExportable head :=
        headExportable_congr rfl rfl rfl
      have hplacedRest : IsPlaced rest := by
        rintro other hother c hc ⟨event, hevent, hat⟩
        exact hplaced other (List.mem_cons_of_mem _ hother) c hc
          ⟨event, List.mem_append_right _ hevent, hat⟩
      have hplacedFirst := hplaced segment List.mem_cons_self
      rw [List.flatMap_cons] at hplacedFirst
      have hsplit := @sound_append sha256Hex head.problemId start segment.events
        (rest.flatMap (·.events)) segment.checkpoints (rest.flatMap (·.checkpoints))
        hplacedFirst (by
          rintro row hrow ⟨event, hevent, hat⟩
          obtain ⟨c, hc, rfl⟩ := List.mem_map.mp hrow
          obtain ⟨other, hother, hc⟩ := List.mem_flatMap.mp hc
          obtain ⟨own, hown, hat'⟩ := hplaced other (List.mem_cons_of_mem _ hother) _
            (List.mem_map_of_mem hc) ⟨event, hevent, hat⟩
          exact ⟨own, List.mem_flatMap.mpr ⟨other, hother, hown⟩, hat'⟩)
      rw [List.flatMap_cons, List.flatMap_cons, hsplit, after_append, List.forall_mem_cons,
        verifySegments, ExceptRun.run_cons_ok]
      constructor
      · rintro ⟨middle, hmiddle, hrun⟩
        obtain ⟨verified, hverified, rfl⟩ := ExceptRun.map_ok.mp hmiddle
        obtain ⟨hhead', hne, hsound, rfl⟩ :=
          (verifyProblemExportSegment_ok hfirst hstart).mp hverified
        obtain ⟨hnes, -, hsounds, hlast⟩ := (ih hrest hplacedRest (hsound.pinnable hstart)).mp hrun
        exact ⟨⟨hne, hnes⟩, fun _ => hhead.mp hhead', ⟨hsound, hsounds⟩, hlast⟩
      · rintro ⟨⟨hne, hnes⟩, hhead', ⟨hsound, hsounds⟩, hlast⟩
        have hexportable := hhead' (List.cons_ne_nil _ _)
        refine ⟨start.after segment.events, ExceptRun.map_ok.mpr
          ⟨_, (verifyProblemExportSegment_ok hfirst hstart).mpr
            ⟨hhead.mpr hexportable, hne, hsound, rfl⟩, rfl⟩, ?_⟩
        exact (ih hrest hplacedRest (hsound.pinnable hstart)).mpr
          ⟨hnes, fun _ => hexportable, hsounds, hlast⟩

/-- The segments of a partition verify one after the other exactly when
the whole export does and none of them is empty, and they end at its last
sequence and root. -/
theorem segments_compose {head : ProblemExportInput} {segments : List Segment} {whole : Records}
    (hsegments : ∀ segment ∈ segments, Carries parseJson segment.records (segment.input head))
    (hwhole : Carries parseJson whole (wholeInput head segments)) (hplaced : IsPlaced segments)
    (hhead : segments = [] → HeadExportable head)
    (hsha : ∀ text, isSha256Hex (sha256Hex text) = true) (last : ChainCursor) :
    verifySegments parseJson sha256Hex head.problemId segments
        { seq := 0, root := sha256Hex (genesisPreimage head.problemId) } = .ok last
      ↔ (∀ segment ∈ segments, segment.events ≠ [])
        ∧ ∃ verified, verifyProblemExportChain parseJson sha256Hex whole.text none = .ok verified
          ∧ last = { seq := verified.eventCount, root := verified.finalChainDigest } := by
  have hgenesis : Pinnable sha256Hex head.problemId
      { seq := 0, root := sha256Hex (genesisPreimage head.problemId) } :=
    ⟨Nat.zero_le _, hsha _, fun _ => rfl⟩
  have hheads : HeadExportable (wholeInput head segments) ↔ HeadExportable head :=
    headExportable_congr rfl rfl rfl
  rw [verifySegments_ok hsegments hplaced hgenesis]
  constructor
  · rintro ⟨hnes, hexportable, hsound, rfl⟩
    have hexportable' : HeadExportable head := by
      by_cases hnil : segments = []
      · exact hhead hnil
      · exact hexportable hnil
    refine ⟨hnes, _, (verifyProblemExportChain_ok hwhole).mpr
      ⟨hheads.mpr hexportable', hsound, rfl⟩, ?_⟩
    rw [ChainCursor.mk.injEq]
    exact ⟨hsound.chain.after_seq.trans (Nat.zero_add _), rfl⟩
  · rintro ⟨hnes, verified, hverified, rfl⟩
    obtain ⟨hexportable, hsound, rfl⟩ := (verifyProblemExportChain_ok hwhole).mp hverified
    refine ⟨hnes, fun _ => hheads.mp hexportable, hsound, ?_⟩
    rw [ChainCursor.mk.injEq]
    exact ⟨(hsound.chain.after_seq.trans (Nat.zero_add _)).symm, rfl⟩

end Partitions

/-! ## An empty segment -/

def sampleEvent : ProblemExportEvent :=
  { eventId := "E-1", type := "claim.created", objectKind := "claim", objectId := "C-1"
    objectVersion := 1
    payloadSha256 := "44136fa355b3678a1146ad16f7e8649e94fb4fc21fe77e8310c060f61caaff8a"
    createdAt := "2020-01-01T00:00:00Z"
    actor := { fellowId := none, sponsorId := none, sessionId := none, modelSelfDeclared := none,
               harness := none, credentialId := none }
    seq := 1
    rowDigest := "ae29a07d57367365b5725c25a08d3e06338e2dfaf8931363b831916ca4393527"
    chainDigest := "557483736817f9312131f01fcc4c6dcbd2e3fa50d1b5a70479ef03d74b6b29f8"
    payloadJson := "\x7b\x7d" }

def sampleGenesis : String := "6ae87241d7fc68e10ed80506592af9c72cead36228077d8f4f4741bb12cd5eb0"

def sampleSha (text : String) : String :=
  if text = "\x7b\x7d" then sampleEvent.payloadSha256
  else if text = eventEnvelopeRowPreimage "P-AB" 1 sampleEvent.toEventEnvelope then
    sampleEvent.rowDigest
  else if text = eventChainPreimage "P-AB" 1 sampleEvent.payloadSha256 sampleEvent.rowDigest
      sampleGenesis then sampleEvent.chainDigest
  else sampleGenesis

def sampleInput (title : String) (events : List ProblemExportEvent) : ProblemExportInput :=
  { problemId := "P-AB", problemTitle := title, events, checkpoints := []
    generatedAt := "2020-01-01T00:00:00Z" }

theorem isSha256Hex_ofList (chars : List Char) :
    isSha256Hex (String.ofList chars) = (chars.length == 64
      && chars.all fun c => c.isDigit || ('a' ≤ c && c ≤ 'f')) := by
  rw [isSha256Hex, String.toList_ofList]

theorem sampleSha_hex (text : String) : isSha256Hex (sampleSha text) = true := by
  unfold sampleSha
  split_ifs
  · exact (isSha256Hex_ofList _).trans (by decide)
  · exact (isSha256Hex_ofList _).trans (by decide)
  · exact (isSha256Hex_ofList _).trans (by decide)
  · exact (isSha256Hex_ofList _).trans (by decide)

theorem sample_parse : parseEvent (eventRecord sampleEvent) = .ok sampleEvent := by
  decide +kernel

theorem sample_head (events : List ProblemExportEvent) :
    HeadExportable (sampleInput "T" events) ∧ HeadExportable (sampleInput "U" events) := by
  have hnone : HeadExportable (sampleInput "T" []) ∧ HeadExportable (sampleInput "U" []) := by
    unfold HeadExportable
    decide +kernel
  exact ⟨(headExportable_congr rfl rfl rfl).mp hnone.1,
    (headExportable_congr rfl rfl rfl).mp hnone.2⟩

theorem canonicalJson_nil : canonicalJson [] = "\x7b\x7d" := rfl

theorem sampleSha_row : sampleSha (eventEnvelopeRowPreimage "P-AB" 1 sampleEvent.toEventEnvelope)
    = sampleEvent.rowDigest := by
  have hempty : eventEnvelopeRowPreimage "P-AB" 1 sampleEvent.toEventEnvelope ≠ "\x7b\x7d" := by
    intro h
    have hmembers := canonicalJson_injective (h.trans canonicalJson_nil.symm)
    cases hmembers
  rw [sampleSha, if_neg hempty, if_pos rfl]

theorem sampleSha_chain : sampleSha (eventChainPreimage "P-AB" 1 sampleEvent.payloadSha256
    sampleEvent.rowDigest sampleGenesis) = sampleEvent.chainDigest := by
  have hempty : eventChainPreimage "P-AB" 1 sampleEvent.payloadSha256 sampleEvent.rowDigest
      sampleGenesis ≠ "\x7b\x7d" := by
    intro h
    have hmembers := canonicalJson_injective (h.trans canonicalJson_nil.symm)
    cases hmembers
  have hrow : eventChainPreimage "P-AB" 1 sampleEvent.payloadSha256 sampleEvent.rowDigest
      sampleGenesis ≠ eventEnvelopeRowPreimage "P-AB" 1 sampleEvent.toEventEnvelope := by
    intro h
    have hlength := congrArg List.length (canonicalJson_injective h)
    cases hlength
  rw [sampleSha, if_neg hempty, if_neg hrow, if_pos rfl]

theorem sampleSha_genesis : sampleSha (genesisPreimage "P-AB") = sampleGenesis := by
  have hempty : genesisPreimage "P-AB" ≠ "\x7b\x7d" := by
    intro h
    have hmembers := canonicalJson_injective (h.trans canonicalJson_nil.symm)
    cases hmembers
  have hrow : genesisPreimage "P-AB"
      ≠ eventEnvelopeRowPreimage "P-AB" 1 sampleEvent.toEventEnvelope := by
    intro h
    have hlength := congrArg List.length (canonicalJson_injective h)
    cases hlength
  have hchain : genesisPreimage "P-AB" ≠ eventChainPreimage "P-AB" 1 sampleEvent.payloadSha256
      sampleEvent.rowDigest sampleGenesis := by
    intro h
    have hlength := congrArg List.length (canonicalJson_injective h)
    cases hlength
  rw [sampleSha, if_neg hempty, if_neg hrow, if_neg hchain]

theorem sample_sound : Sound sampleSha "P-AB"
    { seq := 0, root := sampleSha (genesisPreimage "P-AB") } [sampleEvent] [] := by
  rw [sampleSha_genesis]
  have hevent : EventSound sampleSha "P-AB" sampleGenesis 1 sampleEvent :=
    ⟨rfl, if_pos rfl, sampleSha_row, sampleSha_chain⟩
  refine ⟨fun event hevent => ?_, fun _ h => absurd h List.not_mem_nil, .nil, ⟨hevent, trivial⟩,
    allMark_nil⟩
  rw [List.mem_singleton.mp hevent]
  exact sample_parse

def sampleHeader : String :=
  "\x7b\"control\":\"export_header\",\"format\":\"asimposium.problem-export.v3\",\"license\":\"CC BY 4.0\",\"problem\":\"P-AB\",\"title\":\"T\",\"generated_at\":\"2020-01-01T00:00:00Z\",\"checkpoints\":[]\x7d"

def sampleRetitled : String :=
  "\x7b\"control\":\"export_header\",\"format\":\"asimposium.problem-export.v3\",\"license\":\"CC BY 4.0\",\"problem\":\"P-AB\",\"title\":\"U\",\"generated_at\":\"2020-01-01T00:00:00Z\",\"checkpoints\":[]\x7d"

def sampleLine : String :=
  "\x7b\"event_id\":\"E-1\",\"seq\":1,\"type\":\"claim.created\",\"object_kind\":\"claim\",\"object_id\":\"C-1\",\"object_version\":1,\"payload_sha256\":\"44136fa355b3678a1146ad16f7e8649e94fb4fc21fe77e8310c060f61caaff8a\",\"row_digest\":\"ae29a07d57367365b5725c25a08d3e06338e2dfaf8931363b831916ca4393527\",\"chain_digest\":\"557483736817f9312131f01fcc4c6dcbd2e3fa50d1b5a70479ef03d74b6b29f8\",\"chain_version\":2,\"created_at\":\"2020-01-01T00:00:00Z\",\"actor_fellow_id\":null,\"actor_sponsor_id\":null,\"actor_session_id\":null,\"model_string_self_declared\":null,\"harness\":null,\"writer_credential_id\":null,\"payload_json\":\"\x7b\x7d\"\x7d"

def sampleTrailer : String :=
  "\x7b\"control\":\"export_end\",\"problem\":\"P-AB\",\"event_count\":1,\"final_cursor\":1\x7d"

def sampleEmptyTrailer : String :=
  "\x7b\"control\":\"export_end\",\"problem\":\"P-AB\",\"event_count\":0,\"final_cursor\":0\x7d"

/-- `JSON.parse` of the lines above. -/
def sampleJson (line : String) : Option JsonValue :=
  if line = sampleHeader then some (.object (headerRecord (sampleInput "T" [])))
  else if line = sampleRetitled then some (.object (headerRecord (sampleInput "U" [])))
  else if line = sampleLine then some (.object (eventRecord sampleEvent))
  else if line = sampleTrailer then some (.object (trailerRecord (sampleInput "T" [sampleEvent])))
  else if line = sampleEmptyTrailer then some (.object (trailerRecord (sampleInput "T" [])))
  else none

theorem ne_of_chars {a b : List Char} (h : a ≠ b) : String.ofList a ≠ String.ofList b :=
  fun heq => h (String.ofList_injective heq)

theorem isRecordLine_ofList (chars : List Char) : isRecordLine (String.ofList chars)
    = (!chars.isEmpty && !chars.contains '\n' && !chars.contains '\r') := by
  have hempty : (String.ofList chars).isEmpty = chars.isEmpty := by
    cases chars with
    | nil => rfl
    | cons c rest => simp [String.isEmpty_eq_false_iff]
  rw [isRecordLine, hempty, String.toList_ofList]

set_option maxRecDepth 4000 in
theorem sample_lines : ∀ line ∈ [sampleHeader, sampleRetitled, sampleLine, sampleTrailer,
    sampleEmptyTrailer], isRecordLine line = true := by
  simp only [List.forall_mem_cons]
  refine ⟨(isRecordLine_ofList _).trans (by decide), (isRecordLine_ofList _).trans (by decide),
    (isRecordLine_ofList _).trans (by decide), (isRecordLine_ofList _).trans (by decide),
    (isRecordLine_ofList _).trans (by decide), fun _ h => absurd h List.not_mem_nil⟩

set_option maxRecDepth 4000 in
theorem sampleJson_line : sampleJson sampleLine = some (.object (eventRecord sampleEvent)) := by
  have hheader : sampleLine ≠ sampleHeader := ne_of_chars (by decide)
  have hretitled : sampleLine ≠ sampleRetitled := ne_of_chars (by decide)
  rw [sampleJson, if_neg hheader, if_neg hretitled, if_pos rfl]

set_option maxRecDepth 4000 in
theorem sampleJson_trailer : sampleJson sampleTrailer
    = some (.object (trailerRecord (sampleInput "T" [sampleEvent]))) := by
  have hheader : sampleTrailer ≠ sampleHeader := ne_of_chars (by decide)
  have hretitled : sampleTrailer ≠ sampleRetitled := ne_of_chars (by decide)
  have hline : sampleTrailer ≠ sampleLine := ne_of_chars (by decide)
  rw [sampleJson, if_neg hheader, if_neg hretitled, if_neg hline, if_pos rfl]

set_option maxRecDepth 4000 in
theorem sampleJson_emptyTrailer : sampleJson sampleEmptyTrailer
    = some (.object (trailerRecord (sampleInput "T" []))) := by
  have hheader : sampleEmptyTrailer ≠ sampleHeader := ne_of_chars (by decide)
  have hretitled : sampleEmptyTrailer ≠ sampleRetitled := ne_of_chars (by decide)
  have hline : sampleEmptyTrailer ≠ sampleLine := ne_of_chars (by decide)
  have htrailer : sampleEmptyTrailer ≠ sampleTrailer := ne_of_chars (by decide)
  rw [sampleJson, if_neg hheader, if_neg hretitled, if_neg hline, if_neg htrailer, if_pos rfl]

/-- The export of one event, and the same with another title. -/
def sampleRecords : Records :=
  { first := sampleHeader, events := [sampleLine], last := sampleTrailer }

def emptyRecords : Records := { first := sampleHeader, events := [], last := sampleEmptyTrailer }

theorem sample_carries : Carries sampleJson sampleRecords (sampleInput "T" [sampleEvent]) :=
  ⟨fun line hline => sample_lines line
      ((by simp [Records.lines, sampleRecords] : sampleRecords.lines ⊆ _) hline),
    if_pos rfl, .cons sampleJson_line .nil, sampleJson_trailer⟩

theorem empty_carries : Carries sampleJson emptyRecords (sampleInput "T" []) :=
  ⟨fun line hline => sample_lines line
      ((by simp [Records.lines, emptyRecords] : emptyRecords.lines ⊆ _) hline),
    if_pos rfl, .nil, sampleJson_emptyTrailer⟩

def sampleSegment : Segment :=
  { records := sampleRecords, events := [sampleEvent], checkpoints := [] }

def emptySegment : Segment := { records := emptyRecords, events := [], checkpoints := [] }

theorem sample_placed (segments : List Segment) (h : ∀ s ∈ segments, s.checkpoints = []) :
    IsPlaced segments := by
  intro segment hsegment c hc
  rw [h segment hsegment] at hc
  exact absurd hc List.not_mem_nil

theorem sample_verified : verifyProblemExportChain sampleJson sampleSha sampleRecords.text none
    = .ok { eventCount := 1, finalChainDigest := sampleEvent.chainDigest } :=
  (verifyProblemExportChain_ok sample_carries).mpr ⟨(sample_head _).1, sample_sound, rfl⟩

/-- The whole verifies, and so does its one event; an empty segment after
it does not. -/
theorem empty_segment_refused :
    ¬ ∀ (parseJson : String → Option JsonValue) (sha256Hex : String → String)
      (head : ProblemExportInput) (segments : List Segment) (whole : Records),
      (∀ segment ∈ segments, Carries parseJson segment.records (segment.input head)) →
      Carries parseJson whole (wholeInput head segments) → IsPlaced segments →
      (∀ text, isSha256Hex (sha256Hex text) = true) →
      ((∃ last, verifySegments parseJson sha256Hex head.problemId segments
          { seq := 0, root := sha256Hex (genesisPreimage head.problemId) } = .ok last)
        ↔ ∃ verified, verifyProblemExportChain parseJson sha256Hex whole.text none
          = .ok verified) := by
  intro h
  have hsegments : ∀ segment ∈ [sampleSegment, emptySegment],
      Carries sampleJson segment.records (segment.input (sampleInput "T" [])) := by
    rw [List.forall_mem_cons, List.forall_mem_singleton]
    exact ⟨sample_carries, empty_carries⟩
  have hplaced : IsPlaced [sampleSegment, emptySegment] :=
    sample_placed _ (by rw [List.forall_mem_cons, List.forall_mem_singleton]; exact ⟨rfl, rfl⟩)
  have hstart : Pinnable sampleSha "P-AB"
      { seq := 0, root := sampleSha (genesisPreimage "P-AB") } :=
    ⟨Nat.zero_le _, sampleSha_hex _, fun _ => rfl⟩
  obtain ⟨last, hlast⟩ := (h sampleJson sampleSha (sampleInput "T" []) [sampleSegment, emptySegment]
    sampleRecords hsegments sample_carries hplaced sampleSha_hex).mpr ⟨_, sample_verified⟩
  have hne := ((verifySegments_ok hsegments hplaced hstart).mp hlast).1
  exact hne emptySegment (by simp) rfl

/-- The sample in one segment. -/
theorem segments_compose_sample :
    verifySegments sampleJson sampleSha "P-AB" [sampleSegment]
        { seq := 0, root := sampleSha (genesisPreimage "P-AB") }
      = .ok { seq := 1, root := sampleEvent.chainDigest } := by
  have hsegments : ∀ segment ∈ [sampleSegment],
      Carries sampleJson segment.records (segment.input (sampleInput "T" [])) := by
    rw [List.forall_mem_singleton]
    exact sample_carries
  have hplaced : IsPlaced [sampleSegment] :=
    sample_placed _ (by rw [List.forall_mem_singleton]; rfl)
  refine (@segments_compose _ _ _ _ sampleRecords hsegments sample_carries hplaced
    (fun hnil => by cases hnil) sampleSha_hex _).mpr ⟨?_, _, sample_verified, rfl⟩
  rw [List.forall_mem_singleton]
  exact List.cons_ne_nil _ _

end Asimposium.Krater
