import Asimposium.Lib.ExceptRun
import Asimposium.Lib.HashChain
import Asimposium.Krater.Export

/-!
# What an intact export is

The verifier is a loop with four cursors. It accepts exactly the exports
whose events are a chain from the starting root, whose checkpoints each
mark one of the events, and whose pin is met by one (`verifyParsed_ok`).
-/

namespace Asimposium.Krater

section Laws

variable {sha256Hex : String → String} {problem : String}

/-! ## Chains and checkpoints -/

structure EventSound (sha256Hex : String → String) (problem previous : String) (seq : Nat)
    (event : ParsedEvent) : Prop where
  seq : event.seq = seq
  payload : sha256Hex event.payloadJson = event.payloadSha256
  row : sha256Hex (eventEnvelopeRowPreimage problem event.seq event.toEventEnvelope)
    = event.rowDigest
  chain : sha256Hex (eventChainPreimage problem event.seq event.payloadSha256 event.rowDigest
    previous) = event.chainDigest

def ChainSound (sha256Hex : String → String) (problem : String) :
    String → Nat → List ParsedEvent → Prop
  | _, _, [] => True
  | previous, seq, event :: rest => EventSound sha256Hex problem previous seq event
      ∧ ChainSound sha256Hex problem event.chainDigest (seq + 1) rest

structure Marks (sha256Hex : String → String) (problem : String) (event : ParsedEvent)
    (checkpoint : CheckpointRow) : Prop where
  seq : checkpoint.checkpointSeq = event.seq
  root : checkpoint.rootChainDigest = event.chainDigest
  digest : sha256Hex (checkpointPreimage problem checkpoint.checkpointSeq
    checkpoint.rootChainDigest) = checkpoint.checkpointDigest

def AllMark (sha256Hex : String → String) (problem : String) (events : List ParsedEvent)
    (checkpoints : List CheckpointRow) : Prop :=
  ∀ checkpoint ∈ checkpoints, ∃ event ∈ events, Marks sha256Hex problem event checkpoint

abbrev Ordered (checkpoints : List CheckpointRow) : Prop :=
  checkpoints.Pairwise fun c d => c.checkpointSeq < d.checkpointSeq

variable {previous : String} {seq : Nat} {events : List ParsedEvent}

theorem ChainSound.seq_mem (h : ChainSound sha256Hex problem previous seq events) :
    ∀ event ∈ events, seq ≤ event.seq ∧ event.seq < seq + events.length := by
  induction events generalizing previous seq with
  | nil => exact fun _ hmem => absurd hmem List.not_mem_nil
  | cons event rest ih =>
      intro other hmem
      have hseq := h.1.seq
      rw [List.length_cons]
      rcases List.mem_cons.mp hmem with rfl | hrest
      · omega
      · have hbounds := ih h.2 other hrest
        omega

variable {event : ParsedEvent}

theorem ChainSound.seq_injective (h : ChainSound sha256Hex problem previous seq events)
    {other : ParsedEvent} (hevent : event ∈ events) (hother : other ∈ events)
    (heq : event.seq = other.seq) : event = other := by
  induction events generalizing previous seq with
  | nil => exact absurd hevent List.not_mem_nil
  | cons first rest ih =>
      have hfirst := h.1.seq
      rcases List.mem_cons.mp hevent with rfl | hrest
      · rcases List.mem_cons.mp hother with rfl | hrest'
        · rfl
        · have hge := (h.2.seq_mem other hrest').1
          omega
      · rcases List.mem_cons.mp hother with rfl | hrest'
        · have hge := (h.2.seq_mem event hrest).1
          omega
        · exact ih h.2 hrest hrest'

theorem ChainSound.finalCursor (h : ChainSound sha256Hex problem previous (seq + 1) events)
    (hne : events ≠ []) : finalCursor events = seq + events.length := by
  induction events generalizing previous seq with
  | nil => exact absurd rfl hne
  | cons event rest ih =>
      cases rest with
      | nil => exact h.1.seq
      | cons next rest =>
          have hrest := ih h.2 (List.cons_ne_nil _ _)
          rw [Krater.finalCursor, List.getLast?_cons_cons]
          rw [Krater.finalCursor] at hrest
          rw [hrest, List.length_cons, List.length_cons, List.length_cons]
          omega

theorem chainSound_append {later : List ParsedEvent} :
    ChainSound sha256Hex problem previous seq (events ++ later)
      ↔ ChainSound sha256Hex problem previous seq events
        ∧ ChainSound sha256Hex problem (HashChain.tip (·.chainDigest) previous events)
          (seq + events.length) later := by
  induction events generalizing previous seq with
  | nil => simp [ChainSound]
  | cons event rest ih =>
      have hseq : seq + 1 + rest.length = seq + (event :: rest).length := by
        rw [List.length_cons]
        omega
      rw [List.cons_append, ChainSound, ChainSound, ih, HashChain.tip_cons, and_assoc, hseq]

theorem allMark_nil : AllMark sha256Hex problem events [] :=
  fun _ h => absurd h List.not_mem_nil

theorem verifyCheckpoint_ordered {checkpoints left : List CheckpointRow}
    (hordered : Ordered checkpoints)
    (h : verifyCheckpoint sha256Hex problem event checkpoints = .ok left) : Ordered left := by
  cases checkpoints with
  | nil => cases h; exact hordered
  | cons checkpoint after =>
      rw [verifyCheckpoint] at h
      split_ifs at h
      · cases h
        exact hordered
      · cases h
      · cases h
      · cases h
        exact (List.pairwise_cons.mp hordered).2

theorem verifyCheckpoint_ok {rest : List ParsedEvent} {checkpoints : List CheckpointRow}
    (hordered : Ordered checkpoints) (hlater : ∀ other ∈ rest, event.seq < other.seq) :
    AllMark sha256Hex problem (event :: rest) checkpoints
      ↔ ∃ left, verifyCheckpoint sha256Hex problem event checkpoints = .ok left
        ∧ AllMark sha256Hex problem rest left := by
  cases checkpoints with
  | nil =>
      exact ⟨fun _ => ⟨[], rfl, allMark_nil⟩, fun _ => allMark_nil⟩
  | cons checkpoint after =>
      obtain ⟨hfirst, hafter⟩ := List.pairwise_cons.mp hordered
      by_cases hseq : checkpoint.checkpointSeq = event.seq
      · -- it is due here; those after it belong to later events
        have hdrop : AllMark sha256Hex problem (event :: rest) after
            ↔ AllMark sha256Hex problem rest after := by
          refine ⟨fun h c hc => ?_, fun h c hc => ?_⟩
          · obtain ⟨other, hother, hmarks⟩ := h c hc
            rcases List.mem_cons.mp hother with rfl | hrest
            · have hlt := hfirst c hc
              have heq := hmarks.seq
              omega
            · exact ⟨other, hrest, hmarks⟩
          · obtain ⟨other, hother, hmarks⟩ := h c hc
            exact ⟨other, List.mem_cons_of_mem _ hother, hmarks⟩
        rw [verifyCheckpoint, if_neg (not_not.mpr hseq)]
        constructor
        · intro h
          obtain ⟨other, hother, hmarks⟩ := h checkpoint List.mem_cons_self
          have heq : other = event := by
            rcases List.mem_cons.mp hother with rfl | hrest
            · rfl
            · have hlt := hlater other hrest
              have hseq' := hmarks.seq
              omega
          subst heq
          rw [if_neg (not_not.mpr hmarks.root), if_neg (not_not.mpr hmarks.digest)]
          exact ⟨after, rfl, hdrop.mp fun c hc => h c (List.mem_cons_of_mem _ hc)⟩
        · rintro ⟨left, hleft, hmark⟩
          split_ifs at hleft with hroot hdigest
          · cases hleft
          · cases hleft
          cases hleft
          intro c hc
          rcases List.mem_cons.mp hc with rfl | hrest
          · exact ⟨event, List.mem_cons_self, hseq, not_not.mp hroot, not_not.mp hdigest⟩
          · exact hdrop.mpr hmark c hrest
      · rw [verifyCheckpoint, if_pos hseq]
        constructor
        · intro h
          refine ⟨_, rfl, fun c hc => ?_⟩
          obtain ⟨first, hmem, hmarks⟩ := h checkpoint List.mem_cons_self
          have hge : event.seq < checkpoint.checkpointSeq := by
            rcases List.mem_cons.mp hmem with rfl | hrest
            · exact absurd hmarks.seq hseq
            · exact hmarks.seq ▸ hlater first hrest
          obtain ⟨other, hother, hmarks'⟩ := h c hc
          rcases List.mem_cons.mp hother with rfl | hrest
          · have hle : checkpoint.checkpointSeq ≤ c.checkpointSeq := by
              rcases List.mem_cons.mp hc with rfl | hafter
              · exact le_rfl
              · exact (hfirst c hafter).le
            have heq := hmarks'.seq
            omega
          · exact ⟨other, hrest, hmarks'⟩
        · rintro ⟨left, hleft, hmark⟩
          cases hleft
          intro c hc
          obtain ⟨other, hother, hmarks⟩ := hmark c hc
          exact ⟨other, List.mem_cons_of_mem _ hother, hmarks⟩

/-! ## The loop -/

theorem verifyDigests_ok :
    verifyDigests sha256Hex problem previous event = .ok ()
      ↔ EventSound sha256Hex problem previous event.seq event := by
  unfold verifyDigests
  constructor
  · intro h
    split_ifs at h with hpayload hrow hchain
    exact ⟨rfl, not_not.mp hpayload, not_not.mp hrow, not_not.mp hchain⟩
  · intro h
    rw [if_neg (not_not.mpr h.payload), if_neg (not_not.mpr h.row),
      if_neg (not_not.mpr h.chain)]

/-- The event, if it is the pinned one, has the pinned root. -/
def RespectsPin (pin : Option ProblemExportCheckpointPin) (event : ParsedEvent) : Prop :=
  ∀ p ∈ pin, p.checkpointSeq = event.seq → p.rootChainDigest = event.chainDigest

def isPinned (pin : Option ProblemExportCheckpointPin) (event : ParsedEvent) : Bool :=
  pin.any fun pin => pin.checkpointSeq == (event.seq : Int)

variable {pin : Option ProblemExportCheckpointPin}

theorem respectsPin_iff :
    (isPinned pin event && !pin.any (·.rootChainDigest == event.chainDigest)) = false
      ↔ RespectsPin pin event := by
  cases pin with
  | none => simp [isPinned, RespectsPin]
  | some p => simp [isPinned, RespectsPin]

theorem verifyEvent_ok {position after : Position} :
    verifyEvent sha256Hex problem pin position event = .ok after
      ↔ EventSound sha256Hex problem position.previous position.expectedSeq event
        ∧ RespectsPin pin event
        ∧ ∃ left, verifyCheckpoint sha256Hex problem event position.checkpoints = .ok left
          ∧ after = { previous := event.chainDigest, expectedSeq := position.expectedSeq + 1,
                      checkpoints := left,
                      matchedExternalPin := position.matchedExternalPin || isPinned pin event } := by
  unfold verifyEvent
  constructor
  · intro h
    split_ifs at h with hseq
    obtain ⟨hdigests, h⟩ := ExceptRun.bind_unit_ok.mp h
    have hsound := verifyDigests_ok.mp hdigests
    have hseq' := not_not.mp hseq
    dsimp only at h
    split_ifs at h with hpin
    · cases h
    obtain ⟨left, hleft, rfl⟩ := ExceptRun.map_ok.mp h
    exact ⟨⟨hseq', hsound.payload, hsound.row, hsound.chain⟩,
      respectsPin_iff.mp (Bool.not_eq_true _ ▸ hpin), left, hleft, rfl⟩
  · rintro ⟨hsound, hpin, left, hleft, rfl⟩
    have hdigests : verifyDigests sha256Hex problem position.previous event = .ok () :=
      verifyDigests_ok.mpr ⟨rfl, hsound.payload, hsound.row, hsound.chain⟩
    have hpin' := respectsPin_iff.mpr hpin
    rw [if_neg (not_not.mpr hsound.seq), hdigests]
    change (if (isPinned pin event && !pin.any (·.rootChainDigest == event.chainDigest)) = true
      then _ else _) = _
    rw [hpin', if_neg Bool.false_ne_true, hleft]
    rfl

theorem verifyEvents_ok {pin : Option ProblemExportCheckpointPin} {position after : Position}
    {events : List ParsedEvent} (hordered : Ordered position.checkpoints) :
    (events.foldlM (verifyEvent sha256Hex problem pin) position = .ok after
        ∧ after.checkpoints = [])
      ↔ ChainSound sha256Hex problem position.previous position.expectedSeq events
        ∧ AllMark sha256Hex problem events position.checkpoints
        ∧ (∀ event ∈ events, RespectsPin pin event)
        ∧ after = { previous := HashChain.tip (·.chainDigest) position.previous events,
                    expectedSeq := position.expectedSeq + events.length, checkpoints := [],
                    matchedExternalPin :=
                      position.matchedExternalPin || events.any (isPinned pin) } := by
  induction events generalizing position with
  | nil =>
      rw [ExceptRun.run_nil_ok]
      constructor
      · rintro ⟨rfl, hnil⟩
        refine ⟨trivial, hnil ▸ allMark_nil, fun _ h => absurd h List.not_mem_nil, ?_⟩
        obtain ⟨previous, seq, checkpoints, matched⟩ := position
        cases hnil
        simp
      · rintro ⟨-, hmark, -, rfl⟩
        have hnil : position.checkpoints = [] := by
          refine List.eq_nil_iff_forall_not_mem.mpr fun c hc => ?_
          obtain ⟨event, hevent, -⟩ := hmark c hc
          exact List.not_mem_nil hevent
        obtain ⟨previous, seq, checkpoints, matched⟩ := position
        cases hnil
        simp
  | cons event rest ih =>
      have hlater : EventSound sha256Hex problem position.previous position.expectedSeq event →
          ChainSound sha256Hex problem event.chainDigest (position.expectedSeq + 1) rest →
          ∀ other ∈ rest, event.seq < other.seq := by
        intro hsound hrest other hother
        have hseq := hsound.seq
        have hge := (hrest.seq_mem other hother).1
        omega
      have hposition : position.expectedSeq + 1 + rest.length
          = position.expectedSeq + (event :: rest).length := by
        rw [List.length_cons]
        omega
      rw [ExceptRun.run_cons_ok, ChainSound, HashChain.tip_cons, List.forall_mem_cons,
        List.any_cons, ← Bool.or_assoc, ← hposition]
      constructor
      · rintro ⟨⟨middle, hmiddle, hrun⟩, hnil⟩
        obtain ⟨hsound, hpin, left, hleft, rfl⟩ := verifyEvent_ok.mp hmiddle
        obtain ⟨hrest, hmark, hpins, hafter⟩ :=
          (ih (verifyCheckpoint_ordered hordered hleft)).mp ⟨hrun, hnil⟩
        exact ⟨⟨hsound, hrest⟩,
          (verifyCheckpoint_ok hordered (hlater hsound hrest)).mpr ⟨left, hleft, hmark⟩,
          ⟨hpin, hpins⟩, hafter⟩
      · rintro ⟨⟨hsound, hrest⟩, hmark, ⟨hpin, hpins⟩, hafter⟩
        obtain ⟨left, hleft, hmark'⟩ :=
          (verifyCheckpoint_ok hordered (hlater hsound hrest)).mp hmark
        let middle : Position :=
          { previous := event.chainDigest, expectedSeq := position.expectedSeq + 1,
            checkpoints := left,
            matchedExternalPin := position.matchedExternalPin || isPinned pin event }
        obtain ⟨hrun, hnil⟩ := (@ih middle (verifyCheckpoint_ordered hordered hleft)).mpr
          ⟨hrest, hmark', hpins, hafter⟩
        exact ⟨⟨_, verifyEvent_ok.mpr ⟨hsound, hpin, left, hleft, rfl⟩, hrun⟩, hnil⟩

/-! ## Intact exports -/

def startRoot (sha256Hex : String → String) (problem : String)
    (preceding : Option ProblemExportCheckpointPin) : String :=
  (preceding.map (·.rootChainDigest)).getD (sha256Hex (genesisPreimage problem))

def startSeq (preceding : Option ProblemExportCheckpointPin) : Nat :=
  (preceding.map (·.checkpointSeq.toNat)).getD 0

structure Intact (sha256Hex : String → String) (parsed : ParsedExport)
    (pin preceding : Option ProblemExportCheckpointPin) : Prop where
  pinValid : pin.any (isPinInvalid parsed.header.problem) = false
  precedingValid :
    preceding.any (isPrecedingInvalid sha256Hex parsed.header.problem pin) = false
  chain : ChainSound sha256Hex parsed.header.problem
    (startRoot sha256Hex parsed.header.problem preceding) (startSeq preceding + 1) parsed.events
  marks : AllMark sha256Hex parsed.header.problem parsed.events parsed.header.checkpoints
  pinned : ∀ p ∈ pin, ∃ event ∈ parsed.events,
    p.checkpointSeq = event.seq ∧ p.rootChainDigest = event.chainDigest
  count : parsed.trailer.eventCount = parsed.events.length
  cursor : parsed.trailer.finalCursor = startSeq preceding + parsed.events.length

theorem pinned_iff (h : ChainSound sha256Hex problem previous seq events) :
    ((∀ event ∈ events, RespectsPin pin event) ∧ (pin.isNone || events.any (isPinned pin)) = true)
      ↔ ∀ p ∈ pin, ∃ event ∈ events,
        p.checkpointSeq = event.seq ∧ p.rootChainDigest = event.chainDigest := by
  cases pin with
  | none => simp [RespectsPin]
  | some p =>
      have hpinned : ∀ event, isPinned (some p) event = true ↔ p.checkpointSeq = event.seq := by
        intro event
        simp [isPinned]
      simp only [Option.isNone_some, Bool.false_or, List.any_eq_true, hpinned, Option.mem_some_iff,
        forall_eq', RespectsPin]
      constructor
      · rintro ⟨hrespects, event, hevent, hseq⟩
        exact ⟨event, hevent, hseq, hrespects event hevent hseq⟩
      · rintro ⟨event, hevent, hseq, hroot⟩
        refine ⟨fun other hother hseq' => ?_, event, hevent, hseq⟩
        have heq : other = event := h.seq_injective hother hevent (by omega)
        rw [heq]
        exact hroot

variable {parsed : ParsedExport}

theorem verifyEnd_ok {position : Position} {verified : Verified} :
    verifyEnd parsed position = .ok verified
      ↔ parsed.trailer.eventCount = parsed.events.length
        ∧ parsed.trailer.finalCursor = position.expectedSeq - 1
        ∧ position.checkpoints = [] ∧ position.matchedExternalPin = true
        ∧ verified = { eventCount := parsed.events.length
                       finalChainDigest := position.previous } := by
  unfold verifyEnd
  constructor
  · intro h
    split_ifs at h with hcount hcursor hleft hpin
    · cases h
    · cases h
    · cases h
    · cases h
    cases h
    exact ⟨not_not.mp hcount, not_not.mp hcursor, not_not.mp hleft, by simpa using hpin, rfl⟩
  · rintro ⟨hcount, hcursor, hleft, hpin, rfl⟩
    rw [if_neg (not_not.mpr hcount), if_neg (not_not.mpr hcursor), if_neg (not_not.mpr hleft),
      if_neg (by simp [hpin])]

theorem verifyParsed_ok {preceding : Option ProblemExportCheckpointPin} {verified : Verified}
    (hordered : Ordered parsed.header.checkpoints) :
    verifyParsed sha256Hex parsed pin preceding = .ok verified
      ↔ Intact sha256Hex parsed pin preceding
        ∧ verified = { eventCount := parsed.events.length
                       finalChainDigest := HashChain.tip (·.chainDigest)
                         (startRoot sha256Hex parsed.header.problem preceding) parsed.events } := by
  unfold verifyParsed
  constructor
  · intro h
    dsimp only at h
    split_ifs at h with hpin hpreceding
    · cases h
    · cases h
    obtain ⟨after, hrun, hend⟩ := ExceptRun.bind_ok.mp h
    obtain ⟨hcount, hcursor, hleft, hmatched, hverified⟩ := verifyEnd_ok.mp hend
    obtain ⟨hchain, hmark, hrespects, rfl⟩ := (verifyEvents_ok hordered).mp ⟨hrun, hleft⟩
    refine ⟨⟨by simpa using hpin, by simpa using hpreceding, hchain, hmark,
      (pinned_iff hchain).mp ⟨hrespects, hmatched⟩, hcount, ?_⟩, hverified⟩
    rw [hcursor]
    simp only [startPosition, startSeq]
    omega
  · rintro ⟨hintact, hverified⟩
    obtain ⟨hrespects, hmatched⟩ := (pinned_iff hintact.chain).mpr hintact.pinned
    obtain ⟨hrun, hleft⟩ := (@verifyEvents_ok sha256Hex parsed.header.problem pin
      (startPosition sha256Hex parsed.header.problem parsed.header.checkpoints pin preceding) _
      parsed.events hordered).mpr ⟨hintact.chain, hintact.marks, hrespects, rfl⟩
    rw [if_neg (by simp [hintact.pinValid]), if_neg (by simp [hintact.precedingValid]), hrun]
    refine verifyEnd_ok.mpr ⟨hintact.count, ?_, rfl, hmatched, hverified⟩
    rw [hintact.cursor]
    simp only [startPosition, startSeq]
    omega

/-! ## Parsed checkpoints -/

theorem parseCheckpoints_ordered {values : List JsonValue} {index previous : Nat}
    {checkpoints : List CheckpointRow}
    (h : parseCheckpoints problem values index previous = .ok checkpoints) :
    Ordered checkpoints ∧ ∀ c ∈ checkpoints, previous < c.checkpointSeq := by
  induction values generalizing index previous checkpoints with
  | nil =>
      cases h
      exact ⟨.nil, fun _ h => absurd h List.not_mem_nil⟩
  | cons value rest ih =>
      obtain ⟨checkpoint, -, h⟩ := ExceptRun.bind_ok.mp h
      split_ifs at h with hle
      obtain ⟨after, hafter, rfl⟩ := ExceptRun.map_ok.mp h
      obtain ⟨hordered, hlater⟩ := ih hafter
      refine ⟨.cons hlater hordered, List.forall_mem_cons.mpr ⟨by omega, fun c hc => ?_⟩⟩
      have hlt := hlater c hc
      omega

theorem parseHeader_ok {record : JsonRecord} {header : ParsedHeader} :
    parseHeader record = .ok header
      ↔ parseHeaderFields record = .ok header.problem
        ∧ ∃ values, record.lookup "checkpoints" = some (.array values)
          ∧ parseCheckpoints header.problem values 1 0 = .ok header.checkpoints := by
  unfold parseHeader
  constructor
  · intro h
    obtain ⟨id, hid, h⟩ := ExceptRun.bind_ok.mp h
    cases hvalues : record.lookup "checkpoints" with
    | none => rw [hvalues] at h; cases h
    | some value =>
        rw [hvalues] at h
        cases value with
        | array values =>
            obtain ⟨checkpoints, hparse, rfl⟩ := ExceptRun.map_ok.mp h
            exact ⟨hid, values, rfl, hparse⟩
        | null => cases h
        | bool value => cases h
        | number value => cases h
        | fraction => cases h
        | text value => cases h
        | object members => cases h
  · rintro ⟨hid, values, hvalues, hparse⟩
    refine ExceptRun.bind_ok.mpr ⟨_, hid, ?_⟩
    rw [hvalues]
    exact ExceptRun.map_ok.mpr ⟨_, hparse, rfl⟩

theorem unplaced_ok {α : Type} {result : Except String α} {value : α} :
    unplaced result = .ok value ↔ result = .ok value := by
  cases result with
  | error reason => simp [unplaced, broken]
  | ok other => simp [unplaced]

theorem parseFramed_ok {parseJson : String → Option JsonValue} {segment : Bool}
    {first last : String} {lines : List String} :
    parseFramed parseJson segment first lines last = .ok parsed
      ↔ parseHeaderRecord parseJson first = .ok parsed.header
        ∧ parseTrailerRecord parseJson last = .ok parsed.trailer
        ∧ parsed.trailer.problem = parsed.header.problem
        ∧ parseEventRecords parseJson lines 0 = .ok parsed.events
        ∧ parsed.header.checkpoints.length ≤ parsed.events.length
        ∧ ∀ c ∈ parsed.header.checkpoints, c.checkpointSeq ≤ rangeEnd segment parsed.events := by
  unfold parseFramed
  constructor
  · intro h
    obtain ⟨header, hheader, h⟩ := ExceptRun.bind_ok.mp h
    obtain ⟨trailer, htrailer, h⟩ := ExceptRun.bind_ok.mp h
    split_ifs at h with hproblem
    · cases h
    obtain ⟨events, hevents, h⟩ := ExceptRun.bind_ok.mp h
    split_ifs at h with hcount hbound
    · cases h
    · cases h
    cases h
    refine ⟨unplaced_ok.mp hheader, unplaced_ok.mp htrailer, not_not.mp hproblem, hevents,
      not_lt.mp hcount, fun c hc => ?_⟩
    by_contra hlt
    exact hbound (List.any_eq_true.mpr ⟨c, hc, by simpa using hlt⟩)
  · rintro ⟨hheader, htrailer, hproblem, hevents, hcount, hbound⟩
    refine ExceptRun.bind_ok.mpr ⟨_, unplaced_ok.mpr hheader, ?_⟩
    refine ExceptRun.bind_ok.mpr ⟨_, unplaced_ok.mpr htrailer, ?_⟩
    rw [if_neg (not_not.mpr hproblem)]
    refine ExceptRun.bind_ok.mpr ⟨_, hevents, ?_⟩
    have hnone : ¬ parsed.header.checkpoints.any (fun checkpoint =>
        decide (rangeEnd segment parsed.events < checkpoint.checkpointSeq)) = true := by
      intro hany
      obtain ⟨c, hc, hlt⟩ := List.any_eq_true.mp hany
      exact absurd (hbound c hc) (not_le.mpr (by simpa using hlt))
    rw [if_neg (not_lt.mpr hcount), if_neg hnone]

theorem parseExportRange_ordered {parseJson : String → Option JsonValue} {ndjson : String}
    {segment : Bool} (h : parseExportRange parseJson ndjson segment = .ok parsed) :
    Ordered parsed.header.checkpoints := by
  obtain ⟨lines, -, h⟩ := ExceptRun.bind_ok.mp h
  cases lines with
  | nil => cases h
  | cons first rest =>
      cases rest with
      | nil => cases h
      | cons line rest =>
          obtain ⟨record, -, hheader⟩ := ExceptRun.bind_ok.mp (parseFramed_ok.mp h).1
          obtain ⟨-, values, -, hparse⟩ := parseHeader_ok.mp hheader
          exact (parseCheckpoints_ordered hparse).1

end Laws

end Asimposium.Krater
