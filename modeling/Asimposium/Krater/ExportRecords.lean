import Asimposium.Krater.ExportLaws

/-!
# Exported records

What the parser makes of the records an export is serialized to: a record
that is accepted comes back as it was exported, and so does the text of
an export whose records are accepted (`parseExportRange_carries`).
-/

namespace Asimposium.Krater

/-! ## Fields -/

theorem textSuch_ok {holds : String → Bool} {s t : String}
    (h : textSuch holds (some (.text s)) = some t) : t = s ∧ holds s = true := by
  rw [textSuch] at h
  split_ifs at h with hs
  cases h
  exact ⟨rfl, hs⟩

theorem nullable_ok {maximum : Nat} {s t : Option String}
    (h : nullableBoundedNonBlankString maximum (some (.nullable s)) = some t) : t = s := by
  cases s with
  | none =>
      cases h
      rfl
  | some s =>
      obtain ⟨u, hu, rfl⟩ := Option.map_eq_some_iff.mp h
      rw [(textSuch_ok hu).1]

theorem nonNegativeInteger_number {n : Nat} :
    nonNegativeInteger (some (.number n)) = if n ≤ maxSafeInteger then some n else none := by
  simp [nonNegativeInteger, isSafeInteger]

theorem positiveInteger_ok {m n : Nat} (h : positiveInteger (some (.number m)) = some n) :
    n = m ∧ 0 < m ∧ m ≤ maxSafeInteger := by
  rw [positiveInteger, nonNegativeInteger_number] at h
  obtain ⟨hn, hpos⟩ := Option.filter_eq_some_iff.mp h
  split_ifs at hn with hle
  cases hn
  exact ⟨rfl, by simpa using hpos, hle⟩

/-! ## Events -/

theorem parseAttribution_ok {event : ProblemExportEvent} {actor : Attribution}
    (h : parseAttribution (eventRecord event) = some actor) : actor = event.actor := by
  obtain ⟨fellowId, hfellow, h⟩ := Option.bind_eq_some_iff.mp h
  obtain ⟨sponsorId, hsponsor, h⟩ := Option.bind_eq_some_iff.mp h
  obtain ⟨sessionId, hsession, h⟩ := Option.bind_eq_some_iff.mp h
  obtain ⟨model, hmodel, h⟩ := Option.bind_eq_some_iff.mp h
  obtain ⟨harness, hharness, h⟩ := Option.bind_eq_some_iff.mp h
  obtain ⟨credentialId, hcredential, h⟩ := Option.bind_eq_some_iff.mp h
  cases h
  rw [nullable_ok hfellow, nullable_ok hsponsor, nullable_ok hsession, nullable_ok hmodel,
    nullable_ok hharness, nullable_ok hcredential]

theorem parseEnvelope_ok {event : ProblemExportEvent} {envelope : EventEnvelope}
    (h : parseEnvelope (eventRecord event) = some envelope) :
    envelope = event.toEventEnvelope := by
  obtain ⟨eventId, hid, h⟩ := Option.bind_eq_some_iff.mp h
  obtain ⟨type, htype, h⟩ := Option.bind_eq_some_iff.mp h
  obtain ⟨objectKind, hkind, h⟩ := Option.bind_eq_some_iff.mp h
  obtain ⟨objectId, hobject, h⟩ := Option.bind_eq_some_iff.mp h
  obtain ⟨objectVersion, hversion, h⟩ := Option.bind_eq_some_iff.mp h
  obtain ⟨payloadSha256, hpayload, h⟩ := Option.bind_eq_some_iff.mp h
  obtain ⟨createdAt, hcreated, h⟩ := Option.bind_eq_some_iff.mp h
  obtain ⟨actor, hactor, h⟩ := Option.bind_eq_some_iff.mp h
  cases h
  rw [(textSuch_ok hid).1, (textSuch_ok htype).1, (textSuch_ok hkind).1, (textSuch_ok hobject).1,
    (positiveInteger_ok hversion).1, (textSuch_ok hpayload).1, (textSuch_ok hcreated).1,
    parseAttribution_ok hactor]

theorem parseEvent_ok {event parsed : ProblemExportEvent}
    (h : parseEvent (eventRecord event) = .ok parsed) :
    parsed = event ∧ 0 < event.seq ∧ event.seq ≤ maxSafeInteger
      ∧ isSha256Hex event.chainDigest = true := by
  unfold parseEvent at h
  split_ifs at h
  cases hfields : parseEventFields (eventRecord event) with
  | none => rw [hfields] at h; cases h
  | some found =>
      rw [hfields] at h
      cases h
      obtain ⟨envelope, henvelope, h⟩ := Option.bind_eq_some_iff.mp hfields
      obtain ⟨seq, hseq, h⟩ := Option.bind_eq_some_iff.mp h
      obtain ⟨payload, hpayload, h⟩ := Option.bind_eq_some_iff.mp h
      obtain ⟨row, hrow, h⟩ := Option.bind_eq_some_iff.mp h
      obtain ⟨chain, hchain, h⟩ := Option.bind_eq_some_iff.mp h
      split_ifs at h
      cases h
      obtain ⟨rfl, hpos, hsafe⟩ := positiveInteger_ok hseq
      obtain ⟨rfl, hhex⟩ := textSuch_ok hchain
      refine ⟨?_, hpos, hsafe, hhex⟩
      rw [(textSuch_ok hpayload).1, (textSuch_ok hrow).1, parseEnvelope_ok henvelope]

/-! ## Checkpoints -/

variable {problem : String}

theorem parseCheckpoint_ok {checkpoint : KraterCheckpoint} {index : Nat} {row : CheckpointRow}
    (h : parseCheckpoint (checkpointRecord checkpoint) problem index = .ok row) :
    row = checkpoint.toCheckpointRow ∧ 0 < checkpoint.checkpointSeq := by
  unfold parseCheckpoint checkpointRecord at h
  dsimp only at h
  split_ifs at h
  split at h
  · cases h
  · rename_i found hfields
    cases h
    obtain ⟨seq, hseq, hfields⟩ := Option.bind_eq_some_iff.mp hfields
    obtain ⟨root, hroot, hfields⟩ := Option.bind_eq_some_iff.mp hfields
    obtain ⟨digest, hdigest, hfields⟩ := Option.bind_eq_some_iff.mp hfields
    split_ifs at hfields
    cases hfields
    obtain ⟨rfl, hpos, -⟩ := positiveInteger_ok hseq
    rw [(textSuch_ok hroot).1, (textSuch_ok hdigest).1]
    exact ⟨rfl, hpos⟩

theorem parseCheckpoint_index {value : JsonValue} {index other : Nat} {row : CheckpointRow}
    (h : parseCheckpoint value problem index = .ok row) :
    parseCheckpoint value problem other = .ok row := by
  unfold parseCheckpoint at h ⊢
  cases value with
  | object record =>
      dsimp only at h ⊢
      split_ifs at h ⊢
      cases hfields : parseCheckpointFields record with
      | none => rw [hfields] at h; cases h
      | some found => rw [hfields] at h; exact h
  | null => cases h
  | bool value => cases h
  | number value => cases h
  | fraction => cases h
  | text value => cases h
  | array elements => cases h

def CheckpointExportable (problem : String) (checkpoint : KraterCheckpoint) : Prop :=
  parseCheckpoint (checkpointRecord checkpoint) problem 0 = .ok checkpoint.toCheckpointRow

theorem checkpointExportable_pos {checkpoint : KraterCheckpoint}
    (h : CheckpointExportable problem checkpoint) : 0 < checkpoint.checkpointSeq :=
  (parseCheckpoint_ok h).2

def checkpointRows (checkpoints : List KraterCheckpoint) : List CheckpointRow :=
  checkpoints.map (·.toCheckpointRow)

theorem parseCheckpoints_ok {checkpoints : List KraterCheckpoint} {rows : List CheckpointRow}
    {index previous : Nat} :
    parseCheckpoints problem (checkpoints.map checkpointRecord) index previous = .ok rows
      ↔ rows = checkpointRows checkpoints ∧ (∀ c ∈ checkpoints, CheckpointExportable problem c)
        ∧ Ordered (checkpointRows checkpoints)
        ∧ ∀ c ∈ checkpointRows checkpoints, previous < c.checkpointSeq := by
  induction checkpoints generalizing rows index previous with
  | nil => simp [parseCheckpoints, checkpointRows, eq_comm]
  | cons checkpoint rest ih =>
      rw [List.map_cons, parseCheckpoints, checkpointRows, List.map_cons, ← checkpointRows,
        List.forall_mem_cons, List.forall_mem_cons, Ordered, List.pairwise_cons]
      constructor
      · intro h
        obtain ⟨row, hrow, h⟩ := ExceptRun.bind_ok.mp h
        split_ifs at h with hle
        obtain ⟨after, hafter, rfl⟩ := ExceptRun.map_ok.mp h
        obtain ⟨rfl, hrest, hordered, hlater⟩ := ih.mp hafter
        cases (parseCheckpoint_ok hrow).1
        refine ⟨rfl, ⟨parseCheckpoint_index hrow, hrest⟩, ⟨hlater, hordered⟩, not_le.mp hle,
          fun c hc => ?_⟩
        have hlt := hlater c hc
        omega
      · rintro ⟨rfl, ⟨hfirst, hrest⟩, ⟨hlater, hordered⟩, hlt, -⟩
        refine ExceptRun.bind_ok.mpr ⟨_, parseCheckpoint_index hfirst, ?_⟩
        rw [if_neg (not_le.mpr hlt)]
        exact ExceptRun.map_ok.mpr ⟨_, ih.mpr ⟨rfl, hrest, hordered, hlater⟩, rfl⟩

/-! ## Header and trailer -/

/-- The title, the date and the problem id are admissible. -/
def HeadExportable (input : ProblemExportInput) : Prop :=
  parseHeaderFields (headerRecord input) = .ok input.problemId

theorem parseHeaderFields_ok {input : ProblemExportInput}
    (h : parseHeaderFields (headerRecord input) = .ok problem) :
    problem = input.problemId ∧ isProblemId input.problemId = true := by
  unfold parseHeaderFields at h
  split_ifs at h
  · split at h
    · cases h
    · cases h
  · split at h
    · cases h
    · cases h
  · split at h
    · cases h
    · rename_i id hid
      cases h
      exact textSuch_ok hid

theorem headExportable_congr {input other : ProblemExportInput}
    (hproblem : input.problemId = other.problemId) (htitle : input.problemTitle = other.problemTitle)
    (hdate : input.generatedAt = other.generatedAt) :
    HeadExportable input ↔ HeadExportable other := by
  have hkeys : (headerRecord input).map (·.1) = (headerRecord other).map (·.1) := rfl
  have hfields : ∀ key, key ≠ "checkpoints" →
      (headerRecord input).lookup key = (headerRecord other).lookup key := by
    intro key hkey
    simp [headerRecord, hproblem, htitle, hdate, List.lookup_cons, beq_eq_false_iff_ne.mpr hkey]
  unfold HeadExportable parseHeaderFields hasExactKeys
  rw [hkeys, hfields "control" (by decide), hfields "format" (by decide),
    hfields "license" (by decide), hfields "problem" (by decide), hfields "title" (by decide),
    hfields "generated_at" (by decide), hproblem]

theorem parseTrailer_ok {input : ProblemExportInput} {trailer : ParsedTrailer} :
    parseTrailer (trailerRecord input) = .ok trailer
      ↔ trailer = { problem := input.problemId, eventCount := input.events.length,
                    finalCursor := finalCursor input.events }
        ∧ isProblemId input.problemId = true ∧ input.events.length ≤ maxSafeInteger
        ∧ finalCursor input.events ≤ maxSafeInteger := by
  have hkeys : hasExactKeys (trailerRecord input) exportTrailerKeys = true := by
    rfl
  have hcontrol : isText exportTrailerControl ((trailerRecord input).lookup "control") = true := by
    rfl
  have hproblem : (trailerRecord input).lookup "problem" = some (.text input.problemId) := rfl
  have hcount : (trailerRecord input).lookup "event_count"
      = some (.number input.events.length) := rfl
  have hcursor : (trailerRecord input).lookup "final_cursor"
      = some (.number (finalCursor input.events)) := rfl
  unfold parseTrailer
  rw [hkeys, hcontrol, hproblem, hcount, hcursor, nonNegativeInteger_number,
    nonNegativeInteger_number, textSuch]
  by_cases hid : isProblemId input.problemId = true
  · by_cases hlength : input.events.length ≤ maxSafeInteger
    · by_cases hend : finalCursor input.events ≤ maxSafeInteger
      · simp [hid, hlength, hend, eq_comm]
      · simp [hid, hlength, hend]
    · simp [hid, hlength]
  · simp [hid]

/-! ## Framing -/

structure Records where
  first : String
  events : List String
  last : String
deriving Repr, DecidableEq

def Records.lines (records : Records) : List String :=
  records.first :: (records.events ++ [records.last])

/-- `${lines.join("\n")}\n`. -/
def Records.text (records : Records) : String := "\n".intercalate records.lines ++ "\n"

def isRecordLine (line : String) : Bool :=
  !line.isEmpty && !line.toList.contains '\n' && !line.toList.contains '\r'

theorem mem_intercalate {separator c : Char} {parts : List (List Char)}
    (h : c ∈ [separator].intercalate parts) : c = separator ∨ ∃ part ∈ parts, c ∈ part := by
  induction parts with
  | nil => exact absurd h List.not_mem_nil
  | cons part rest ih =>
      cases rest with
      | nil =>
          rw [List.intercalate_singleton] at h
          exact .inr ⟨part, List.mem_cons_self, h⟩
      | cons next rest =>
          rw [List.intercalate_cons_cons] at h
          rcases List.mem_append.mp h with h | h
          · rcases List.mem_append.mp h with h | h
            · exact .inr ⟨part, List.mem_cons_self, h⟩
            · exact .inl (List.mem_singleton.mp h)
          · exact (ih h).imp id fun ⟨other, hother, hc⟩ =>
              ⟨other, List.mem_cons_of_mem _ hother, hc⟩

theorem splitExactLfRecords_text {lines : List String} (hne : lines ≠ [])
    (h : ∀ line ∈ lines, isRecordLine line = true) :
    splitExactLfRecords ("\n".intercalate lines ++ "\n") = .ok lines := by
  have hparts : ∀ line ∈ lines, line.isEmpty = false ∧ '\n' ∉ line.toList ∧ '\r' ∉ line.toList := by
    intro line hline
    simpa [isRecordLine, and_assoc] using h line hline
  have hlist : ("\n".intercalate lines ++ "\n").toList
      = ['\n'].intercalate (lines.map String.toList) ++ ['\n'] := by
    rw [String.toList_append, String.toList_intercalate]
    rfl
  have hsplit : (['\n'].intercalate (lines.map String.toList)).splitOn '\n'
      = lines.map String.toList := by
    refine List.splitOn_intercalate '\n' ?_ (by simpa using hne)
    rintro chars hchars
    obtain ⟨line, hline, rfl⟩ := List.mem_map.mp hchars
    exact (hparts line hline).2.1
  have hnotEmpty : ("\n".intercalate lines ++ "\n").isEmpty = false := by
    rw [String.isEmpty_eq_false_iff]
    intro hempty
    rw [hempty] at hlist
    simp at hlist
  have hreturn : '\r' ∉ ['\n'].intercalate (lines.map String.toList) ++ ['\n'] := by
    intro hmem
    rcases List.mem_append.mp hmem with hmem | hmem
    · rcases mem_intercalate hmem with heq | ⟨chars, hchars, hc⟩
      · exact absurd heq (by decide)
      · obtain ⟨line, hline, rfl⟩ := List.mem_map.mp hchars
        exact (hparts line hline).2.2 hc
    · exact absurd hmem (by decide)
  have hlines : splitLines (String.ofList ("\n".intercalate lines ++ "\n").toList.dropLast)
      = lines := by
    rw [splitLines, String.toList_ofList, hlist, List.dropLast_concat, hsplit, List.map_map]
    exact (List.map_congr_left fun line _ => String.ofList_toList).trans (List.map_id _)
  have hblank : lines.any String.isEmpty = false := by
    rw [List.any_eq_false]
    intro line hline
    rw [(hparts line hline).1]
    exact Bool.false_ne_true
  unfold splitExactLfRecords
  rw [hnotEmpty, if_neg Bool.false_ne_true, hlines, hlist, if_neg (by simpa using hreturn),
    if_neg (by simp)]
  dsimp only
  rw [hblank, if_neg Bool.false_ne_true]

/-! ## Texts that carry an export -/

/-- The text of the records parses to what the input is serialized to. -/
structure Carries (parseJson : String → Option JsonValue) (records : Records)
    (input : ProblemExportInput) : Prop where
  framed : ∀ line ∈ records.lines, isRecordLine line = true
  header : parseJson records.first = some (.object (headerRecord input))
  events : List.Forall₂ (fun line event => parseJson line = some (.object (eventRecord event)))
    records.events input.events
  trailer : parseJson records.last = some (.object (trailerRecord input))

def ProblemExportInput.parsed (input : ProblemExportInput) : ParsedExport :=
  { header := { problem := input.problemId, checkpoints := checkpointRows input.checkpoints }
    events := input.events
    trailer := { problem := input.problemId, eventCount := input.events.length
                 finalCursor := finalCursor input.events } }

structure Exportable (input : ProblemExportInput) : Prop where
  head : HeadExportable input
  checkpoints : ∀ c ∈ input.checkpoints, CheckpointExportable input.problemId c
  ordered : Ordered (checkpointRows input.checkpoints)
  events : ∀ event ∈ input.events, parseEvent (eventRecord event) = .ok event

section Carries

variable {parseJson : String → Option JsonValue} {sha256Hex : String → String}
  {records : Records} {input : ProblemExportInput}

theorem parseJsonRecord_line {line label : String} {record : JsonRecord}
    (hline : isRecordLine line = true) (h : parseJson line = some (.object record)) :
    parseJsonRecord parseJson line label = .ok record := by
  have hparts : '\n' ∉ line.toList ∧ '\r' ∉ line.toList := by
    have hall : line.isEmpty = false ∧ '\n' ∉ line.toList ∧ '\r' ∉ line.toList := by
      simpa [isRecordLine, and_assoc] using hline
    exact hall.2
  unfold parseJsonRecord
  rw [if_neg (by simpa using hparts), h]

theorem parseEventRecords_ok {lines : List String} {events parsed : List ProblemExportEvent}
    {offset : Nat} (hlines : ∀ line ∈ lines, isRecordLine line = true)
    (h : List.Forall₂ (fun line event => parseJson line = some (.object (eventRecord event)))
      lines events) :
    parseEventRecords parseJson lines offset = .ok parsed
      ↔ parsed = events ∧ ∀ event ∈ events, parseEvent (eventRecord event) = .ok event := by
  induction h generalizing parsed offset with
  | nil => simp [parseEventRecords, eq_comm]
  | @cons line event lines events hline _ ih =>
      obtain ⟨hfirst, hrest⟩ := List.forall_mem_cons.mp hlines
      have hrecord : parseEventRecord parseJson line = parseEvent (eventRecord event) := by
        rw [parseEventRecord, parseJsonRecord_line hfirst hline, Except.bind]
      rw [parseEventRecords, hrecord, List.forall_mem_cons]
      constructor
      · intro h
        cases hevent : parseEvent (eventRecord event) with
        | error reason => rw [hevent] at h; cases h
        | ok found =>
            rw [hevent] at h
            obtain ⟨after, hafter, rfl⟩ := ExceptRun.map_ok.mp h
            obtain ⟨rfl, hall⟩ := (ih hrest).mp hafter
            cases (parseEvent_ok hevent).1
            exact ⟨rfl, rfl, hall⟩
      · rintro ⟨rfl, hevent, hall⟩
        rw [hevent]
        exact ExceptRun.map_ok.mpr ⟨events, (ih hrest).mpr ⟨rfl, hall⟩, rfl⟩

theorem parseExportRange_carries {segment : Bool} {parsed : ParsedExport}
    (h : Carries parseJson records input) :
    parseExportRange parseJson records.text segment = .ok parsed
      ↔ parsed = input.parsed ∧ Exportable input ∧ input.events.length ≤ maxSafeInteger
        ∧ finalCursor input.events ≤ maxSafeInteger
        ∧ input.checkpoints.length ≤ input.events.length
        ∧ ∀ c ∈ checkpointRows input.checkpoints, c.checkpointSeq ≤ rangeEnd segment input.events := by
  have hsplit : splitExactLfRecords records.text = .ok records.lines :=
    splitExactLfRecords_text (List.cons_ne_nil _ _) h.framed
  have hframed : parseExportRange parseJson records.text segment
      = parseFramed parseJson segment records.first records.events records.last := by
    rw [parseExportRange, hsplit, Records.lines]
    cases hevents : records.events with
    | nil => rfl
    | cons line rest =>
        dsimp only [unplaced, Except.bind, List.cons_append]
        rw [← List.cons_append, List.dropLast_concat, List.getLast?_concat]
        rfl
  have hfirst := h.framed records.first (by simp [Records.lines])
  have hlast := h.framed records.last (by simp [Records.lines])
  have hlines : ∀ line ∈ records.events, isRecordLine line = true := fun line hline =>
    h.framed line (by simp [Records.lines, hline])
  have hheader : parseHeaderRecord parseJson records.first = parseHeader (headerRecord input) := by
    rw [parseHeaderRecord, parseJsonRecord_line hfirst h.header, Except.bind]
  have htrailer : parseTrailerRecord parseJson records.last
      = parseTrailer (trailerRecord input) := by
    rw [parseTrailerRecord, parseJsonRecord_line hlast h.trailer, Except.bind]
  have hvalues : (headerRecord input).lookup "checkpoints"
      = some (.array (input.checkpoints.map checkpointRecord)) := rfl
  rw [hframed, parseFramed_ok, hheader, htrailer, parseHeader_ok, hvalues, parseTrailer_ok,
    parseEventRecords_ok hlines h.events]
  constructor
  · rintro ⟨⟨hhead, values, hsome, hrows⟩, ⟨htrailer, -, hlength, hcursor⟩, -, ⟨hevents, hall⟩,
      hcount, hbound⟩
    cases hsome
    obtain ⟨hrows, hexportable, hordered, -⟩ := parseCheckpoints_ok.mp hrows
    have hproblem := (parseHeaderFields_ok hhead).1
    obtain ⟨⟨problem, checkpoints⟩, events, trailer⟩ := parsed
    cases hproblem
    cases hrows
    cases htrailer
    cases hevents
    have hcount' : (checkpointRows input.checkpoints).length ≤ input.events.length := hcount
    rw [checkpointRows, List.length_map] at hcount'
    exact ⟨rfl, ⟨hhead, hexportable, hordered, hall⟩, hlength, hcursor, hcount', hbound⟩
  · rintro ⟨rfl, hexportable, hlength, hcursor, hcount, hbound⟩
    have hpositive : ∀ c ∈ checkpointRows input.checkpoints, 0 < c.checkpointSeq := by
      intro row hrow
      obtain ⟨c, hc, rfl⟩ := List.mem_map.mp hrow
      exact checkpointExportable_pos (hexportable.checkpoints c hc)
    refine ⟨⟨hexportable.head, _, rfl, parseCheckpoints_ok.mpr ⟨rfl, hexportable.checkpoints,
      hexportable.ordered, hpositive⟩⟩, ⟨rfl, (parseHeaderFields_ok hexportable.head).2, hlength,
      hcursor⟩, rfl, ⟨rfl, hexportable.events⟩, ?_, hbound⟩
    change (checkpointRows input.checkpoints).length ≤ input.events.length
    rw [checkpointRows, List.length_map]
    exact hcount

end Carries

end Asimposium.Krater
