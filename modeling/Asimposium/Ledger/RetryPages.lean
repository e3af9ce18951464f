import Asimposium.Ledger.RetryScience
import Asimposium.Lib.Paging

/-!
# Pages of retries

`readDeadEndRetries` reads the stored firings of a problem in the order of their
event and their dead end, eight to a page. What it withholds it has scanned: the
next cursor is the last firing of the page, whether or not the page lists it.
So a walk meets every firing of the cut whose dead end stays current, although
bodies and dead ends may go between two pages.
-/

namespace Asimposium.DeadEndRetries

/-! ## Firings -/

def RETRY_PAGE_SIZE : Nat := 8

def RETRY_MAX_BODY_BYTES : Nat := 32768

structure RetryCursor where
  seq : Int
  id : String
deriving DecidableEq

/-- The order of the pages; the identifiers are ASCII, so code units and code
points compare alike. -/
def RetryCursor.key (cursor : RetryCursor) : Int ×ₗ String := toLex (cursor.seq, cursor.id)

structure RetryAdmission where
  problemId : String
  deadEndId : String
  triggerKind : String
  sourceEventId : String
  sourceSeq : Int
  sourceDigest : String
  sourceJson : Option String
  authorFellowId : String
  eventId : String
  seq : Int
  eventType : String
  objectKind : String
  objectId : String
  objectVersion : Int
  sponsorId : Option String
  payloadSha256 : String
  payloadJson : Option String

def RetryAdmission.cursor (row : RetryAdmission) : RetryCursor := ⟨row.seq, row.deadEndId⟩

inductive DeadEndRetryWhen where
  | statementRevised
  | gapClosed (gapId : String)
  | claimReaches (claimId : String) (reaches : ClaimDisposition)

def DeadEndRetryWhen.kind : DeadEndRetryWhen → String
  | statementRevised => "statement-revised"
  | gapClosed _ => "gap-closed"
  | claimReaches .. => "claim-reaches"

structure RetryBody where
  /-- Absent, or what it is when it is text. -/
  deadEndId : Option (Option String) := none
  gapId : Option String := none
  outcome : Option String := none
  claimId : Option String := none
  targetClaimId : Option String := none
  bearsOnKind : Option String := none
  bearsOnId : Option String := none
  targetObject : Option String := none

/-- What a source decodes to: the trigger, if it has one. -/
structure RetrySource where
  retryWhen : Option DeadEndRetryWhen

/-- `RetryReadDependencies`, with the digest, the parser and the recheck of a page. -/
structure RetryReader where
  sha256 : String → String
  parse : String → Option RetryBody
  decodeSource : RetryBody → Option RetrySource
  condition : RetryAdmission → DeadEndRetryWhen → RetryBody → Int → Except TypeError RetryAnswer
  /-- `RETRY_AVAILABLE_SQL`. -/
  available : RetryAdmission → Int → Nat

structure RetryEventPin where
  eventId : String
  seq : Int
  payloadSha256 : String

structure VerifiedDeadEndRetry where
  problemId : String
  cursor : Int
  deadEndId : String
  authorFellowId : String
  source : RetrySource
  publication : RetryEventPin
  firing : RetryEventPin

inductive RetryOmission where
  | pageLimit
  | contentUnavailable
  | conditionUnavailable
deriving DecidableEq

structure RetryPage where
  items : List VerifiedDeadEndRetry
  next : Option RetryCursor
  omitted : List RetryOmission

inductive RetryError where
  | snapshotInvalid
  | snapshotUnavailable
  | admissionsInvalid
  | condition (error : TypeError)

/-! ## Identifiers -/

def isDeadEndChar (c : Char) : Bool := c.isUpper || c.isDigit || c == '-'

/-- `--` nowhere. -/
def noDoubleDash : List Char → Bool
  | '-' :: '-' :: _ => false
  | _ :: rest => noDoubleDash rest
  | [] => true

/-- A prefix, then a capital or a digit, then capitals, digits and dashes. -/
def isPublicId (head : List Char) (least most : Nat) (id : String) : Bool :=
  noDoubleDash id.toList && head.isPrefixOf id.toList
    && match id.toList.drop head.length with
      | c :: rest => (c.isUpper || c.isDigit) && rest.all isDeadEndChar
          && least ≤ rest.length && rest.length ≤ most
      | [] => false

def isProblemId : String → Bool := isPublicId ['P', '-'] 1 30

def isDeadEndId : String → Bool := isPublicId ['D', 'E', '-'] 0 40

/-- `ID`. -/
def isRecordId (id : String) : Bool :=
  match id.toList with
  | c :: rest => c.isAlphanum && rest.length ≤ 127
      && rest.all fun c => c.isAlphanum || c == '.' || c == '_' || c == ':' || c == '-'
  | [] => false

/-! ## A page -/

def verifiedRetryPayload (reader : RetryReader) (text : Option String) (expected : String) :
    Option RetryBody :=
  match text with
  | none => none
  | some text =>
      if RETRY_MAX_BODY_BYTES < text.utf8ByteSize || expected.length ≠ 64
          || !expected.all fun c => c.isDigit || ('a' ≤ c && c ≤ 'f') then none
      else if reader.sha256 text ≠ expected then none
      else reader.parse text

/-- `^claim@[1-9][0-9]*$`. -/
def isVersionOf (claimId target : String) : Bool :=
  match target.toList.drop (claimId.length + 1) with
  | c :: rest => (claimId.toList ++ ['@']).isPrefixOf target.toList
      && c.isDigit && c != '0' && rest.all (·.isDigit)
  | [] => false

def retryEventMatches (row : RetryAdmission) (trigger : DeadEndRetryWhen) (payload : RetryBody) :
    Bool :=
  match trigger with
  | .statementRevised => row.eventType == "problem.statement-revised"
      && row.objectKind == "problem" && row.objectId == row.problemId && 1 < row.objectVersion
  | .gapClosed gapId => row.eventType == "gap.closed-by" && row.objectKind == "gap"
      && row.objectId == gapId && payload.gapId == some gapId && payload.outcome == some "closed-by"
  | .claimReaches claimId _ =>
      if row.eventType = "claim.revised" then
        row.objectKind == "claim" && row.objectId == claimId && payload.claimId == some claimId
      else if row.eventType = "review.created" then
        row.objectKind == "review" && payload.targetClaimId == some claimId
      else if row.eventType = "evidence.created" then
        row.objectKind == "evidence" && payload.bearsOnKind == some "claim"
          && payload.bearsOnId == some claimId
      else
        row.eventType == "object.retracted" && row.objectKind == "retraction"
          && payload.targetObject.any fun target => target == claimId || isVersionOf claimId target

inductive RetryOutcome where
  | listed (item : VerifiedDeadEndRetry)
  | omitted (reason : RetryOmission)
  | notHeld

def examine (reader : RetryReader) (through : Int) (row : RetryAdmission) :
    Except RetryError RetryOutcome :=
  let sourcePayload := verifiedRetryPayload reader row.sourceJson row.sourceDigest
  let eventPayload := verifiedRetryPayload reader row.payloadJson row.payloadSha256
  match sourcePayload, sourcePayload.bind reader.decodeSource, eventPayload with
  | some sourcePayload, some source, some eventPayload =>
      match source.retryWhen with
      | none => .ok (.omitted .contentUnavailable)
      | some trigger =>
          if sourcePayload.deadEndId.any (· ≠ some row.deadEndId)
              || trigger.kind ≠ row.triggerKind then .ok (.omitted .contentUnavailable)
          else if !retryEventMatches row trigger eventPayload then
            .ok (.omitted .conditionUnavailable)
          else
            match reader.condition row trigger eventPayload through with
            | .error error => .error (.condition error)
            | .ok .unavailable => .ok (.omitted .conditionUnavailable)
            | .ok .notHeld => .ok .notHeld
            | .ok .holds =>
                if reader.available row through ≠ 2 then .ok (.omitted .contentUnavailable)
                else .ok (.listed
                  { problemId := row.problemId, cursor := through, deadEndId := row.deadEndId
                    authorFellowId := row.authorFellowId, source
                    publication := ⟨row.sourceEventId, row.sourceSeq, row.sourceDigest⟩
                    firing := ⟨row.eventId, row.seq, row.payloadSha256⟩ })
  | _, _, _ => .ok (.omitted .contentUnavailable)

structure RetryScan where
  items : List VerifiedDeadEndRetry := []
  omitted : List RetryOmission := []
  seen : List String := []
  previous : Option RetryCursor

/-- The columns of a row are what the reader expects of a firing. -/
def RetryAdmission.isValid (row : RetryAdmission) (problem : String) (through : Int) : Bool :=
  row.problemId == problem && isDeadEndId row.deadEndId && isRecordId row.sourceEventId
    && isRecordId row.eventId && isRecordId row.authorFellowId
    && isSafeInteger row.sourceSeq && 1 ≤ row.sourceSeq && isSafeInteger row.seq
    && row.sourceSeq < row.seq && row.seq ≤ through
    && isSafeInteger row.objectVersion && 1 ≤ row.objectVersion

def scanRow (reader : RetryReader) (problem : String) (through : Int) (scan : RetryScan)
    (row : RetryAdmission) : Except RetryError RetryScan :=
  if !row.isValid problem through || scan.seen.contains row.deadEndId
      || scan.previous.any fun previous => row.cursor.key ≤ previous.key then
    .error .admissionsInvalid
  else
    let next := { scan with seen := row.deadEndId :: scan.seen, previous := some row.cursor }
    (examine reader through row).map fun
      | .listed item => { next with items := scan.items ++ [item] }
      | .omitted reason =>
          if scan.omitted.contains reason then next
          else { next with omitted := scan.omitted ++ [reason] }
      | .notHeld => next

structure Board where
  /-- The head, while the problem is public. -/
  publicSeq : Option Int
  fired : List RetryAdmission
  superseded : String → Bool

/-- `RETRY_PAGE_SQL`, without its limit. -/
def Board.openRows (board : Board) (through : Int) (after : RetryCursor) : List RetryAdmission :=
  (board.fired.filter fun row =>
      row.seq ≤ through && !board.superseded row.deadEndId && after.key < row.cursor.key).mergeSort
    fun row other => row.cursor.key ≤ other.cursor.key

def startOf (after : Option RetryCursor) : RetryCursor := after.getD ⟨0, ""⟩

def readDeadEndRetries (reader : RetryReader) (board : Board) (problem : String) (through : Int)
    (after : Option RetryCursor) : Except RetryError RetryPage :=
  if !isProblemId problem || !isSafeInteger through || through < 0
      || after.any fun after => !isSafeInteger after.seq || after.seq < 1 || through < after.seq
        || !isDeadEndId after.id then .error .snapshotInvalid
  else if board.publicSeq.all (· < through) then .error .snapshotUnavailable
  else
    let rows := (board.openRows through (startOf after)).take (RETRY_PAGE_SIZE + 1)
    ((rows.take RETRY_PAGE_SIZE).foldlM (scanRow reader problem through) { previous := after }).map
      fun scan =>
        let next := if RETRY_PAGE_SIZE < rows.length then scan.previous else none
        { items := scan.items
          next := next
          omitted := if next.isSome then scan.omitted ++ [.pageLimit] else scan.omitted }

/-! ## A walk -/

/-- What the keys and the joins make of the stored firings. -/
structure Board.WellFormed (board : Board) (problem : String) (through : Int)
    (firings : List RetryCursor) : Prop where
  head : ∃ head, board.publicSeq = some head ∧ through ≤ head
  deadEnds : (board.fired.map (·.deadEndId)).Nodup
  valid : ∀ row ∈ board.fired, row.seq ≤ through → row.isValid problem through = true
  /-- A firing at or before the cut was stored before the cut was captured. -/
  captured : ∀ c, c ∈ firings ↔ ∃ row ∈ board.fired, row.seq ≤ through ∧ row.cursor = c

section Rows

variable {board : Board} {problem : String} {through : Int} {firings : List RetryCursor}
  {after : RetryCursor} {row : RetryAdmission}

theorem mem_openRows : row ∈ board.openRows through after
    ↔ row ∈ board.fired ∧ row.seq ≤ through ∧ board.superseded row.deadEndId = false
      ∧ after.key < row.cursor.key := by
  simp only [Board.openRows, List.mem_mergeSort, List.mem_filter, Bool.and_eq_true,
    decide_eq_true_eq, Bool.not_eq_true', and_assoc]

theorem openRows_nodup (h : board.WellFormed problem through firings) :
    ((board.openRows through after).map (·.deadEndId)).Nodup := by
  have hperm := List.mergeSort_perm (board.fired.filter fun row => row.seq ≤ through
    && !board.superseded row.deadEndId && after.key < row.cursor.key)
    fun row other => row.cursor.key ≤ other.cursor.key
  exact ((hperm.map _).nodup_iff).mpr (h.deadEnds.sublist (List.filter_sublist.map _))

theorem openRows_ascend (h : board.WellFormed problem through firings) :
    (board.openRows through after).Pairwise fun row other => row.cursor.key < other.cursor.key := by
  have hsorted : (board.openRows through after).Pairwise
      fun row other => row.cursor.key ≤ other.cursor.key := by
    have hpairwise := @List.pairwise_mergeSort _
      (fun row other : RetryAdmission => decide (row.cursor.key ≤ other.cursor.key))
      (fun a b c hab hbc => by simp only [decide_eq_true_eq] at *; exact hab.trans hbc)
      (fun a b => by simpa using le_total a.cursor.key b.cursor.key)
      (board.fired.filter fun row => row.seq ≤ through
        && !board.superseded row.deadEndId && after.key < row.cursor.key)
    exact hpairwise.imp of_decide_eq_true
  refine (hsorted.and (List.pairwise_map.mp (openRows_nodup h))).imp fun ⟨hle, hne⟩ => ?_
  refine lt_of_le_of_ne hle fun hkey => hne ?_
  exact (Prod.ext_iff.mp (congrArg ofLex hkey)).2

end Rows

/-! ## One page -/

def RetryReader.Answers (reader : RetryReader) (through : Int) : Prop :=
  ∀ row trigger payload, ∃ answer, reader.condition row trigger payload through = .ok answer

section Page

variable {reader : RetryReader} {board : Board} {problem : String} {through : Int}
  {firings : List RetryCursor} {after : Option RetryCursor} {row : RetryAdmission}

theorem examine_ok (h : reader.Answers through) (row : RetryAdmission) : ∃ outcome,
    examine reader through row = .ok outcome := by
  unfold examine
  dsimp only
  split
  · split
    · exact ⟨_, rfl⟩
    · next source _ trigger _ =>
      split
      · exact ⟨_, rfl⟩
      · split
        · exact ⟨_, rfl⟩
        · split
          · next hcondition =>
            obtain ⟨answer, hanswer⟩ := h row trigger _
            rw [hcondition] at hanswer
            cases hanswer
          · exact ⟨_, rfl⟩
          · exact ⟨_, rfl⟩
          · split
            · exact ⟨_, rfl⟩
            · exact ⟨_, rfl⟩
  · exact ⟨_, rfl⟩

theorem scanRow_ok (h : reader.Answers through) (scan : RetryScan)
    (hvalid : row.isValid problem through = true) (hseen : row.deadEndId ∉ scan.seen)
    (hafter : ∀ previous ∈ scan.previous, previous.key < row.cursor.key) :
    ∃ next, scanRow reader problem through scan row = .ok next
      ∧ next.seen = row.deadEndId :: scan.seen ∧ next.previous = some row.cursor := by
  obtain ⟨outcome, houtcome⟩ := examine_ok h row
  unfold scanRow
  rw [if_neg, houtcome]
  · cases outcome with
    | listed => exact ⟨_, rfl, rfl, rfl⟩
    | omitted =>
        refine ⟨_, rfl, ?_⟩
        dsimp only
        split <;> exact ⟨rfl, rfl⟩
    | notHeld => exact ⟨_, rfl, rfl, rfl⟩
  · simp only [hvalid, Bool.not_true, Bool.false_or, Bool.or_eq_true, List.contains_iff_mem, hseen,
      false_or, Option.any_eq_true, decide_eq_true_eq, not_exists, not_and, not_le]
    exact hafter

theorem scanRows_ok (h : reader.Answers through) (rows : List RetryAdmission) (scan : RetryScan)
    (hvalid : ∀ row ∈ rows, row.isValid problem through = true)
    (hdeadEnds : (rows.map (·.deadEndId)).Nodup)
    (hseen : ∀ row ∈ rows, row.deadEndId ∉ scan.seen)
    (hascend : rows.Pairwise fun row other => row.cursor.key < other.cursor.key)
    (hafter : ∀ previous ∈ scan.previous, ∀ row ∈ rows, previous.key < row.cursor.key) :
    ∃ last, rows.foldlM (scanRow reader problem through) scan = .ok last
      ∧ last.previous = (rows.getLast?.map (·.cursor)).or scan.previous := by
  induction rows generalizing scan with
  | nil => exact ⟨scan, rfl, rfl⟩
  | cons row rows ih =>
      rw [List.forall_mem_cons] at hvalid hseen
      rw [List.map_cons, List.nodup_cons] at hdeadEnds
      rw [List.pairwise_cons] at hascend
      obtain ⟨next, hnext, hnextSeen, hprevious⟩ := scanRow_ok h scan hvalid.1 hseen.1
        fun previous hprevious => hafter previous hprevious row (List.mem_cons_self ..)
      obtain ⟨last, hlast, hend⟩ := ih next hvalid.2 hdeadEnds.2
        (fun other hother => by
          rw [hnextSeen, List.mem_cons, not_or]
          exact ⟨fun heq => hdeadEnds.1 (heq ▸ List.mem_map_of_mem hother), hseen.2 other hother⟩)
        hascend.2
        (fun previous hmem other hother => by
          rw [hprevious, Option.mem_some_iff] at hmem
          exact hmem ▸ hascend.1 other hother)
      refine ⟨last, ?_, ?_⟩
      · rw [List.foldlM_cons, hnext]
        exact hlast
      · rw [hend, hprevious, List.getLast?_cons]
        cases hlist : rows.getLast? with
        | none => rfl
        | some other => rfl

def Board.scanned (board : Board) (through : Int) (after : Option RetryCursor) :
    List RetryCursor :=
  ((board.openRows through (startOf after)).take RETRY_PAGE_SIZE).map (·.cursor)

structure IsCut (problem : String) (through : Int) : Prop where
  problem : isProblemId problem = true
  safe : isSafeInteger through = true
  nonneg : 0 ≤ through

theorem cursor_valid (h : board.WellFormed problem through firings) {c : RetryCursor}
    (hc : c ∈ firings) : isSafeInteger c.seq = true ∧ 1 ≤ c.seq ∧ c.seq ≤ through
      ∧ isDeadEndId c.id = true ∧ (⟨0, ""⟩ : RetryCursor).key < c.key := by
  obtain ⟨row, hrow, hseq, rfl⟩ := (h.captured c).mp hc
  have hvalid := h.valid row hrow hseq
  simp only [RetryAdmission.isValid, Bool.and_eq_true, decide_eq_true_eq] at hvalid
  have hpos : 1 ≤ row.seq := by omega
  exact ⟨by tauto, hpos, hseq, by tauto, Prod.Lex.toLex_lt_toLex.mpr (.inl (by
    change 0 < row.seq
    omega))⟩

theorem readDeadEndRetries_ok (hcut : IsCut problem through)
    (h : board.WellFormed problem through firings) (hanswers : reader.Answers through)
    (hafter : ∀ c ∈ after, c ∈ firings) :
    ∃ page, readDeadEndRetries reader board problem through after = .ok page
      ∧ page.next = if RETRY_PAGE_SIZE < (board.openRows through (startOf after)).length then
          (board.scanned through after).getLast? else none := by
  obtain ⟨head, hhead, hle⟩ := h.head
  have hrows : ∀ row ∈ (board.openRows through (startOf after)).take RETRY_PAGE_SIZE,
      row ∈ board.fired ∧ row.seq ≤ through ∧ (startOf after).key < row.cursor.key := fun row hrow =>
    have hopen := mem_openRows.mp (List.mem_of_mem_take hrow)
    ⟨hopen.1, hopen.2.1, hopen.2.2.2⟩
  obtain ⟨last, hlast, hprevious⟩ := scanRows_ok hanswers
    ((board.openRows through (startOf after)).take RETRY_PAGE_SIZE) { previous := after }
    (fun row hrow => h.valid row (hrows row hrow).1 (hrows row hrow).2.1)
    ((openRows_nodup h).sublist ((List.take_sublist _ _).map _))
    (fun _ _ => List.not_mem_nil) ((openRows_ascend h).sublist (List.take_sublist _ _))
    (fun previous hmem row hrow => by
      have hlt := (hrows row hrow).2.2
      have hstart : after = some previous := hmem
      rw [hstart] at hlt
      exact hlt)
  unfold readDeadEndRetries
  rw [if_neg, if_neg]
  · simp only [List.take_take, Nat.min_eq_left (Nat.le_succ RETRY_PAGE_SIZE), hlast]
    refine ⟨_, rfl, ?_⟩
    have hlength : RETRY_PAGE_SIZE < ((board.openRows through (startOf after)).take
        (RETRY_PAGE_SIZE + 1)).length
        ↔ RETRY_PAGE_SIZE < (board.openRows through (startOf after)).length := by
      rw [List.length_take, lt_min_iff, and_iff_right (Nat.lt_succ_self _)]
    simp only [hlength]
    split
    · next hmore =>
      have hne : (board.openRows through (startOf after)).take RETRY_PAGE_SIZE ≠ [] := by
        rw [← List.length_pos_iff, List.length_take, lt_min_iff]
        exact ⟨Nat.zero_lt_succ 7, Nat.zero_lt_of_lt hmore⟩
      rw [hprevious, Board.scanned, List.getLast?_map, List.getLast?_eq_some_getLast hne]
      rfl
    · rfl
  · rw [hhead]
    simpa using hle
  · rw [hcut.problem, hcut.safe]
    cases hstart : after with
    | none => simpa using hcut.nonneg
    | some c =>
        obtain ⟨hsafe, hpos, hseq, hid, -⟩ := cursor_valid h (hafter c hstart)
        simp [hsafe, hid, hcut.nonneg, hpos, hseq]

end Page

/-! ## The pages of a cut -/

/-- A page of a moment, and of what it scans, the dead ends that stay current. -/
def pageAt (readers : Nat → RetryReader) (boards : Nat → Board) (problem : String) (through : Int)
    (live : String → Bool) (place : Nat × Option RetryCursor) (items : List RetryCursor)
    (next : Option (Nat × Option RetryCursor)) : Prop :=
  ∃ page, readDeadEndRetries (readers place.1) (boards place.1) problem through place.2 = .ok page
    ∧ items = ((boards place.1).scanned through place.2).filter (live ·.id)
    ∧ next = page.next.map fun cursor => (place.1 + 1, some cursor)

section Pages

variable {board : Board} {problem : String} {through : Int} {firings all : List RetryCursor}
  {after : Option RetryCursor} {live : String → Bool}

theorem open_ascend (h : board.WellFormed problem through firings) :
    ((board.openRows through (startOf after)).map (·.cursor)).Pairwise
      fun c c' => c.key < c'.key :=
  List.pairwise_map.mpr (openRows_ascend h)

theorem filter_later {c' last : RetryCursor} (h : c'.key < last.key) :
    (all.filter fun c => decide (last.key < c.key))
      = (all.filter fun c => decide (c'.key < c.key)).filter
        fun c => decide (last.key < c.key) := by
  rw [List.filter_filter]
  refine List.filter_congr fun c _ => ?_
  rw [Bool.eq_iff_iff, Bool.and_eq_true, decide_eq_true_eq, decide_eq_true_eq]
  exact ⟨fun hlt => ⟨hlt, h.trans hlt⟩, And.left⟩

theorem scanned_open (h : board.WellFormed problem through firings) {c : RetryCursor}
    (hc : c ∈ board.scanned through after) : c ∈ firings ∧ (startOf after).key < c.key := by
  obtain ⟨row, hrow, rfl⟩ := List.mem_map.mp hc
  obtain ⟨hfired, hseq, -, hlt⟩ := mem_openRows.mp (List.mem_of_mem_take hrow)
  exact ⟨(h.captured _).mpr ⟨row, hfired, hseq, rfl⟩, hlt⟩

theorem open_live (h : board.WellFormed problem through firings)
    (hlive : ∀ id, live id = true → board.superseded id = false)
    (hall : all.Pairwise fun c c' => c.key < c'.key)
    (hmem : ∀ c, c ∈ all ↔ c ∈ firings ∧ live c.id = true) :
    all.filter (fun c => decide ((startOf after).key < c.key))
      = ((board.openRows through (startOf after)).map (·.cursor)).filter (live ·.id) := by
  have hirrefl : Std.Irrefl fun c c' : RetryCursor => c.key < c'.key := ⟨fun _ => lt_irrefl _⟩
  have hantisymm : Std.Antisymm fun c c' : RetryCursor => c.key < c'.key :=
    ⟨fun _ _ hlt hgt => absurd hgt (lt_asymm hlt)⟩
  refine List.Pairwise.eq_of_mem_iff (hall.filter _) ((open_ascend h).filter _) fun c => ?_
  rw [List.mem_filter, List.mem_filter, hmem, decide_eq_true_eq, List.mem_map, h.captured]
  constructor
  · rintro ⟨⟨⟨row, hrow, hseq, rfl⟩, hid⟩, hlt⟩
    exact ⟨⟨row, mem_openRows.mpr ⟨hrow, hseq, hlive _ hid, hlt⟩, rfl⟩, hid⟩
  · rintro ⟨⟨row, hrow, rfl⟩, hid⟩
    obtain ⟨hfired, hseq, -, hlt⟩ := mem_openRows.mp hrow
    exact ⟨⟨⟨row, hfired, hseq, rfl⟩, hid⟩, hlt⟩

theorem open_after_last (h : board.WellFormed problem through firings)
    (hlive : ∀ id, live id = true → board.superseded id = false)
    (hall : all.Pairwise fun c c' => c.key < c'.key)
    (hmem : ∀ c, c ∈ all ↔ c ∈ firings ∧ live c.id = true) {last : RetryCursor}
    (hlast : (board.scanned through after).getLast? = some last) :
    all.filter (fun c => decide (last.key < c.key))
      = (((board.openRows through (startOf after)).map (·.cursor)).drop RETRY_PAGE_SIZE).filter
        (live ·.id) := by
  have hopen : ∀ c ∈ (board.openRows through (startOf after)).map (·.cursor),
      decide ((startOf after).key < c.key) = true := fun c hc => by
    obtain ⟨row, hrow, rfl⟩ := List.mem_map.mp hc
    exact decide_eq_true (mem_openRows.mp hrow).2.2.2
  have hsplit : (((board.openRows through (startOf after)).map (·.cursor)).filter fun c =>
        decide ((startOf after).key < c.key)) = board.scanned through after
      ++ ((board.openRows through (startOf after)).map (·.cursor)).drop RETRY_PAGE_SIZE := by
    rw [List.filter_eq_self.mpr hopen, Board.scanned, List.map_take, List.take_append_drop]
  have hdrop := Paging.filter_after_last (open_ascend h) hsplit hlast
  have hstart := (scanned_open h (List.mem_of_getLast? hlast)).2
  calc all.filter (fun c => decide (last.key < c.key))
      = (all.filter fun c => decide ((startOf after).key < c.key)).filter
          fun c => decide (last.key < c.key) := filter_later hstart
    _ = _ := by rw [open_live h hlive hall hmem, List.filter_filter, ← hdrop, List.filter_filter,
        List.filter_congr fun c _ => Bool.and_comm _ _]

theorem exists_ascending (h : board.WellFormed problem through firings)
    (hlive : ∀ id, live id = true → board.superseded id = false) :
    ∃ all : List RetryCursor, all.Pairwise (fun c c' => c.key < c'.key)
      ∧ ∀ c, c ∈ all ↔ c ∈ firings ∧ live c.id = true := by
  refine ⟨((board.openRows through (startOf none)).map (·.cursor)).filter (live ·.id),
    (open_ascend h).filter _, fun c => ?_⟩
  rw [List.mem_filter, List.mem_map]
  constructor
  · rintro ⟨⟨row, hrow, rfl⟩, hid⟩
    obtain ⟨hfired, hseq, -⟩ := mem_openRows.mp hrow
    exact ⟨(h.captured _).mpr ⟨row, hfired, hseq, rfl⟩, hid⟩
  · rintro ⟨hc, hid⟩
    obtain ⟨row, hfired, hseq, rfl⟩ := (h.captured c).mp hc
    exact ⟨⟨row, mem_openRows.mpr ⟨hfired, hseq, hlive _ hid, (cursor_valid h hc).2.2.2.2⟩, rfl⟩,
      hid⟩

section Walk

variable {readers : Nat → RetryReader} {boards : Nat → Board} (hcut : IsCut problem through)
  (h : ∀ moment, (boards moment).WellFormed problem through firings)
  (hanswers : ∀ moment, (readers moment).Answers through)

include hcut h hanswers

theorem pageAt_ends (live : String → Bool) :
    ∃ pages, Paging.Walk (pageAt readers boards problem through live) (0, none) pages none := by
  let size (place : Nat × Option RetryCursor) : Nat :=
    (firings.filter fun c => decide ((startOf place.2).key < c.key)).length
  suffices hstep : ∀ place : Nat × Option RetryCursor, (∀ c ∈ place.2, c ∈ firings) →
      ∃ items next, pageAt readers boards problem through live place items next
        ∧ ∀ place' ∈ next, (∀ c ∈ place'.2, c ∈ firings) ∧ size place' < size place from
    Paging.Walk.ends hstep nofun
  intro place hat
  obtain ⟨page, hpage, hnext⟩ := readDeadEndRetries_ok hcut (h place.1) (hanswers place.1) hat
  refine ⟨_, _, ⟨page, hpage, rfl, rfl⟩, ?_⟩
  rintro _ hmem
  obtain ⟨last, hlast, rfl⟩ := Option.map_eq_some_iff.mp (Option.mem_def.mp hmem)
  have hscanned : last ∈ (boards place.1).scanned through place.2 := by
    rw [hlast] at hnext
    split at hnext
    · exact List.mem_of_getLast? hnext.symm
    · cases hnext
  obtain ⟨hfiring, hlt⟩ := scanned_open (h place.1) hscanned
  refine ⟨fun c hc => Option.mem_some_iff.mp hc ▸ hfiring, ?_⟩
  change (firings.filter fun c => decide (last.key < c.key)).length < _
  rw [filter_later hlt, List.length_filter_lt_length_iff_exists]
  exact ⟨last, List.mem_filter.mpr ⟨hfiring, decide_eq_true hlt⟩, by simp⟩

def Ahead (firings all : List RetryCursor) (place : Nat × Option RetryCursor)
    (left : List RetryCursor) : Prop :=
  (∀ c ∈ place.2, c ∈ firings)
    ∧ left = all.filter fun c => decide ((startOf place.2).key < c.key)

theorem pageAt_step {place : Nat × Option RetryCursor} {next : Option (Nat × Option RetryCursor)}
    {items left : List RetryCursor}
    (hlive : ∀ moment id, live id = true → (boards moment).superseded id = false)
    (hall : all.Pairwise fun c c' => c.key < c'.key)
    (hmem : ∀ c, c ∈ all ↔ c ∈ firings ∧ live c.id = true)
    (hpage : pageAt readers boards problem through live place items next)
    (hleft : Ahead firings all place left) :
    ∃ rest, left = items.map id ++ rest ∧ Paging.Remains (Ahead firings all) rest next := by
  obtain ⟨page, hread, rfl, rfl⟩ := hpage
  obtain ⟨hplace, rfl⟩ := hleft
  obtain ⟨page', hread', hnext⟩ := readDeadEndRetries_ok hcut (h place.1) (hanswers place.1) hplace
  obtain rfl : page' = page := Except.ok.inj (hread'.symm.trans hread)
  refine ⟨(((boards place.1).openRows through (startOf place.2)).map (·.cursor)
    |>.drop RETRY_PAGE_SIZE).filter (live ·.id), ?_, ?_⟩
  · rw [open_live (h place.1) (hlive place.1) hall hmem, List.map_id, Board.scanned,
      List.map_take, ← List.filter_append, List.take_append_drop]
  · rw [hnext]
    split
    · next hmore =>
      cases hlast : ((boards place.1).scanned through place.2).getLast? with
      | none =>
          have hempty := congrArg List.length (List.getLast?_eq_none_iff.mp hlast)
          rw [Board.scanned, List.length_map, List.length_take, List.length_nil] at hempty
          unfold RETRY_PAGE_SIZE at hempty hmore
          omega
      | some last =>
          refine ⟨fun c hc => ?_, (open_after_last (h place.1) (hlive place.1) hall hmem hlast).symm⟩
          exact Option.mem_some_iff.mp hc ▸ (scanned_open (h place.1) (List.mem_of_getLast? hlast)).1
    · next hfew =>
      change _ = []
      rw [List.drop_of_length_le (by rw [List.length_map]; exact not_lt.mp hfew), List.filter_nil]

end Walk

/-- Over whatever moments, the pages of a cut end, and they visit the firings of
the dead ends that stay current, each once and in order. -/
def Complete (problem : String) (through : Int) : Prop :=
  ∀ (readers : Nat → RetryReader) (boards : Nat → Board) (firings : List RetryCursor)
    (live : String → Bool),
    (∀ moment, (boards moment).WellFormed problem through firings) →
    (∀ moment, (readers moment).Answers through) →
    (∀ moment id, live id = true → (boards moment).superseded id = false) →
    ∃ pages, Paging.Walk (pageAt readers boards problem through live) (0, none) pages none
      ∧ pages.flatten.Pairwise (fun c c' => c.key < c'.key)
      ∧ ∀ c, c ∈ pages.flatten ↔ c ∈ firings ∧ live c.id = true

theorem pages_complete (hcut : IsCut problem through) : Complete problem through := by
  intro readers boards firings live h hanswers hlive
  obtain ⟨pages, hwalk⟩ := pageAt_ends hcut h hanswers live
  obtain ⟨all, hall, hmem⟩ := exists_ascending (h 0) (hlive 0)
  obtain ⟨rest, hflatten, hrest⟩ := hwalk.covers (f := id)
    (fun _ _ _ _ => pageAt_step hcut h hanswers hlive hall hmem)
    (show Ahead firings all (0, none) _ from ⟨nofun, rfl⟩)
  obtain rfl : rest = [] := hrest
  have hpages : pages.flatten = all := by
    rw [List.append_nil, List.map_id] at hflatten
    rw [← hflatten, List.filter_eq_self]
    exact fun c hc => decide_eq_true (cursor_valid (h 0) ((hmem c).mp hc).1).2.2.2.2
  exact ⟨pages, hwalk, hpages ▸ hall, fun c => hpages ▸ hmem c⟩

end Pages

end Asimposium.DeadEndRetries
