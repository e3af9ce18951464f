import Mathlib
import Asimposium.Js

/-!
# Herald rooms

A room announces the committed head of one problem to its sockets. The
attachment of a socket is all the state there is of it: the cursor the
client has acknowledged, the cursor announced to it, and whether the
announcement is outstanding. While one frame is outstanding further
commits only set a dirty bit.

The methods of `HeraldRoomFanout` are synchronous. What the runtime has
awaited before them (an identity, a head) is their input, and so is
whether the socket takes a frame. A method that closes the socket
returns early; `live` and `authorized` return the socket as it is then
left.
-/

namespace Asimposium.Herald

/-! ## Limits and cursors -/

namespace Limits

def connections : Nat := 32
def perFellow : Nat := 2
def perSponsor : Nat := 8
def frameBytes : Nat := 2048
def inputBytes : Nat := 128
def acknowledgementMs : Int := 60000
def acknowledgementIntervalMs : Int := 250
def heartbeatSeconds : Nat := 20
def silenceMs : Int := 90000
def lifetimeMs : Int := 15 * 60000

end Limits

def roomCursor (n : Int) : Bool := isSafeInteger n && 0 ≤ n

/-- `[A-Za-z0-9._:-]`. -/
def isIdChar (c : Char) : Bool := c.isAlphanum || ['.', '_', ':', '-'].contains c

/-- `^[A-Za-z0-9][A-Za-z0-9._:-]{0,127}$`. -/
def roomId (id : String) : Bool :=
  match id.toList with
  | [] => false
  | first :: rest => first.isAlphanum && rest.length ≤ 127 && rest.all isIdChar

/-- An id without `--`. -/
def roomProblem (id : String) : Bool := roomId id && !includes id "--"

/-- `^[a-f0-9]{64}$`. -/
def isTokenHash (hash : String) : Bool :=
  hash.toList.length == 64 && hash.toList.all fun c => c.isDigit || ('a' ≤ c && c ≤ 'f')

/-! ## Acknowledgements -/

inductive Message where
  | text (message : String)
  | binary

/-- `0|[1-9][0-9]{0,15}`. -/
def isCursorText (digits : List Char) : Bool :=
  match digits with
  | [] => false
  | first :: rest => digits == ['0'] || first != '0' && rest.length ≤ 15

def afterToken (token : String) (chars : List Char) : Option (List Char) :=
  let rest := chars.dropWhile isJsSpace
  if token.toList.isPrefixOf rest then some (rest.drop token.toList.length) else none

def parseRoomAck : Message → Option Int
  | .binary => none
  | .text message =>
      if Limits.inputBytes < message.utf8ByteSize then none
      else ((afterToken "\x7b" message.toList).bind fun rest =>
          (afterToken (quoteJson "ack") rest).bind (afterToken ":")).bind fun rest =>
        let value := rest.dropWhile isJsSpace
        let digits := value.takeWhile Char.isDigit
        match afterToken "\x7d" (value.dropWhile Char.isDigit) with
        | none => none
        | some tail =>
            if isCursorText digits && tail.all isJsSpace && roomCursor (digitsValue digits) then
              some (digitsValue digits)
            else none

/-! ## Notices -/

/-- `encodeURIComponent` of a problem id. -/
def encodeProblem (problemId : String) : String :=
  String.join (problemId.toList.map fun c => if c = ':' then "%3A" else c.toString)

def roomTailPath (problemId : String) (since : Int) (through : Option Int) :
    Except String String :=
  if !roomProblem problemId || !roomCursor since
      || through.any (fun last => !roomCursor last || last < since) then
    .error "HERALD_ROOM_CURSOR_INVALID"
  else
    let page := match through with
      | some last => "through=" ++ toString last
      | none => "wait=25"
    .ok ("/p/" ++ encodeProblem problemId ++ "/events.ndjson?since=" ++ toString since
      ++ "&limit=200&" ++ page)

structure RoomNotice where
  since : Int
  through : Int
  text : String
deriving Repr, DecidableEq

def instruction : String := "Read complete event-tail pages before acknowledging through. A room notice never advances a saved cursor. Invalidate cached object faces and revalidate them over HTTP. Deduplicate event IDs; fall back to polling on disconnect."

def noticeText (problemId : String) (since through : Int) (events poll : String) : String :=
  "\x7b" ++ ",".intercalate
    ["\"control\":\"resync\"",
     "\"schema\":\"https://a.asimposium.org/schemas/herald-room.v1.json\"",
     "\"problem_id\":" ++ quoteJson problemId,
     "\"since\":" ++ toString since,
     "\"through\":" ++ toString through,
     "\"events\":" ++ quoteJson events,
     "\"poll\":" ++ quoteJson poll,
     "\"heartbeat\":\x7b\"request\":\"ping\",\"response\":\"pong\",\"seconds\":"
       ++ toString Limits.heartbeatSeconds ++ "\x7d",
     "\"acknowledgement\":\x7b\"ack\":" ++ toString through ++ "\x7d",
     "\"invalidate_cached_objects\":true",
     "\"instruction\":" ++ quoteJson instruction]
    ++ "\x7d"

def roomNotice (problemId : String) (since through : Int) : Except String RoomNotice :=
  (roomTailPath problemId since (some through)).bind fun events =>
    (roomTailPath problemId since none).bind fun poll =>
      let text := noticeText problemId since through events poll
      if Limits.frameBytes < text.utf8ByteSize then .error "HERALD_ROOM_FRAME_TOO_LARGE"
      else .ok { since, through, text }

theorem roomNotice_ok {problemId : String} {since through : Int} {notice : RoomNotice}
    (h : roomNotice problemId since through = .ok notice) :
    notice.since = since ∧ notice.through = through ∧ since ≤ through := by
  unfold roomNotice at h
  cases hevents : roomTailPath problemId since (some through) with
  | error message => rw [hevents] at h; cases h
  | ok events =>
      have hle : since ≤ through := by
        unfold roomTailPath at hevents
        split_ifs at hevents with hbad
        by_contra hlt
        exact hbad (by simp [not_le.mp hlt])
      rw [hevents] at h
      cases hpoll : roomTailPath problemId since none with
      | error message => rw [hpoll] at h; cases h
      | ok poll =>
          rw [hpoll] at h
          dsimp only [Except.bind] at h
          split_ifs at h
          cases h
          exact ⟨rfl, rfl, hle⟩

/-! ## Attachments and sockets -/

structure RoomIdentity where
  fellowId : String
  sponsorId : String
  problemBinding : Option String
deriving Repr, DecidableEq

/-- `RoomAttachment`, without its constant version. -/
structure RoomAttachment where
  problemId : String
  fellowId : String
  sponsorId : String
  tokenHash : String
  acknowledged : Int
  announced : Int
  pending : Bool
  dirty : Bool
  connectedAt : Int
  expiresAt : Int
  sentAt : Int
  lastMessageAt : Int
deriving Repr, DecidableEq

/-- A socket the room has accepted: its attachment, the frames handed to
it, and what has come of them. The last two fields record what was done:
the number of completed acknowledgements and the heads the completed
refreshes have read. -/
structure RoomSocket where
  /-- `readyState === 1`. -/
  isOpen : Bool
  /-- The runtime still counts the socket. -/
  isHeld : Bool
  attachment : Option RoomAttachment
  frames : List RoomNotice
  acks : Nat
  refreshed : List Int
deriving Repr, DecidableEq

/-- `roomAttachment`: what was serialized, if it is in order. -/
def roomAttachment (socket : RoomSocket) : Option RoomAttachment :=
  socket.attachment.filter fun a =>
    roomProblem a.problemId && roomId a.fellowId && roomId a.sponsorId && isTokenHash a.tokenHash
      && roomCursor a.acknowledged && roomCursor a.announced && a.acknowledged ≤ a.announced
      && roomCursor a.connectedAt && roomCursor a.expiresAt && roomCursor a.sentAt
      && roomCursor a.lastMessageAt && a.expiresAt == a.connectedAt + Limits.lifetimeMs
      && a.connectedAt ≤ a.sentAt && a.sentAt < a.expiresAt
      && (a.pending || a.acknowledged == a.announced)

def closeRoomSocket (socket : RoomSocket) : RoomSocket := { socket with isOpen := false }

def serializeAttachment (socket : RoomSocket) (a : RoomAttachment) : RoomSocket :=
  { socket with attachment := some a }

def roomIdentityMatches (a : RoomAttachment) (identity : Option RoomIdentity) : Bool :=
  identity.any fun identity => identity.fellowId == a.fellowId
    && identity.sponsorId == a.sponsorId
    && identity.problemBinding.all (· == a.problemId)

/-! ## The fanout -/

/-- `send`. The pending state is serialized before the socket takes the
frame, or throws. -/
def send (socket : RoomSocket) (a : RoomAttachment) (through now : Int) (delivers : Bool) :
    RoomSocket :=
  match roomNotice a.problemId a.acknowledged through with
  | .error _ => closeRoomSocket socket
  | .ok frame =>
      let socket := serializeAttachment socket
        { a with announced := through, pending := true, dirty := false, sentAt := now }
      if delivers then { socket with frames := socket.frames ++ [frame] }
      else closeRoomSocket socket

def live (socket : RoomSocket) (now : Int) : Except RoomSocket RoomAttachment :=
  if !socket.isOpen then .error socket
  else match roomAttachment socket with
  | none => .error (closeRoomSocket socket)
  | some a =>
      if !roomCursor now || now < a.connectedAt || a.expiresAt ≤ now then
        .error (closeRoomSocket socket)
      else if a.pending && Limits.acknowledgementMs ≤ now - a.sentAt then
        .error (closeRoomSocket socket)
      else .ok a

/-- `authorized`, with the head that was read. -/
def authorized (socket : RoomSocket) (identity : Option RoomIdentity) (head : Option Int)
    (now : Int) : Except RoomSocket (RoomAttachment × Int) :=
  (live socket now).bind fun a =>
    match head with
    | none => .error (closeRoomSocket socket)
    | some seq =>
        if !roomIdentityMatches a identity then .error (closeRoomSocket socket)
        else if !roomCursor seq || seq < a.announced then .error (closeRoomSocket socket)
        else .ok (a, seq)

structure ConnectInput where
  problemId : String
  since : Int
  tokenHash : String
  identity : RoomIdentity
deriving Repr, DecidableEq

def isConnectValid (input : ConnectInput) (head now : Int) : Bool :=
  roomProblem input.problemId && roomCursor input.since && roomCursor head && input.since ≤ head
    && roomCursor now && roomCursor (now + Limits.lifetimeMs) && roomId input.identity.fellowId
    && roomId input.identity.sponsorId && isTokenHash input.tokenHash
    && input.identity.problemBinding.all (· == input.problemId)

/-- The room, the Fellow and the sponsor have a connection left. -/
def hasCapacity (sockets : List RoomSocket) (identity : RoomIdentity) : Bool :=
  let held := sockets.filter (·.isHeld)
  let attachments := held.filterMap roomAttachment
  held.length < Limits.connections
    && (attachments.filter (·.fellowId == identity.fellowId)).length < Limits.perFellow
    && (attachments.filter (·.sponsorId == identity.sponsorId)).length < Limits.perSponsor

inductive ConnectResult where
  | accepted
  | capacity
  | invalid
deriving Repr, DecidableEq

def connectedAttachment (input : ConnectInput) (now : Int) : RoomAttachment :=
  { problemId := input.problemId, fellowId := input.identity.fellowId
    sponsorId := input.identity.sponsorId, tokenHash := input.tokenHash
    acknowledged := input.since, announced := input.since, pending := false, dirty := false
    connectedAt := now, expiresAt := now + Limits.lifetimeMs, sentAt := now, lastMessageAt := 0 }

def acceptedSocket : RoomSocket :=
  { isOpen := true, isHeld := true, attachment := none, frames := [], acks := 0, refreshed := [] }

def connect (sockets : List RoomSocket) (input : ConnectInput) (head now : Int) (delivers : Bool) :
    ConnectResult × List RoomSocket :=
  if !isConnectValid input head now then (.invalid, sockets)
  else if !hasCapacity sockets input.identity then (.capacity, sockets)
  else (.accepted,
    sockets ++ [send acceptedSocket (connectedAttachment input now) head now delivers])

/-- The cursor to complete once the authority and the head are read. -/
def beginAck (socket : RoomSocket) (message : Message) (now : Int) : RoomSocket × Option Int :=
  match live socket now with
  | .error socket => (socket, none)
  | .ok a =>
      match (parseRoomAck message).filter (· == a.announced) with
      | none => (closeRoomSocket socket, none)
      | some ack =>
          -- a duplicate acknowledgement: no read or write work
          if !a.pending then (socket, none)
          else if a.lastMessageAt != 0
              && now - a.lastMessageAt < Limits.acknowledgementIntervalMs then
            (closeRoomSocket socket, none)
          else (serializeAttachment socket { a with lastMessageAt := now }, some ack)

/-- The acknowledgement names the frame that is outstanding. -/
def isAckCurrent (a : RoomAttachment) (ack : Int) : Bool := a.pending && ack == a.announced

def completeAck (socket : RoomSocket) (ack : Int) (identity : Option RoomIdentity)
    (head : Option Int) (now : Int) (delivers : Bool) : RoomSocket :=
  match authorized socket identity head now with
  | .error socket => socket
  | .ok (a, seq) =>
      if !isAckCurrent a ack then socket
      else
        let acknowledged := { a with acknowledged := ack, pending := false, dirty := false }
        let socket :=
          { serializeAttachment socket acknowledged with acks := socket.acks + 1 }
        if ack < seq || a.dirty then send socket acknowledged (max seq ack) now delivers
        else socket

def refresh (socket : RoomSocket) (identity : Option RoomIdentity) (head : Option Int) (now : Int)
    (delivers : Bool) : RoomSocket :=
  match authorized socket identity head now with
  | .error socket => socket
  | .ok (a, seq) =>
      let socket := { socket with refreshed := socket.refreshed ++ [seq] }
      if a.pending then serializeAttachment socket { a with dirty := true }
      else send socket a (max seq a.acknowledged) now delivers

def revalidate (socket : RoomSocket) (identity : Option RoomIdentity) (head : Option Int)
    (now : Int) (lastPingAt : Option Int) : RoomSocket :=
  match authorized socket identity head now with
  | .error socket => socket
  | .ok (a, _) =>
      if Limits.silenceMs < now - max (max a.connectedAt a.lastMessageAt) (lastPingAt.getD 0) then
        closeRoomSocket socket
      else socket

end Asimposium.Herald

/-!
## Notices fit

A notice quotes a problem id and two paths, and names four cursors. Ids
and paths are plain text, so quoting adds two characters and no more, and
a cursor has at most sixteen digits: the frame limit is never reached.
-/

namespace Asimposium.Herald

/-! ## Plain text -/

theorem utf8ByteSize_ofList (chars : List Char) :
    (String.ofList chars).utf8ByteSize = (chars.map Char.utf8Size).sum := by
  induction chars with
  | nil => rfl
  | cons c rest ih =>
      rw [String.ofList_cons, String.utf8ByteSize_append, String.utf8ByteSize_singleton, ih,
        List.map_cons, List.sum_cons]

def isPlain (c : Char) : Bool := 0x20 ≤ c.toNat && c.toNat < 0x80 && c != '"' && c != '\\'

structure Plain (most : Nat) (text : String) : Prop where
  plain : text.toList.all isPlain = true
  short : text.toList.length ≤ most

variable {n : Nat} {text : String}

theorem Plain.mono {m : Nat} (h : Plain m text) (hmn : m ≤ n) : Plain n text :=
  ⟨h.plain, h.short.trans hmn⟩

theorem Plain.append {m n : Nat} {text other : String} (h : Plain m text) (hother : Plain n other) :
    Plain (m + n) (text ++ other) := by
  refine ⟨?_, ?_⟩
  · rw [String.toList_append, List.all_append, h.plain, hother.plain]
    rfl
  · rw [String.toList_append, List.length_append]
    exact Nat.add_le_add h.short hother.short

theorem Plain.literal {chars : List Char} (h : chars.all isPlain = true) :
    Plain chars.length (String.ofList chars) := by
  refine ⟨?_, ?_⟩
  · rw [String.toList_ofList]
    exact h
  · rw [String.toList_ofList]

variable {c : Char}

theorem escapeJson_plain (h : isPlain c = true) : escapeJson c = c.toString := by
  simp only [isPlain, Bool.and_eq_true, bne_iff_ne, decide_eq_true_eq] at h
  unfold escapeJson
  rw [if_neg h.1.2, if_neg h.2, if_neg (by omega), if_neg (by omega), if_neg (by omega),
    if_neg (by omega), if_neg (by omega), if_neg (by omega)]

theorem Plain.utf8Size (h : isPlain c = true) : c.utf8Size = 1 := by
  simp only [isPlain, Bool.and_eq_true, bne_iff_ne, decide_eq_true_eq] at h
  refine Char.utf8Size_eq_one_iff.mpr ?_
  rw [UInt32.le_iff_toNat_le]
  have hc : c.val.toNat = c.toNat := rfl
  change c.val.toNat ≤ 127
  omega

theorem Plain.size_le (h : Plain n text) : text.utf8ByteSize ≤ n := by
  have hsize : ∀ chars : List Char, chars.all isPlain = true →
      (chars.map Char.utf8Size).sum = chars.length := by
    intro chars hchars
    induction chars with
    | nil => rfl
    | cons c rest ih =>
        rw [List.all_cons, Bool.and_eq_true] at hchars
        rw [List.map_cons, List.sum_cons, ih hchars.2, Plain.utf8Size hchars.1, List.length_cons,
          Nat.add_comm]
  rw [← String.ofList_toList (s := text), utf8ByteSize_ofList, hsize _ h.plain]
  exact h.short

theorem Plain.quoted (h : Plain n text) : quoteJson text = "\"" ++ text ++ "\"" := by
  have hsame : ∀ chars : List Char, chars.all isPlain = true →
      String.join (chars.map escapeJson) = String.ofList chars := by
    intro chars hchars
    induction chars with
    | nil => rfl
    | cons c rest ih =>
        rw [List.all_cons, Bool.and_eq_true] at hchars
        rw [List.map_cons, String.join_cons, ih hchars.2, escapeJson_plain hchars.1,
          String.ofList_cons]
        rfl
  rw [quoteJson, hsame _ h.plain, String.ofList_toList]

theorem Plain.quote_size_le (h : Plain n text) : (quoteJson text).utf8ByteSize ≤ n + 2 := by
  have hsize := h.size_le
  have hmark : "\"".utf8ByteSize = 1 := rfl
  rw [h.quoted, String.utf8ByteSize_append, String.utf8ByteSize_append]
  omega

theorem quoteJson_literal_size {chars : List Char} (h : chars.all isPlain = true) :
    (quoteJson (String.ofList chars)).utf8ByteSize ≤ chars.length + 2 :=
  (Plain.literal h).quote_size_le

theorem isPlain_of_isAlphanum (h : c.isAlphanum = true) : isPlain c = true := by
  have hne : ∀ d : Char, d.isAlphanum = false → c ≠ d := by
    rintro d hd rfl
    rw [h] at hd
    cases hd
  simp only [isPlain, hne '"' rfl, hne '\\' rfl, Bool.and_eq_true, decide_eq_true_eq,
    bne_iff_ne, ne_eq, not_false_eq_true, and_true]
  simp only [Char.isAlphanum, Char.isAlpha, Char.isUpper, Char.isLower, Char.isDigit,
    Bool.or_eq_true, Bool.and_eq_true, decide_eq_true_eq, UInt32.le_iff_toNat_le] at h
  have hval : c.val.toNat = c.toNat := rfl
  simp at h
  omega

theorem isPlain_of_isIdChar (h : isIdChar c = true) : isPlain c = true := by
  rcases Bool.or_eq_true_iff.mp h with halpha | hmark
  · exact isPlain_of_isAlphanum halpha
  · have hmem : c ∈ ['.', '_', ':', '-'] := List.contains_iff_mem.mp hmark
    fin_cases hmem
    · rfl
    · rfl
    · rfl
    · rfl

theorem plain_toString {n : Int} (h : roomCursor n = true) : Plain 16 (toString n) := by
  obtain ⟨hsafe, hnonneg⟩ := Bool.and_eq_true_iff.mp h
  rw [decide_eq_true_eq] at hnonneg
  rw [isSafeInteger, decide_eq_true_eq, maxSafeInteger] at hsafe
  lift n to ℕ using hnonneg
  have htext : (toString (n : Int)).toList = Nat.toDigits 10 n := by
    change (Nat.repr n).toList = _
    rw [Nat.repr, String.toList_ofList]
  refine ⟨?_, ?_⟩
  · rw [htext, List.all_eq_true]
    intro c hc
    have hdigit := Nat.isDigit_of_mem_toDigits (by decide) (by decide) hc
    exact isPlain_of_isAlphanum (by simp [Char.isAlphanum, hdigit])
  · rw [htext, Nat.length_toDigits_le_iff (by decide) (by decide)]
    omega

/-! ## Paths and notices -/

theorem plain_roomProblem {id : String} (h : roomProblem id = true) : Plain 128 id := by
  have hid : roomId id = true := (Bool.and_eq_true_iff.mp h).1
  unfold roomId at hid
  cases hchars : id.toList with
  | nil => rw [hchars] at hid; cases hid
  | cons first rest =>
      rw [hchars] at hid
      simp only [Bool.and_eq_true, decide_eq_true_eq, List.all_eq_true] at hid
      obtain ⟨⟨hfirst, hlength⟩, hrest⟩ := hid
      refine ⟨?_, ?_⟩
      · rw [hchars, List.all_cons, isPlain_of_isAlphanum hfirst, Bool.true_and, List.all_eq_true]
        intro c hc
        exact isPlain_of_isIdChar (hrest c hc)
      · rw [hchars, List.length_cons]
        omega

theorem plain_encodeProblem {id : String} (h : roomProblem id = true) :
    Plain 384 (encodeProblem id) := by
  have hjoin : ∀ chars : List Char, chars.all isPlain = true → Plain (3 * chars.length)
      (String.join (chars.map fun c => if c = ':' then "%3A" else c.toString)) := by
    intro chars hchars
    induction chars with
    | nil => exact ⟨rfl, le_rfl⟩
    | cons c rest ih =>
        rw [List.all_cons, Bool.and_eq_true] at hchars
        have hone : Plain 3 (if c = ':' then "%3A" else c.toString) := by
          split_ifs
          · exact @Plain.literal ['%', '3', 'A'] rfl
          · have hc : (c.toString).toList = [c] := String.toList_singleton c
            refine ⟨?_, ?_⟩
            · rw [hc, List.all_cons, hchars.1]
              rfl
            · rw [hc, List.length_singleton]
              decide
        rw [List.map_cons, String.join_cons, List.length_cons]
        exact (hone.append (ih hchars.2)).mono (by omega)
  have hid := plain_roomProblem h
  exact (hjoin _ hid.plain).mono (by have hshort := hid.short; omega)

theorem roomTailPath_plain {id : String} {since : Int} {through : Option Int}
    (hproblem : roomProblem id = true) (hsince : roomCursor since = true)
    (hthrough : ∀ last ∈ through, roomCursor last = true ∧ since ≤ last) :
    ∃ path, roomTailPath id since through = .ok path ∧ Plain 470 path := by
  have hbad : through.any (fun last => !roomCursor last || decide (last < since)) = false := by
    cases through with
    | none => rfl
    | some last =>
        obtain ⟨hlast, hle⟩ := hthrough last rfl
        simp [hlast, hle]
  have hhead : ∀ page, Plain 24 page → Plain 470 ("/p/" ++ encodeProblem id
      ++ "/events.ndjson?since=" ++ toString since ++ "&limit=200&" ++ page) := by
    intro page hpage
    have hroot := (@Plain.literal ['/', 'p', '/'] rfl).append (plain_encodeProblem hproblem)
    have hevents := @Plain.literal ['/', 'e', 'v', 'e', 'n', 't', 's', '.', 'n', 'd', 'j', 's', 'o',
      'n', '?', 's', 'i', 'n', 'c', 'e', '='] rfl
    have hlimit := @Plain.literal ['&', 'l', 'i', 'm', 'i', 't', '=', '2', '0', '0', '&'] rfl
    have hcursor := (hroot.append hevents).append (plain_toString hsince)
    exact ((hcursor.append hlimit).append hpage).mono (by decide)
  unfold roomTailPath
  rw [hproblem, hsince, hbad]
  cases through with
  | none =>
      have hwait := @Plain.literal ['w', 'a', 'i', 't', '=', '2', '5'] rfl
      exact ⟨_, rfl, hhead _ (hwait.mono (by decide))⟩
  | some last =>
      have hlast := plain_toString (hthrough last rfl).1
      have hthrough := @Plain.literal ['t', 'h', 'r', 'o', 'u', 'g', 'h', '='] rfl
      exact ⟨_, rfl, hhead _ ((hthrough.append hlast).mono (by decide))⟩

set_option maxRecDepth 2000 in
theorem roomNotice_fits {id : String} {since through : Int} (hproblem : roomProblem id = true)
    (hsince : roomCursor since = true) (hthrough : roomCursor through = true)
    (hle : since ≤ through) : ∃ text, roomNotice id since through = .ok ⟨since, through, text⟩ := by
  obtain ⟨events, hevents, hplain⟩ := roomTailPath_plain hproblem hsince
    (fun last (hlast : last ∈ some through) => by cases hlast; exact ⟨hthrough, hle⟩)
  obtain ⟨poll, hpoll, hplain'⟩ := roomTailPath_plain hproblem hsince
    (fun last (hlast : last ∈ none) => by cases hlast)
  refine ⟨noticeText id since through events poll, ?_⟩
  rw [roomNotice, hevents, hpoll]
  dsimp only [Except.bind]
  have hsizes : (noticeText id since through events poll).utf8ByteSize ≤ Limits.frameBytes := by
    have hid := (plain_roomProblem hproblem).quote_size_le
    have hevents := hplain.quote_size_le
    have hpoll := hplain'.quote_size_le
    have hsince := (plain_toString hsince).size_le
    have hthrough := (plain_toString hthrough).size_le
    have hseconds : (toString Limits.heartbeatSeconds).utf8ByteSize = 2 := rfl
    have hinstruction : (quoteJson instruction).utf8ByteSize ≤ 250 :=
      (quoteJson_literal_size (by decide +kernel)).trans (by decide +kernel)
    have hmarks : ∀ text ∈ ["\x7b", "\x7d", ","], text.utf8ByteSize ≤ 1 := by decide +kernel
    have hnames : ∀ text ∈ ["\"control\":\"resync\"", "\"problem_id\":", "\"since\":", "\"through\":",
        "\"events\":", "\"poll\":", "\"instruction\":"], text.utf8ByteSize ≤ 20 := by decide +kernel
    have hmembers : ∀ text ∈ ["\"acknowledgement\":\x7b\"ack\":",
        "\"schema\":\"https://a.asimposium.org/schemas/herald-room.v1.json\"",
        "\"heartbeat\":\x7b\"request\":\"ping\",\"response\":\"pong\",\"seconds\":",
        "\"invalidate_cached_objects\":true"],
        text.utf8ByteSize ≤ 70 := by decide +kernel
    simp only [List.forall_mem_cons] at hmarks hnames hmembers
    have hframe : Limits.frameBytes = 2048 := rfl
    rw [noticeText]
    simp only [String.intercalate_cons_cons, String.intercalate_singleton,
      String.utf8ByteSize_append, hseconds]
    omega
  rw [if_neg (not_lt.mpr hsizes)]

end Asimposium.Herald
