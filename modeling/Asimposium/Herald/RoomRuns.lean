import Mathlib.Data.List.Chain
import Mathlib.Logic.Relation
import Asimposium.Herald.Room

/-!
# Runs of a room

Connects, acknowledgements, refreshes and revalidations of many sockets,
interleaved. An operation is begun, reads the head, and completes with
what it has read, whatever has happened in between; heads are never read
lower than before. An acknowledgement does its first part when it is
begun.

Nothing is lost (`room_loses_nothing`) as long as an acknowledgement that
takes effect was begun for the frame that is outstanding. Two
acknowledgements of one frame may be under way at once; if the frame is
sent again for a dirty bit in between, the second takes it for the first,
and the refresh that set the bit is forgotten
(`refresh_lost_to_duplicate`).
-/

namespace Asimposium.Herald

/-! ## The methods, socket by socket -/

structure Framed (socket : RoomSocket) (a : RoomAttachment) : Prop where
  ordered : a.acknowledged ≤ a.announced
  settled : a.pending = false → a.acknowledged = a.announced
  /-- At most one frame is unacknowledged. -/
  outstanding : socket.frames.length = socket.acks + a.pending.toNat
  contiguous : socket.frames.IsChain fun frame next => frame.through = next.since
  last : ∀ frame ∈ socket.frames.getLast?, frame.through = a.announced
    ∧ (a.pending = true → frame.since = a.acknowledged)

section Methods

variable {socket closed : RoomSocket} {a : RoomAttachment} {identity : Option RoomIdentity}
  {head : Option Int} {seq now : Int} {delivers : Bool}

theorem live_error (h : live socket now = .error closed) :
    closed.isOpen = false ∧ closed.frames = socket.frames
      ∧ closed.refreshed = socket.refreshed := by
  unfold live at h
  by_cases hopen : socket.isOpen
  · rw [if_neg (by simp [hopen])] at h
    cases ha : roomAttachment socket with
    | none =>
        rw [ha] at h
        cases h
        exact ⟨rfl, rfl, rfl⟩
    | some a =>
        rw [ha] at h
        dsimp only at h
        split_ifs at h
        · cases h
          exact ⟨rfl, rfl, rfl⟩
        · cases h
          exact ⟨rfl, rfl, rfl⟩
  · rw [if_pos (by simp [hopen])] at h
    cases h
    exact ⟨by simpa using hopen, rfl, rfl⟩

theorem live_ok (h : live socket now = .ok a) :
    socket.isOpen = true ∧ roomAttachment socket = some a := by
  unfold live at h
  by_cases hopen : socket.isOpen
  · rw [if_neg (by simp [hopen])] at h
    cases ha : roomAttachment socket with
    | none => rw [ha] at h; cases h
    | some found =>
        rw [ha] at h
        dsimp only at h
        split_ifs at h
        cases h
        exact ⟨hopen, rfl⟩
  · rw [if_pos (by simp [hopen])] at h
    cases h

theorem authorized_error (h : authorized socket identity head now = .error closed) :
    closed.isOpen = false ∧ closed.frames = socket.frames
      ∧ closed.refreshed = socket.refreshed := by
  unfold authorized at h
  cases hlive : live socket now with
  | error left =>
      rw [hlive] at h
      cases h
      exact live_error hlive
  | ok a =>
      rw [hlive] at h
      cases head with
      | none =>
          cases h
          exact ⟨rfl, rfl, rfl⟩
      | some seq =>
          dsimp only [Except.bind] at h
          split_ifs at h
          · cases h
            exact ⟨rfl, rfl, rfl⟩
          · cases h
            exact ⟨rfl, rfl, rfl⟩

theorem authorized_ok (h : authorized socket identity head now = .ok (a, seq)) :
    socket.isOpen = true ∧ roomAttachment socket = some a ∧ head = some seq := by
  unfold authorized at h
  cases hlive : live socket now with
  | error left => rw [hlive] at h; cases h
  | ok found =>
      rw [hlive] at h
      cases head with
      | none => cases h
      | some read =>
          dsimp only [Except.bind] at h
          split_ifs at h
          cases h
          exact ⟨(live_ok hlive).1, (live_ok hlive).2, rfl⟩

theorem roomAttachment_some (h : roomAttachment socket = some a) : socket.attachment = some a :=
  (Option.filter_eq_some_iff.mp h).1

/-- What a socket to which nothing is outstanding looks like after a
send. -/
structure Sent (socket socket' : RoomSocket) : Prop where
  refreshed : socket'.refreshed = socket.refreshed
  grows : socket.frames.length ≤ socket'.frames.length
  announced : socket'.isOpen = true → socket'.frames.length = socket.frames.length + 1
    ∧ ∃ a, socket'.attachment = some a ∧ Framed socket' a ∧ a.pending = true ∧ a.dirty = false

theorem send_ok {problemId : String} {since through : Int} {frame : RoomNotice}
    (hproblem : a.problemId = problemId) (hsince : a.acknowledged = since)
    (h : roomNotice problemId since through = .ok frame) (now : Int) :
    send socket a through now true
      = { socket with
          attachment := some { a with
            announced := through, pending := true, dirty := false, sentAt := now }
          frames := socket.frames ++ [frame] } := by
  rw [send, hproblem, hsince, h]
  rfl

theorem send_sent (through now : Int) (delivers : Bool) (hframed : Framed socket a)
    (hpending : a.pending = false) :
    Sent socket (send socket a through now delivers) := by
  unfold send
  cases hnotice : roomNotice a.problemId a.acknowledged through with
  | error message => exact ⟨rfl, le_rfl, fun h => absurd h Bool.false_ne_true⟩
  | ok frame =>
      obtain ⟨hsince, hthrough, hle⟩ := roomNotice_ok hnotice
      dsimp only
      cases delivers with
      | false => exact ⟨rfl, le_rfl, fun h => absurd h Bool.false_ne_true⟩
      | true =>
          refine ⟨rfl, by simp [serializeAttachment],
            fun _ => ⟨by simp [serializeAttachment], _, rfl, ?_, rfl, rfl⟩⟩
          refine ⟨hle, fun h => absurd h.symm Bool.false_ne_true, ?_, ?_, ?_⟩
          · have hcount := hframed.outstanding
            rw [hpending] at hcount
            simpa [serializeAttachment] using hcount
          · refine List.isChain_append.mpr ⟨hframed.contiguous, List.isChain_singleton _, ?_⟩
            intro last hlast next hnext
            cases hnext
            rw [(hframed.last last hlast).1, hsince]
            exact (hframed.settled hpending).symm
          · intro last hlast
            have hframe : frame = last := by simpa [serializeAttachment] using hlast
            rw [← hframe]
            exact ⟨hthrough, fun _ => hsince⟩

end Methods

/-! ## The system -/

inductive Task where
  | connect (input : ConnectInput)
  /-- `frame` counts the frames of the socket when it was begun. -/
  | acknowledge (socket : Nat) (ack : Int) (frame : Nat)
  | refresh (socket : Nat)
  | revalidate (socket : Nat)
deriving Repr, DecidableEq

/-- An operation and the head it has read; there may be no public head. -/
structure Operation where
  task : Task
  head : Option (Option Int)
deriving Repr, DecidableEq

/-- `latest` is the head as it was read last. -/
structure System where
  sockets : List RoomSocket
  operations : List Operation
  latest : Int
deriving Repr, DecidableEq

def System.initial : System := { sockets := [], operations := [], latest := 0 }

/-- The socket is replaced, and some operations are over. -/
def System.update (system : System) (i : Nat) (socket : RoomSocket)
    (operations : List Operation) : System :=
  { system with sockets := system.sockets.set i socket, operations }

/-- The acknowledgement was begun for the frame it now completes. -/
def IsOfFrame (socket : RoomSocket) (ack : Int) (frame : Nat) : Prop :=
  ∀ a, roomAttachment socket = some a → isAckCurrent a ack = true → frame = socket.frames.length

/-- One step. An operation that is not continued has crashed or timed
out; `allowed` restricts the acknowledgements that complete. -/
inductive Step (allowed : RoomSocket → Int → Nat → Prop) : System → System → Prop where
  | start (system : System) (task : Task) (h : ∀ i ack frame, task ≠ .acknowledge i ack frame) :
      Step allowed system { system with operations := system.operations ++ [⟨task, none⟩] }
  | beginAck (system : System) (i : Nat) (socket : RoomSocket) (message : Message) (now : Int)
      (h : system.sockets[i]? = some socket) :
      Step allowed system (system.update i (beginAck socket message now).1
        (system.operations ++ ((beginAck socket message now).2.map fun ack =>
          ⟨.acknowledge i ack socket.frames.length, none⟩).toList))
  | read (system : System) (j : Nat) (task : Task) (head : Option Int)
      (h : system.operations[j]? = some ⟨task, none⟩) (hhead : ∀ seq ∈ head, system.latest ≤ seq) :
      Step allowed system
        { system with
          operations := system.operations.set j ⟨task, some head⟩
          latest := head.getD system.latest }
  | connect (system : System) (j : Nat) (input : ConnectInput) (head now : Int) (delivers : Bool)
      (h : system.operations[j]? = some ⟨.connect input, some (some head)⟩) :
      Step allowed system
        { system with
          sockets := (connect system.sockets input head now delivers).2
          operations := system.operations.eraseIdx j }
  | completeAck (system : System) (j i : Nat) (socket : RoomSocket) (ack : Int) (frame : Nat)
      (head : Option Int) (identity : Option RoomIdentity) (now : Int) (delivers : Bool)
      (h : system.operations[j]? = some ⟨.acknowledge i ack frame, some head⟩)
      (hsocket : system.sockets[i]? = some socket) (hallowed : allowed socket ack frame) :
      Step allowed system (system.update i (completeAck socket ack identity head now delivers)
        (system.operations.eraseIdx j))
  | refresh (system : System) (j i : Nat) (socket : RoomSocket) (head : Option Int)
      (identity : Option RoomIdentity) (now : Int) (delivers : Bool)
      (h : system.operations[j]? = some ⟨.refresh i, some head⟩)
      (hsocket : system.sockets[i]? = some socket) :
      Step allowed system (system.update i (refresh socket identity head now delivers)
        (system.operations.eraseIdx j))
  | revalidate (system : System) (j i : Nat) (socket : RoomSocket) (head : Option Int)
      (identity : Option RoomIdentity) (now : Int) (lastPingAt : Option Int)
      (h : system.operations[j]? = some ⟨.revalidate i, some head⟩)
      (hsocket : system.sockets[i]? = some socket) :
      Step allowed system (system.update i (revalidate socket identity head now lastPingAt)
        (system.operations.eraseIdx j))
  | abandon (system : System) (j : Nat) :
      Step allowed system { system with operations := system.operations.eraseIdx j }
  /-- The client, the runtime or a failed operation closes the socket. -/
  | close (system : System) (i : Nat) (socket : RoomSocket)
      (h : system.sockets[i]? = some socket) :
      Step allowed system (system.update i (closeRoomSocket socket) system.operations)
  | release (system : System) (i : Nat) (socket : RoomSocket)
      (h : system.sockets[i]? = some socket) (hclosed : socket.isOpen = false) :
      Step allowed system (system.update i { socket with isHeld := false } system.operations)

/-! ## The invariant -/

/-- What is known of one socket. While a frame is outstanding and no bit
is set, an acknowledgement of that frame has read a head no lower than
any a refresh has. -/
structure SocketInv (operations : List Operation) (latest : Int) (i : Nat) (socket : RoomSocket) :
    Prop where
  known : ∀ seq ∈ socket.refreshed, seq ≤ latest
  announced : socket.isOpen = true → ∃ a, socket.attachment = some a ∧ Framed socket a
    ∧ (a.pending = false → ∀ seq ∈ socket.refreshed, seq ≤ a.acknowledged)
    ∧ (a.pending = true → a.dirty = false → ∀ ack seq,
      ⟨.acknowledge i ack socket.frames.length, some (some seq)⟩ ∈ operations →
        ∀ seen ∈ socket.refreshed, seen ≤ seq)

structure SystemInv (system : System) : Prop where
  sockets : ∀ i socket, system.sockets[i]? = some socket →
    SocketInv system.operations system.latest i socket
  begun : ∀ i ack frame head, ⟨.acknowledge i ack frame, head⟩ ∈ system.operations →
    ∃ socket, system.sockets[i]? = some socket ∧ frame ≤ socket.frames.length
  heads : ∀ task seq, ⟨task, some (some seq)⟩ ∈ system.operations → seq ≤ system.latest

theorem systemInv_initial : SystemInv .initial :=
  ⟨fun _ _ h => by simp [System.initial] at h, fun _ _ _ _ h => absurd h List.not_mem_nil,
    fun _ _ h => absurd h List.not_mem_nil⟩

section Invariant

variable {system : System} {i : Nat} {socket socket' : RoomSocket}
  {operations operations' : List Operation} {latest : Int}

theorem SocketInv.anti (h : SocketInv operations latest i socket)
    (hsub : operations' ⊆ operations) : SocketInv operations' latest i socket := by
  refine ⟨h.known, fun hopen => ?_⟩
  obtain ⟨a, ha, hframed, hsettled, hcovered⟩ := h.announced hopen
  exact ⟨a, ha, hframed, hsettled, fun hpending hdirty ack seq hmem =>
    hcovered hpending hdirty ack seq (hsub hmem)⟩

theorem SocketInv.closed (h : SocketInv operations latest i socket)
    (hclosed : socket'.isOpen = false) (hrefreshed : socket'.refreshed = socket.refreshed) :
    SocketInv operations' latest i socket' := by
  refine ⟨fun seq hseq => h.known seq (hrefreshed ▸ hseq), fun hopen => ?_⟩
  rw [hclosed] at hopen
  cases hopen

theorem SocketInv.sent (hsent : Sent socket socket')
    (hknown : ∀ seq ∈ socket.refreshed, seq ≤ latest)
    (hbegun : ∀ ack frame head, ⟨.acknowledge i ack frame, head⟩ ∈ operations →
      frame ≤ socket.frames.length) :
    SocketInv operations latest i socket' := by
  refine ⟨fun seq hseq => hknown seq (hsent.refreshed ▸ hseq), fun hopen => ?_⟩
  obtain ⟨hlength, a, ha, hframed, hpending, hdirty⟩ := hsent.announced hopen
  refine ⟨a, ha, hframed, fun hsettled => ?_, fun _ _ ack seq hmem => ?_⟩
  · rw [hpending] at hsettled
    cases hsettled
  · have hle := hbegun ack _ _ hmem
    omega

theorem SystemInv.update (h : SystemInv system) (hsocket : system.sockets[i]? = some socket)
    (hsub : operations ⊆ system.operations) (hgrows : socket.frames.length ≤ socket'.frames.length)
    (hinv : SocketInv operations system.latest i socket') :
    SystemInv (system.update i socket' operations) := by
  have hlt : i < system.sockets.length := (List.getElem?_eq_some_iff.mp hsocket).1
  refine ⟨fun k other hother => ?_, fun k ack frame head hmem => ?_, fun task seq hmem =>
    h.heads task seq (hsub hmem)⟩
  · by_cases hk : i = k
    · subst hk
      rw [System.update, List.getElem?_set_self hlt] at hother
      cases hother
      exact hinv
    · rw [System.update, List.getElem?_set_ne hk] at hother
      exact (h.sockets k other hother).anti hsub
  · obtain ⟨other, hother, hle⟩ := h.begun k ack frame head (hsub hmem)
    by_cases hk : i = k
    · subst hk
      rw [hsocket] at hother
      cases hother
      exact ⟨socket', List.getElem?_set_self hlt, hle.trans hgrows⟩
    · exact ⟨other, (List.getElem?_set_ne hk).trans hother, hle⟩

/-! ## Steps -/

theorem SocketInv.beginAck {message : Message} {now : Int}
    (h : SocketInv operations latest i socket)
    (hsub : ∀ op ∈ operations', op ∈ operations ∨ op.head = none) :
    SocketInv operations' latest i (beginAck socket message now).1 := by
  have hmem : ∀ ack frame seq, (⟨.acknowledge i ack frame, some (some seq)⟩ : Operation) ∈ operations' →
      (⟨.acknowledge i ack frame, some (some seq)⟩ : Operation) ∈ operations := by
    intro ack frame seq hop
    exact (hsub _ hop).resolve_right (by simp)
  have hsame : SocketInv operations' latest i socket := by
    refine ⟨h.known, fun hopen => ?_⟩
    obtain ⟨a, ha, hframed, hsettled, hcovered⟩ := h.announced hopen
    exact ⟨a, ha, hframed, hsettled, fun hpending hdirty ack seq hop =>
      hcovered hpending hdirty ack seq (hmem _ _ _ hop)⟩
  unfold Herald.beginAck
  cases hlive : live socket now with
  | error closed =>
      obtain ⟨hclosed, -, hrefreshed⟩ := live_error hlive
      exact h.closed hclosed hrefreshed
  | ok a =>
      dsimp only
      cases (parseRoomAck message).filter (· == a.announced) with
      | none => exact h.closed rfl rfl
      | some ack =>
          dsimp only
          split_ifs
          · exact hsame
          · exact h.closed rfl rfl
          · refine ⟨h.known, fun hopen => ?_⟩
            obtain ⟨found, hfound, hframed, hsettled, hcovered⟩ := hsame.announced hopen
            have ha := roomAttachment_some (live_ok hlive).2
            rw [hfound] at ha
            cases ha
            exact ⟨_, rfl, ⟨hframed.ordered, hframed.settled, hframed.outstanding,
              hframed.contiguous, hframed.last⟩, hsettled, hcovered⟩

theorem beginAck_frames {message : Message} {now : Int} :
    (beginAck socket message now).1.frames = socket.frames := by
  unfold beginAck
  cases hlive : live socket now with
  | error closed => exact (live_error hlive).2.1
  | ok a =>
      dsimp only
      cases (parseRoomAck message).filter (· == a.announced) with
      | none => rfl
      | some ack =>
          dsimp only
          split_ifs
          · rfl
          · rfl
          · rfl

theorem SocketInv.completeAck {ack : Int} {frame : Nat} {head : Option Int}
    (h : SocketInv operations latest i socket) (identity : Option RoomIdentity) (now : Int)
    (delivers : Bool)
    (hbegun : ∀ ack frame head, ⟨.acknowledge i ack frame, head⟩ ∈ operations →
      frame ≤ socket.frames.length)
    (hop : ⟨.acknowledge i ack frame, some head⟩ ∈ operations)
    (hframe : IsOfFrame socket ack frame) :
    SocketInv operations latest i (completeAck socket ack identity head now delivers)
      ∧ socket.frames.length
        ≤ (Herald.completeAck socket ack identity head now delivers).frames.length := by
  unfold Herald.completeAck
  cases hauth : authorized socket identity head now with
  | error closed =>
      obtain ⟨hclosed, hframes, hrefreshed⟩ := authorized_error hauth
      exact ⟨h.closed hclosed hrefreshed, hframes ▸ le_rfl⟩
  | ok result =>
      obtain ⟨a, seq⟩ := result
      obtain ⟨hopen, hroom, rfl⟩ := authorized_ok hauth
      obtain ⟨found, hfound, hframed, -, hcovered⟩ := h.announced hopen
      have ha := roomAttachment_some hroom
      rw [hfound] at ha
      cases ha
      dsimp only
      by_cases hcurrent : isAckCurrent a ack = true
      · rw [if_neg (by simp [hcurrent])]
        have hof := hframe a hroom hcurrent
        subst hof
        obtain ⟨hpending, hannounced⟩ := Bool.and_eq_true_iff.mp hcurrent
        rw [beq_iff_eq] at hannounced
        let acknowledged := { a with acknowledged := ack, pending := false, dirty := false }
        let settled := { serializeAttachment socket acknowledged with acks := socket.acks + 1 }
        have hacknowledged : Framed settled acknowledged := by
          refine ⟨hannounced.le, fun _ => hannounced, ?_, hframed.contiguous, fun last hlast => ?_⟩
          · have hcount := hframed.outstanding
            rw [hpending] at hcount
            exact hcount
          · exact ⟨(hframed.last last hlast).1, fun hp => absurd hp Bool.false_ne_true⟩
        by_cases hsend : (decide (ack < seq) || a.dirty) = true
        · rw [if_pos hsend]
          have hsent := send_sent (max seq ack) now delivers hacknowledged rfl
          exact ⟨.sent hsent h.known hbegun, hsent.grows⟩
        · rw [if_neg hsend]
          rw [Bool.not_eq_true, Bool.or_eq_false_iff, decide_eq_false_iff_not, not_lt] at hsend
          refine ⟨⟨h.known, fun _ => ⟨acknowledged, rfl, hacknowledged, fun _ seen hseen => ?_, ?_⟩⟩,
            le_rfl⟩
          · exact (hcovered hpending hsend.2 ack seq hop seen hseen).trans hsend.1
          · exact fun hp => absurd hp Bool.false_ne_true
      · rw [if_pos (by simpa using hcurrent)]
        exact ⟨h, le_rfl⟩

theorem SocketInv.refresh {head : Option Int} (h : SocketInv operations latest i socket)
    (identity : Option RoomIdentity) (now : Int) (delivers : Bool)
    (hbegun : ∀ ack frame head, ⟨.acknowledge i ack frame, head⟩ ∈ operations →
      frame ≤ socket.frames.length)
    (hhead : ∀ seq, head = some seq → seq ≤ latest) :
    SocketInv operations latest i (refresh socket identity head now delivers)
      ∧ socket.frames.length
        ≤ (Herald.refresh socket identity head now delivers).frames.length := by
  unfold Herald.refresh
  cases hauth : authorized socket identity head now with
  | error closed =>
      obtain ⟨hclosed, hframes, hrefreshed⟩ := authorized_error hauth
      exact ⟨h.closed hclosed hrefreshed, hframes ▸ le_rfl⟩
  | ok result =>
      obtain ⟨a, seq⟩ := result
      obtain ⟨hopen, hroom, rfl⟩ := authorized_ok hauth
      obtain ⟨found, hfound, hframed, -, -⟩ := h.announced hopen
      have ha := roomAttachment_some hroom
      rw [hfound] at ha
      cases ha
      have hknown : ∀ seen ∈ socket.refreshed ++ [seq], seen ≤ latest := by
        intro seen hseen
        rcases List.mem_append.mp hseen with hold | hnew
        · exact h.known seen hold
        · rw [List.mem_singleton.mp hnew]
          exact hhead seq rfl
      dsimp only
      by_cases hpending : a.pending = true
      · rw [if_pos hpending]
        refine ⟨⟨hknown, fun _ => ⟨_, rfl, ⟨hframed.ordered, hframed.settled, hframed.outstanding,
          hframed.contiguous, hframed.last⟩, fun hsettled => ?_, fun _ hdirty => ?_⟩⟩, le_rfl⟩
        · exact absurd (hpending.symm.trans hsettled) (by decide)
        · exact absurd hdirty.symm Bool.false_ne_true
      · rw [if_neg hpending]
        have hframed' : Framed { socket with refreshed := socket.refreshed ++ [seq] } a :=
          ⟨hframed.ordered, hframed.settled, hframed.outstanding, hframed.contiguous, hframed.last⟩
        have hsent := send_sent (max seq a.acknowledged) now delivers hframed'
          (by simpa using hpending)
        exact ⟨.sent hsent hknown hbegun, hsent.grows⟩

theorem SocketInv.revalidate (h : SocketInv operations latest i socket)
    (identity : Option RoomIdentity) (head : Option Int) (now : Int) (lastPingAt : Option Int) :
    SocketInv operations latest i (revalidate socket identity head now lastPingAt)
      ∧ (Herald.revalidate socket identity head now lastPingAt).frames = socket.frames := by
  unfold Herald.revalidate
  cases hauth : authorized socket identity head now with
  | error closed =>
      obtain ⟨hclosed, hframes, hrefreshed⟩ := authorized_error hauth
      exact ⟨h.closed hclosed hrefreshed, hframes⟩
  | ok result =>
      dsimp only
      split_ifs
      · exact ⟨h.closed rfl rfl, rfl⟩
      · exact ⟨h, rfl⟩

theorem connect_inv (h : SystemInv system) {input : ConnectInput} {head now : Int}
    {delivers : Bool} (hsub : operations ⊆ system.operations) :
    SystemInv { system with
      sockets := (connect system.sockets input head now delivers).2, operations } := by
  have hkeep : SystemInv { system with operations } :=
    ⟨fun k other hother => (h.sockets k other hother).anti hsub,
      fun k ack frame head hmem => h.begun k ack frame head (hsub hmem),
      fun task seq hmem => h.heads task seq (hsub hmem)⟩
  unfold connect
  split_ifs
  · exact hkeep
  · exact hkeep
  have hframed : Framed acceptedSocket (connectedAttachment input now) :=
    ⟨le_rfl, fun _ => rfl, rfl, List.isChain_nil, fun frame hframe => by cases hframe⟩
  have hsent := send_sent head now delivers hframed rfl
  have hnone : ∀ ack frame head,
      (⟨.acknowledge system.sockets.length ack frame, head⟩ : Operation) ∉ operations := by
    intro ack frame head hmem
    obtain ⟨other, hother, -⟩ := h.begun _ _ _ _ (hsub hmem)
    rw [List.getElem?_eq_none le_rfl] at hother
    cases hother
  refine ⟨fun k other hother => ?_, fun k ack frame head hmem => ?_, hkeep.heads⟩
  · by_cases hk : k < system.sockets.length
    · rw [List.getElem?_append_left hk] at hother
      exact hkeep.sockets k other hother
    · have hlast : k = system.sockets.length := by
        have hlt := (List.getElem?_eq_some_iff.mp hother).1
        rw [List.length_append, List.length_singleton] at hlt
        omega
      subst hlast
      rw [List.getElem?_concat_length] at hother
      cases hother
      refine .sent hsent (fun seq hseq => absurd hseq List.not_mem_nil) fun ack frame head hmem => ?_
      exact absurd hmem (hnone ack frame head)
  · obtain ⟨other, hother, hle⟩ := h.begun k ack frame head (hsub hmem)
    have hlt := (List.getElem?_eq_some_iff.mp hother).1
    exact ⟨other, (List.getElem?_append_left hlt).trans hother, hle⟩

end Invariant

abbrev KeptRun : System → System → Prop := Relation.ReflTransGen (Step IsOfFrame)

theorem systemInv_step {system system' : System} (h : SystemInv system)
    (hstep : Step IsOfFrame system system') : SystemInv system' := by
  have herase : ∀ j, system.operations.eraseIdx j ⊆ system.operations := fun j =>
    (List.eraseIdx_sublist _ j).subset
  cases hstep with
  | start task htask =>
      refine ⟨fun i socket hsocket => ?_, fun i ack frame head hmem => ?_, fun other seq hmem => ?_⟩
      · have hinv := h.sockets i socket hsocket
        refine ⟨hinv.known, fun hopen => ?_⟩
        obtain ⟨a, ha, hframed, hsettled, hcovered⟩ := hinv.announced hopen
        refine ⟨a, ha, hframed, hsettled, fun hpending hdirty ack seq hmem => ?_⟩
        exact hcovered hpending hdirty ack seq (by simpa using hmem)
      · rcases List.mem_append.mp hmem with hold | hnew
        · exact h.begun i ack frame head hold
        · rw [List.mem_singleton, Operation.mk.injEq] at hnew
          exact absurd hnew.1.symm (htask i ack frame)
      · exact h.heads other seq (by simpa using hmem)
  | beginAck i socket message now hsocket =>
      have hlt : i < system.sockets.length := (List.getElem?_eq_some_iff.mp hsocket).1
      have hsub : ∀ op ∈ system.operations ++ ((beginAck socket message now).2.map fun ack =>
          (⟨.acknowledge i ack socket.frames.length, none⟩ : Operation)).toList,
          op ∈ system.operations
            ∨ ∃ ack, op = ⟨.acknowledge i ack socket.frames.length, none⟩ := by
        intro op hop
        rcases List.mem_append.mp hop with hold | hnew
        · exact .inl hold
        · obtain ⟨ack, -, rfl⟩ := Option.map_eq_some_iff.mp (Option.mem_toList.mp hnew)
          exact .inr ⟨ack, rfl⟩
      have hnone : ∀ op ∈ (system.update i (beginAck socket message now).1 (system.operations
          ++ ((beginAck socket message now).2.map fun ack =>
            (⟨.acknowledge i ack socket.frames.length, none⟩ : Operation)).toList)).operations,
          op ∈ system.operations ∨ op.head = none := by
        intro op hop
        rcases hsub op hop with hold | ⟨ack, rfl⟩
        · exact .inl hold
        · exact .inr rfl
      refine ⟨fun k other hother => ?_, fun k ack frame head hmem => ?_, fun task seq hmem => ?_⟩
      · by_cases hk : i = k
        · subst hk
          rw [System.update, List.getElem?_set_self hlt] at hother
          cases hother
          exact (h.sockets i socket hsocket).beginAck hnone
        · rw [System.update, List.getElem?_set_ne hk] at hother
          have hinv := h.sockets k other hother
          refine ⟨hinv.known, fun hopen => ?_⟩
          obtain ⟨a, ha, hframed, hsettled, hcovered⟩ := hinv.announced hopen
          refine ⟨a, ha, hframed, hsettled, fun hpending hdirty ack seq hmem => ?_⟩
          exact hcovered hpending hdirty ack seq ((hnone _ hmem).resolve_right (by simp))
      · have hfound : ∀ other, system.sockets[k]? = some other → frame ≤ other.frames.length →
            ∃ found, (system.sockets.set i (beginAck socket message now).1)[k]? = some found
              ∧ frame ≤ found.frames.length := by
          intro other hother hle
          by_cases hk : i = k
          · subst hk
            rw [hsocket] at hother
            cases hother
            refine ⟨_, List.getElem?_set_self hlt, ?_⟩
            rw [beginAck_frames]
            exact hle
          · exact ⟨other, (List.getElem?_set_ne hk).trans hother, hle⟩
        rcases hsub _ hmem with hold | ⟨other, hnew⟩
        · obtain ⟨other, hother, hle⟩ := h.begun k ack frame head hold
          exact hfound other hother hle
        · cases hnew
          exact hfound socket hsocket le_rfl
      · exact h.heads task seq ((hnone _ hmem).resolve_right (by simp))
  | read j task head hop hhead =>
      have hlatest : system.latest ≤ head.getD system.latest := by
        cases head with
        | none => exact le_rfl
        | some seq => exact hhead seq rfl
      have hmem : ∀ op ∈ system.operations.set j ⟨task, some head⟩,
          op ∈ system.operations ∨ op = ⟨task, some head⟩ := fun op hop =>
        List.mem_or_eq_of_mem_set hop
      refine ⟨fun i socket hsocket => ?_, fun i ack frame head' hnew => ?_, fun other seq hnew => ?_⟩
      · have hinv := h.sockets i socket hsocket
        refine ⟨fun seq hseq => (hinv.known seq hseq).trans hlatest, fun hopen => ?_⟩
        obtain ⟨a, ha, hframed, hsettled, hcovered⟩ := hinv.announced hopen
        refine ⟨a, ha, hframed, hsettled, fun hpending hdirty ack seq hnew seen hseen => ?_⟩
        rcases hmem _ hnew with hold | heq
        · exact hcovered hpending hdirty ack seq hold seen hseen
        · -- the head just read is at least any that was read before
          cases heq
          exact (hinv.known seen hseen).trans (hhead seq rfl)
      · rcases hmem _ hnew with hold | heq
        · exact h.begun i ack frame head' hold
        · cases heq
          exact h.begun i ack frame none (List.mem_of_getElem? hop)
      · rcases hmem _ hnew with hold | heq
        · exact (h.heads other seq hold).trans hlatest
        · cases heq
          exact le_rfl
  | connect j input head now delivers hop => exact connect_inv h (herase j)
  | completeAck j i socket ack frame head identity now delivers hop hsocket hallowed =>
      have hbegun : ∀ ack frame head,
          (⟨.acknowledge i ack frame, head⟩ : Operation) ∈ system.operations →
          frame ≤ socket.frames.length := by
        intro ack frame head hmem
        obtain ⟨other, hother, hle⟩ := h.begun i ack frame head hmem
        rw [hsocket] at hother
        cases hother
        exact hle
      obtain ⟨hinv, hgrows⟩ := (h.sockets i socket hsocket).completeAck identity now delivers
        hbegun (List.mem_of_getElem? hop) hallowed
      exact h.update hsocket (herase j) hgrows (hinv.anti (herase j))
  | refresh j i socket head identity now delivers hop hsocket =>
      have hbegun : ∀ ack frame head,
          (⟨.acknowledge i ack frame, head⟩ : Operation) ∈ system.operations →
          frame ≤ socket.frames.length := by
        intro ack frame head hmem
        obtain ⟨other, hother, hle⟩ := h.begun i ack frame head hmem
        rw [hsocket] at hother
        cases hother
        exact hle
      have hhead : ∀ seq, head = some seq → seq ≤ system.latest := by
        rintro seq rfl
        exact h.heads _ seq (List.mem_of_getElem? hop)
      obtain ⟨hinv, hgrows⟩ := (h.sockets i socket hsocket).refresh identity now delivers hbegun hhead
      exact h.update hsocket (herase j) hgrows (hinv.anti (herase j))
  | revalidate j i socket head identity now lastPingAt hop hsocket =>
      obtain ⟨hinv, hframes⟩ := (h.sockets i socket hsocket).revalidate identity head now
        lastPingAt
      exact h.update hsocket (herase j) (hframes ▸ le_rfl) (hinv.anti (herase j))
  | abandon j =>
      exact ⟨fun i socket hsocket => (h.sockets i socket hsocket).anti (herase j),
        fun i ack frame head hmem => h.begun i ack frame head (herase j hmem),
        fun task seq hmem => h.heads task seq (herase j hmem)⟩
  | close i socket hsocket =>
      exact h.update hsocket (List.Subset.refl _) le_rfl
        ((h.sockets i socket hsocket).closed rfl rfl)
  | release i socket hsocket hclosed =>
      exact h.update hsocket (List.Subset.refl _) le_rfl
        ((h.sockets i socket hsocket).closed hclosed rfl)

theorem systemInv_run {system : System} (h : KeptRun .initial system) : SystemInv system := by
  induction h with
  | refl => exact systemInv_initial
  | tail _ hstep ih => exact systemInv_step ih hstep

/-- What holds of an open socket: its cursors and frames are in order, and
once nothing is outstanding it has acknowledged every head a completed
refresh has read. -/
structure LosesNothing (socket : RoomSocket) (a : RoomAttachment) : Prop extends
    Framed socket a where
  caughtUp : a.pending = false → ∀ seq ∈ socket.refreshed, seq ≤ a.acknowledged

/-- In every state of a run whose acknowledgements complete for the frame
they were begun for, no open socket has lost an update. -/
theorem room_loses_nothing {system : System} (h : KeptRun .initial system) :
    ∀ socket ∈ system.sockets, socket.isOpen = true →
      ∃ a, socket.attachment = some a ∧ LosesNothing socket a := by
  intro socket hsocket hopen
  obtain ⟨i, hi⟩ := List.getElem?_of_mem hsocket
  obtain ⟨a, ha, hframed, hsettled, -⟩ := ((systemInv_run h).sockets i socket hi).announced hopen
  exact ⟨a, ha, hframed, hsettled⟩

/-! ## Two acknowledgements of one frame -/

def sampleInput : ConnectInput :=
  { problemId := "P-1", since := 0, tokenHash := String.ofList (List.replicate 64 '0')
    identity := { fellowId := "F-1", sponsorId := "S-1", problemBinding := none } }

/-- A socket of `sampleInput`, connected at 1000. -/
def sampleSocket (acknowledged : Int) (pending dirty : Bool) (sentAt lastMessageAt : Int)
    (frames : List RoomNotice) (acks : Nat) (refreshed : List Int) : RoomSocket :=
  { isOpen := true, isHeld := true
    attachment := some { connectedAttachment sampleInput 1000 with
      acknowledged, announced := 1, pending, dirty, sentAt, lastMessageAt }
    frames, acks, refreshed }

section Sample

variable {frame next : RoomNotice}

set_option maxRecDepth 4000 in
theorem sample_connect (h : roomNotice "P-1" 0 1 = .ok frame) :
    connect [] sampleInput 1 1000 true
      = (.accepted, [sampleSocket 0 true false 1000 0 [frame] 0 []]) := by
  have hvalid : isConnectValid sampleInput 1 1000 = true := by decide +kernel
  have hcapacity : hasCapacity [] sampleInput.identity = true := rfl
  have hsend : send acceptedSocket (connectedAttachment sampleInput 1000) 1 1000 true = _ :=
    @send_ok _ _ "P-1" 0 1 frame rfl rfl h 1000
  rw [connect, hvalid, hcapacity]
  simp only [hsend]
  rfl

theorem sample_ack : parseRoomAck (.text "\x7b\"ack\":1\x7d") = some 1 := by decide +kernel

theorem sample_beginAck {now lastMessageAt : Int}
    (hnow : now = 1000 ∧ lastMessageAt = 0 ∨ now = 1250 ∧ lastMessageAt = 1000) :
    beginAck (sampleSocket 0 true false 1000 lastMessageAt [frame] 0 [])
        (.text "\x7b\"ack\":1\x7d") now
      = (sampleSocket 0 true false 1000 now [frame] 0 [], some 1) := by
  rcases hnow with ⟨rfl, rfl⟩ | ⟨rfl, rfl⟩
  · rw [beginAck, sample_ack]
    rfl
  · rw [beginAck, sample_ack]
    rfl

theorem sample_refresh :
    refresh (sampleSocket 0 true false 1000 1250 [frame] 0 []) (some sampleInput.identity)
        (some 2) 1300 true
      = sampleSocket 0 true true 1000 1250 [frame] 0 [2] := by
  rfl

set_option maxRecDepth 4000 in
theorem sample_completeAck_dirty (h : roomNotice "P-1" 1 1 = .ok next) :
    completeAck (sampleSocket 0 true true 1000 1250 [frame] 0 [2]) 1
        (some sampleInput.identity) (some 1) 1400 true
      = sampleSocket 1 true false 1400 1250 [frame, next] 1 [2] := by
  have hauthorized : authorized (sampleSocket 0 true true 1000 1250 [frame] 0 [2])
      (some sampleInput.identity) (some 1) 1400
        = .ok ({ connectedAttachment sampleInput 1000 with
          announced := 1, pending := true, dirty := true, lastMessageAt := 1250 }, 1) := rfl
  let a : RoomAttachment := { connectedAttachment sampleInput 1000 with
    acknowledged := 1, announced := 1, lastMessageAt := 1250 }
  have hsend : send { sampleSocket 1 false false 1000 1250 [frame] 1 [2] with
      attachment := some a } a 1 1400 true = _ :=
    @send_ok _ _ "P-1" 1 1 next rfl rfl h 1400
  rw [completeAck, hauthorized]
  dsimp only
  rw [if_neg (by simp [isAckCurrent]), if_pos (Bool.or_true _)]
  exact hsend

theorem sample_completeAck :
    completeAck (sampleSocket 1 true false 1400 1250 [frame, next] 1 [2]) 1
        (some sampleInput.identity) (some 1) 1500 true
      = sampleSocket 1 false false 1400 1250 [frame, next] 2 [2] := by
  rfl

end Sample

abbrev AnyStep : System → System → Prop := Step fun _ _ _ => True

/-- A refresh read head 2 and left its bit. Two acknowledgements of the
frame were under way; the second took the frame sent for the bit as
acknowledged, and the socket rests at 1. -/
theorem refresh_lost_to_duplicate :
    ∃ system, Relation.ReflTransGen AnyStep .initial system
      ∧ system.operations = [] ∧ ∃ socket ∈ system.sockets, socket.isOpen = true
      ∧ ∃ a, socket.attachment = some a ∧ a.pending = false
      ∧ ∃ seq ∈ socket.refreshed.getLast?, a.acknowledged < seq := by
  have hproblem : roomProblem "P-1" = true := by decide +kernel
  obtain ⟨text, htext⟩ := @roomNotice_fits _ 0 1 hproblem rfl rfl (by decide)
  obtain ⟨text', htext'⟩ := @roomNotice_fits _ 1 1 hproblem rfl rfl le_rfl
  let frame : RoomNotice := ⟨0, 1, text⟩
  let next : RoomNotice := ⟨1, 1, text'⟩
  let begun : Operation := ⟨.acknowledge 0 1 1, none⟩
  let read : Operation := ⟨.acknowledge 0 1 1, some (some 1)⟩
  let identity := some sampleInput.identity
  have hstart : AnyStep .initial ⟨[], [⟨.connect sampleInput, none⟩], 0⟩ :=
    .start _ (.connect sampleInput) (fun _ _ _ h => by cases h)
  have hread : AnyStep ⟨[], [⟨.connect sampleInput, none⟩], 0⟩
      ⟨[], [⟨.connect sampleInput, some (some 1)⟩], 1⟩ :=
    .read _ 0 _ (some 1) rfl (by rintro seq ⟨⟩; decide)
  have hconnect : AnyStep ⟨[], [⟨.connect sampleInput, some (some 1)⟩], 1⟩
      ⟨[sampleSocket 0 true false 1000 0 [frame] 0 []], [], 1⟩ := by
    have h : AnyStep _ _ := .connect ⟨[], [⟨.connect sampleInput, some (some 1)⟩], 1⟩ 0
      sampleInput 1 1000 true rfl
    rw [sample_connect htext] at h
    exact h
  have hfirst : AnyStep ⟨[sampleSocket 0 true false 1000 0 [frame] 0 []], [], 1⟩
      ⟨[sampleSocket 0 true false 1000 1000 [frame] 0 []], [begun], 1⟩ := by
    have h : AnyStep _ _ := .beginAck ⟨[sampleSocket 0 true false 1000 0 [frame] 0 []], [], 1⟩ 0 _
      (.text "\x7b\"ack\":1\x7d") 1000 rfl
    rw [sample_beginAck (.inl ⟨rfl, rfl⟩)] at h
    exact h
  have hsecond : AnyStep ⟨[sampleSocket 0 true false 1000 1000 [frame] 0 []], [begun], 1⟩
      ⟨[sampleSocket 0 true false 1000 1250 [frame] 0 []], [begun, begun], 1⟩ := by
    have h : AnyStep _ _ := .beginAck ⟨[sampleSocket 0 true false 1000 1000 [frame] 0 []], [begun],
      1⟩ 0 _ (.text "\x7b\"ack\":1\x7d") 1250 rfl
    rw [sample_beginAck (.inr ⟨rfl, rfl⟩)] at h
    exact h
  let waiting := [sampleSocket 0 true false 1000 1250 [frame] 0 []]
  have hhead : AnyStep ⟨waiting, [begun, begun], 1⟩ ⟨waiting, [read, begun], 1⟩ :=
    .read _ 0 _ (some 1) rfl (by rintro seq ⟨⟩; exact le_rfl)
  have hhead' : AnyStep ⟨waiting, [read, begun], 1⟩ ⟨waiting, [read, read], 1⟩ :=
    .read _ 1 _ (some 1) rfl (by rintro seq ⟨⟩; exact le_rfl)
  have hnudge : AnyStep ⟨waiting, [read, read], 1⟩ ⟨waiting, [read, read, ⟨.refresh 0, none⟩], 1⟩ :=
    .start _ (.refresh 0) (fun _ _ _ h => by cases h)
  have hnewer : AnyStep ⟨waiting, [read, read, ⟨.refresh 0, none⟩], 1⟩
      ⟨waiting, [read, read, ⟨.refresh 0, some (some 2)⟩], 2⟩ := by
    have hle : (1 : Int) ≤ 2 := by decide
    exact .read _ 2 _ (some 2) rfl (by rintro seq ⟨⟩; exact hle)
  have hrefresh : AnyStep ⟨waiting, [read, read, ⟨.refresh 0, some (some 2)⟩], 2⟩
      ⟨[sampleSocket 0 true true 1000 1250 [frame] 0 [2]], [read, read], 2⟩ := by
    have h : AnyStep _ _ := .refresh ⟨waiting, [read, read, ⟨.refresh 0, some (some 2)⟩], 2⟩ 2 0 _
      (some 2) identity 1300 true rfl rfl
    rw [sample_refresh] at h
    exact h
  have hagain : AnyStep ⟨[sampleSocket 0 true true 1000 1250 [frame] 0 [2]], [read, read], 2⟩
      ⟨[sampleSocket 1 true false 1400 1250 [frame, next] 1 [2]], [read], 2⟩ := by
    have h : AnyStep _ _ := .completeAck ⟨[sampleSocket 0 true true 1000 1250 [frame] 0 [2]],
      [read, read], 2⟩ 0 0 _ 1 1 (some 1) identity 1400 true rfl rfl trivial
    rw [sample_completeAck_dirty htext'] at h
    exact h
  have hlost : AnyStep ⟨[sampleSocket 1 true false 1400 1250 [frame, next] 1 [2]], [read], 2⟩
      ⟨[sampleSocket 1 false false 1400 1250 [frame, next] 2 [2]], [], 2⟩ := by
    have h : AnyStep _ _ := .completeAck ⟨[sampleSocket 1 true false 1400 1250 [frame, next] 1 [2]],
      [read], 2⟩ 0 0 _ 1 1 (some 1) identity 1500 true rfl rfl trivial
    rw [sample_completeAck] at h
    exact h
  have hconnected := ((Relation.ReflTransGen.single hstart).tail hread).tail hconnect
  have hacks := (((hconnected.tail hfirst).tail hsecond).tail hhead).tail hhead'
  have hdirty := ((hacks.tail hnudge).tail hnewer).tail hrefresh
  exact ⟨_, (hdirty.tail hagain).tail hlost, rfl, _, List.mem_singleton_self _, rfl, _, rfl, rfl,
    2, rfl, by decide⟩

/-- A socket that has been connected is sent the head. -/
theorem room_loses_nothing_connected :
    ∃ socket, socket.isOpen = true ∧ ∃ a, socket.attachment = some a ∧ LosesNothing socket a := by
  have hproblem : roomProblem "P-1" = true := by decide +kernel
  obtain ⟨text, htext⟩ := @roomNotice_fits _ 0 1 hproblem rfl rfl (by decide)
  have hstart : Step IsOfFrame .initial ⟨[], [⟨.connect sampleInput, none⟩], 0⟩ :=
    .start _ (.connect sampleInput) (fun _ _ _ h => by cases h)
  have hread : Step IsOfFrame ⟨[], [⟨.connect sampleInput, none⟩], 0⟩
      ⟨[], [⟨.connect sampleInput, some (some 1)⟩], 1⟩ :=
    .read _ 0 _ (some 1) rfl (by rintro seq ⟨⟩; decide)
  have hconnect : Step IsOfFrame _ _ :=
    .connect ⟨[], [⟨.connect sampleInput, some (some 1)⟩], 1⟩ 0 sampleInput 1 1000 true rfl
  rw [sample_connect htext] at hconnect
  have hrun : KeptRun .initial _ := ((Relation.ReflTransGen.single hstart).tail hread).tail hconnect
  exact ⟨_, rfl, room_loses_nothing hrun _ (List.mem_singleton_self _) rfl⟩

end Asimposium.Herald
