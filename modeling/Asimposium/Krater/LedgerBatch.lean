import Asimposium.Krater.ChainGrowth

/-!
# Batches of events

`writeLedgerBatch` commits up to sixteen events in one transaction. Each
member has the statements of `writeLedgerEvent`, on the head the member
before leaves, and a last statement aborts unless every member has its
event. Where a single event can lose its precondition between two of its
statements and leave a head without an event, a batch that does is rolled
back as a whole.
-/

namespace Asimposium.Krater

open HashChain ExceptRun

variable {R : Type} {site : Site R} {db db' : Db R}

/-! ## Members -/

/-- A member of a batch as it is resolved for the attempt, with the instants
at which its statements evaluate its precondition. -/
structure BatchWrite (R : Type) where
  input : KraterLedgerEventInput R
  clock : Int × Int

variable {before : Head}

def BatchWrite.row (site : Site R) (before : Head) (write : BatchWrite R) : EventRow :=
  ledgerEventRow site write.input before

/-- The head a member leaves to the next. -/
def BatchWrite.nextHead (site : Site R) (before : Head) (write : BatchWrite R) : Head :=
  { publicSeq := before.publicSeq + 1, chainDigest := (write.row site before).chainDigest }

/-- The events of a batch, each on the head the one before leaves. -/
def batchRows (site : Site R) : Head → List (BatchWrite R) → List EventRow
  | _, [] => []
  | before, write :: rest =>
      write.row site before :: batchRows site (write.nextHead site before) rest

def batchStatements (site : Site R) : Head → List (BatchWrite R) → List (Statement R)
  | _, [] => []
  | before, write :: rest =>
      ledgerEventBatch site { write.input with expiredBefore := none } before write.clock
        ++ batchStatements site (write.nextHead site before) rest

/-- `EXISTS (SELECT 1 FROM events WHERE …)`, of a member. -/
def Ledger.stores (ledger : Ledger) (row : EventRow) : Bool :=
  ledger.events.any fun event => event.eventId == row.eventId && event.seq == row.seq
    && event.payloadSha256 == row.payloadSha256

/-- The last statement inserts a row that violates `NOT NULL` unless every
member has its event. -/
def assertRows (rows : List EventRow) : Statement R := fun db =>
  if rows.all db.ledger.stores then .ok db
  else .error (.refused "NOT NULL constraint failed: idempotency.request_digest")

/-- The transaction of `writeLedgerBatch`. -/
def ledgerBatch (site : Site R) (before : Head) (members : List (BatchWrite R))
    (afterAllEvents : Db R → Except Abort (Tables R)) : List (Statement R) :=
  batchStatements site before members
    ++ [assertRows (batchRows site before members), effect afterAllEvents]

/-! ## What a batch appends -/

theorem commit_append_ok {first second : List (Statement R)} :
    commit (first ++ second) db = .ok db'
      ↔ ∃ next, commit first db = .ok next ∧ commit second next = .ok db' :=
  run_append_ok

/-- A committed event of a member was not there before. -/
theorem electedEffects_fresh {key digest payloadJson : String} {row : EventRow}
    {holds : Db R → Bool} {projection : Projection R} {companion : Companion R}
    (hcontents : ∀ event ∈ db.ledger.events, ∃ content ∈ db.ledger.contents,
      content.eventId = event.eventId)
    (h : commit (electedEffects site key digest payloadJson row holds false projection companion)
      db = .ok db') : ∀ event ∈ db.ledger.events, event.eventId ≠ row.eventId := by
  intro event hevent hid
  have hhas : db.ledger.hasEvent row.eventId = true :=
    Bool.or_eq_true_iff.mpr (.inl (List.any_eq_true.mpr ⟨event, hevent, beq_iff_eq.mpr hid⟩))
  obtain ⟨_, happend, h⟩ := commit_cons_ok.mp h
  rcases onLedger_ok.mp (appendEvent_ok happend) with ⟨-, _, hinsert, -⟩ | ⟨-, rfl⟩
  · exact absurd (insertEvent_ok hinsert).1 (by simp [hhas])
  obtain ⟨_, hcontent, -⟩ := commit_cons_ok.mp h
  rcases onLedger_ok.mp hcontent with ⟨-, _, hinsert, -⟩ | ⟨hno, -⟩
  · obtain ⟨content, hmem, heq⟩ := hcontents event hevent
    exact (insertContent_ok hinsert).1 content hmem (heq.trans hid)
  · exact absurd hno (by simp [hhas])

/-- The statements of a member whose event is stored in the end have appended
it, to the head the member was prepared for. -/
theorem member_appended {write : BatchWrite R} (hchain : ChainHead site db.ledger)
    (h : commit (ledgerEventBatch site { write.input with expiredBefore := none } before
      write.clock) db = .ok db')
    (hstored : ∃ event ∈ db'.ledger.events, event.eventId = write.input.eventId) :
    db.ledger.head = before
      ∧ Appended site (write.row site before) write.input.payloadJson db.ledger db'.ledger := by
  obtain ⟨input, clock⟩ := write
  obtain ⟨stored, hstored, hid⟩ := hstored
  have hopened := unchanged_openKey db.ledger input.idempotencyKey input.requestDigest
    input.createdAt none
  have hopened' := hopened.chainHead hchain
  obtain ⟨_, hopen, h⟩ := commit_cons_ok.mp h
  obtain ⟨-, _, hledger, rfl⟩ | ⟨hno, -⟩ := onLedger_ok.mp hopen
  swap
  · cases hno
  cases hledger
  obtain ⟨_, helect, h⟩ := commit_cons_ok.mp h
  obtain ⟨hyes, _, hledger, rfl⟩ | ⟨-, rfl⟩ := onLedger_ok.mp helect
  · cases hledger
    obtain ⟨hhead, hrest⟩ := Bool.and_eq_true_iff.mp hyes
    have hbefore : db.ledger.head = before := hopened.head ▸ of_decide_eq_true hhead
    subst hbefore
    have hmoved : HeadMoved (ledgerEventRow site input db.ledger.head) db.ledger
        (db.elected input.idempotencyKey input.requestDigest input.createdAt none _).ledger :=
      hopened.advance rfl
    by_cases hholds : input.precondition clock.2 (db.elected input.idempotencyKey
        input.requestDigest input.createdAt none
        (ledgerEventRow site input db.ledger.head).chainDigest) = true
    · exact ⟨rfl, electedEffects_elected hmoved rfl (Bool.and_eq_true_iff.mp hrest).1 hholds h⟩
    · -- the head has moved without an event, and no later statement adds it
      have hfresh := electedEffects_fresh (fun _ hevent => (hopened'.settled hevent).1) h
      obtain ⟨_, happend, h⟩ := commit_cons_ok.mp h
      rcases onLedger_ok.mp (appendEvent_ok happend) with ⟨hyes, -⟩ | ⟨-, rfl⟩
      · exact absurd (Bool.and_eq_true_iff.mp hyes).2 hholds
      · have hgrows : Grows (fun _ => False) _ db'.ledger := grows_commit growing_electedRest h
        exact absurd hid (hfresh stored ((hgrows.added stored hstored).resolve_right id))
  · have hfresh := electedEffects_fresh (fun _ hevent => (hopened'.settled hevent).1) h
    have hidle := electedEffects_idle hopened' h
    exact absurd hid (hfresh stored (hidle.events ▸ hstored))

theorem growing_batchStatements {members : List (BatchWrite R)} :
    ∀ statement ∈ batchStatements site before members,
      Growing (· ∈ members.map (·.input.eventId)) statement := by
  induction members generalizing before with
  | nil => exact fun _ h => absurd h List.not_mem_nil
  | cons write rest ih =>
      refine List.forall_mem_append.mpr ⟨growing_electedBatch (List.mem_cons_self ..), ?_⟩
      intro statement hmem db db' h
      have hgrows := ih statement hmem db db' h
      exact { hgrows with added := fun event hevent =>
        (hgrows.added event hevent).imp_right (List.mem_cons_of_mem _) }

/-- By induction on the members; each finds its event stored in the end, and
no later member can have stored it. -/
theorem batchStatements_appended {members : List (BatchWrite R)}
    (hchain : ChainHead site db.ledger) (hdistinct : (members.map (·.input.eventId)).Nodup)
    (h : commit (batchStatements site before members) db = .ok db')
    (hstored : (batchRows site before members).all db'.ledger.stores = true) :
    ChainHead site db'.ledger
      ∧ db'.ledger.events = db.ledger.events ++ batchRows site before members
      ∧ (members ≠ [] → db.ledger.head = before) := by
  induction members generalizing before db with
  | nil =>
      cases commit_nil_ok.mp h
      exact ⟨hchain, (List.append_nil _).symm, fun hsome => absurd rfl hsome⟩
  | cons write rest ih =>
      obtain ⟨next, hfirst, hrest⟩ := commit_append_ok.mp h
      obtain ⟨hnew, hdistinct⟩ := List.nodup_cons.mp hdistinct
      rw [batchRows, List.all_cons, Bool.and_eq_true] at hstored
      obtain ⟨event, hevent, hfields⟩ := List.any_eq_true.mp hstored.1
      have hid : event.eventId = write.input.eventId :=
        beq_iff_eq.mp (Bool.and_eq_true_iff.mp (Bool.and_eq_true_iff.mp hfields).1).1
      have hthere : event ∈ next.ledger.events := by
        refine ((grows_commit growing_batchStatements hrest).added event hevent).resolve_right ?_
        rw [hid]
        exact hnew
      obtain ⟨hhead, happended⟩ := member_appended hchain hfirst ⟨event, hthere, hid⟩
      obtain ⟨hlast, hevents, -⟩ := ih (happended.chainHead hchain) hdistinct hrest hstored.2
      refine ⟨hlast, hevents.trans ?_, fun _ => hhead⟩
      rw [happended.events, batchRows, List.append_assoc, List.singleton_append]

/-- A batch that commits has appended the events of all its members, in
order, to the head it was prepared for, whatever became of their
preconditions in between. -/
theorem ledgerBatch_all {members : List (BatchWrite R)}
    {afterAllEvents : Db R → Except Abort (Tables R)} (hchain : ChainHead site db.ledger)
    (hdistinct : (members.map (·.input.eventId)).Nodup)
    (h : commit (ledgerBatch site before members afterAllEvents) db = .ok db') :
    ChainHead site db'.ledger
      ∧ db'.ledger.events = db.ledger.events ++ batchRows site before members
      ∧ (members ≠ [] → db.ledger.head = before) := by
  obtain ⟨next, hmembers, h⟩ := commit_append_ok.mp h
  obtain ⟨_, hassert, h⟩ := commit_cons_ok.mp h
  obtain ⟨_, hafter, h⟩ := commit_cons_ok.mp h
  cases commit_nil_ok.mp h
  obtain ⟨_, -, rfl⟩ := effect_ok.mp hafter
  unfold assertRows at hassert
  split at hassert
  · rename_i hstored
    cases hassert
    have happended := batchStatements_appended hchain hdistinct hmembers hstored
    exact happended
  · cases hassert

/-! ## Two reviews -/

/-- A site whose digests are all one text. -/
def flatSite : Site Unit := { sampleSite with sha256Hex := fun _ => "0" }

def sampleWrite (name : String) : BatchWrite Unit :=
  { clock := (0, 0)
    input :=
      { eventId := "E-" ++ name, idempotencyKey := "K-" ++ name, requestDigest := "R"
        eventType := "review.created", objectKind := "review", objectId := "R-" ++ name
        objectVersion := 1, payloadJson := "\x7b\x7d", createdAt := "1"
        actor := (sampleGap name (.settled "G-1" .withdrawn none)).actor, expiredBefore := none
        precondition := fun _ _ => true, projection := fun _ db => .ok db.tables
        companion := fun _ db => db.tables } }

def sampleMembers : List (BatchWrite Unit) := [sampleWrite "1", sampleWrite "2"]

def flatStart : Db Unit := { ledger := .empty flatSite [], tables := sampleOpen }

theorem sampleMembers_commit :
    (commit (ledgerBatch flatSite flatStart.ledger.head sampleMembers fun db => .ok db.tables)
      flatStart).isOk = true := by
  decide +kernel

theorem ledgerBatch_all_sample :
    ∃ db' : Db Unit, ChainHead flatSite db'.ledger ∧ db'.ledger.events.length = 2 := by
  cases h : commit (ledgerBatch flatSite flatStart.ledger.head sampleMembers
      fun db => .ok db.tables) flatStart with
  | error reason =>
      have hcommits := sampleMembers_commit
      rw [h] at hcommits
      cases hcommits
  | ok db' =>
      obtain ⟨hchain, hevents, -⟩ := ledgerBatch_all (chainHead_empty []) (by decide) h
      exact ⟨db', hchain, congrArg List.length hevents⟩

end Asimposium.Krater