import Mathlib.Data.Set.Card
import Asimposium.Krater.ChainRuns

/-!
# What every run keeps

Whatever the batches do and whether or not their guards hold: what is
stored of the chain stays where it is (`chain_append_only`), a settled
key names a stored event (`receipts_stored`), and a call comes to an end
(`calls_end`). Where the guards hold, every head that was ever read lies
on one chain (`heads_on_one_chain`), and none is extended twice
(`head_extended_once`).
-/

namespace Asimposium.Krater

open HashChain ExceptRun

variable {R : Type} {site : Site R} {ledger ledger' : Ledger} {db db' : Db R}

/-! ## Growth -/

/-- Rows are only added, at the end, and the head does not go back. -/
structure Extends (ledger ledger' : Ledger) : Prop where
  head : ledger.head.publicSeq ≤ ledger'.head.publicSeq
  events : ledger.events <+: ledger'.events
  eventChain : ledger.eventChain <+: ledger'.eventChain
  contents : ledger.contents <+: ledger'.contents
  checkpoints : ledger.checkpoints <+: ledger'.checkpoints
  checkpointChain : ledger.checkpointChain <+: ledger'.checkpointChain
  elsewhere : ledger.elsewhere <+: ledger'.elsewhere

@[refl] theorem Extends.refl (ledger : Ledger) : Extends ledger ledger :=
  ⟨le_rfl, List.prefix_rfl, List.prefix_rfl, List.prefix_rfl, List.prefix_rfl, List.prefix_rfl,
    List.prefix_rfl⟩

theorem Extends.trans {a b c : Ledger} (h : Extends a b) (h' : Extends b c) : Extends a c :=
  ⟨h.head.trans h'.head, h.events.trans h'.events, h.eventChain.trans h'.eventChain,
    h.contents.trans h'.contents, h.checkpoints.trans h'.checkpoints,
    h.checkpointChain.trans h'.checkpointChain, h.elsewhere.trans h'.elsewhere⟩

theorem Unchanged.extends (h : Unchanged ledger ledger') : Extends ledger ledger' := by
  obtain ⟨hhead, hevents, heventChain, hcontents, hcheckpoints, hcheckpointChain, helsewhere⟩ := h
  refine ⟨by rw [hhead], ?_, ?_, ?_, ?_, ?_, ?_⟩
  · rw [hevents]
  · rw [heventChain]
  · rw [hcontents]
  · rw [hcheckpoints]
  · rw [hcheckpointChain]
  · rw [helsewhere]

/-- A settled key names an event that is stored, under its sequence. -/
def Receipts (ledger : Ledger) : Prop :=
  ∀ row ∈ ledger.keys, ∀ eventId seq, row.event = some (eventId, seq) →
    (∃ event ∈ ledger.events, event.eventId = eventId ∧ event.seq = seq)
      ∨ (eventId, seq) ∈ ledger.elsewhere

variable {p : String → Prop}

/-- What a statement may do to the ledger that adds only events of these
ids. -/
structure Grows (p : String → Prop) (ledger ledger' : Ledger) : Prop where
  rows : Extends ledger ledger'
  receipts : Receipts ledger → Receipts ledger'
  added : ∀ event ∈ ledger'.events, event ∈ ledger.events ∨ p event.eventId

@[refl] theorem Grows.refl (ledger : Ledger) : Grows p ledger ledger :=
  ⟨.refl _, id, fun _ => .inl⟩

theorem Grows.trans {a b c : Ledger} (h : Grows p a b) (h' : Grows p b c) : Grows p a c :=
  ⟨h.rows.trans h'.rows, h'.receipts ∘ h.receipts,
    fun event hevent => (h'.added event hevent).elim (h.added event) .inr⟩

theorem Extends.grows (h : Extends ledger ledger') (hkeys : ledger'.keys = ledger.keys)
    (hadded : ∀ event ∈ ledger'.events, event ∈ ledger.events ∨ p event.eventId) :
    Grows p ledger ledger' := by
  refine ⟨h, fun hreceipts row hrow eventId seq hevent => ?_, hadded⟩
  rw [hkeys] at hrow
  rcases hreceipts row hrow eventId seq hevent with ⟨event, hmem, hfields⟩ | hthere
  · exact .inl ⟨event, h.events.subset hmem, hfields⟩
  · exact .inr (h.elsewhere.subset hthere)

/-! ## Statements -/

theorem grows_openKey (ledger : Ledger) (key digest createdAt : String)
    (expiredBefore : Option String) :
    Grows p ledger (ledger.openKey key digest createdAt expiredBefore) := by
  have hsame := unchanged_openKey ledger key digest createdAt expiredBefore
  refine ⟨hsame.extends, ?_, fun _ hevent => .inl (hsame.events ▸ hevent)⟩
  unfold Ledger.openKey
  dsimp only
  split
  · intro hreceipts row hrow eventId seq hevent
    obtain ⟨old, hold, rfl⟩ := List.mem_map.mp hrow
    split at hevent
    · cases hevent
    · exact hreceipts old hold eventId seq hevent
  · intro hreceipts row hrow eventId seq hevent
    rcases List.mem_append.mp hrow with hrow | hrow
    · exact hreceipts row hrow eventId seq hevent
    · rw [List.mem_singleton] at hrow
      subst hrow
      cases hevent

theorem seqOf?_stored {eventId : String} {seq : Nat} (h : ledger.seqOf? eventId = some seq) :
    (∃ event ∈ ledger.events, event.eventId = eventId ∧ event.seq = seq)
      ∨ (eventId, seq) ∈ ledger.elsewhere := by
  rw [Ledger.seqOf?, Option.or_eq_some_iff] at h
  rcases h with h | ⟨-, h⟩
  · obtain ⟨event, hfind, rfl⟩ := Option.map_eq_some_iff.mp h
    exact .inl ⟨event, List.mem_of_find?_eq_some hfind,
      beq_iff_eq.mp (List.find?_some (p := fun x : EventRow => x.eventId == eventId) hfind), rfl⟩
  · obtain ⟨⟨id, seq'⟩, hfind, rfl⟩ := Option.map_eq_some_iff.mp h
    have hid : id = eventId :=
      beq_iff_eq.mp (List.find?_some (p := fun x : String × Nat => x.1 == eventId) hfind)
    subst hid
    exact .inr (List.mem_of_find?_eq_some hfind)

theorem grows_settleKey (ledger : Ledger) (key : String) (digest : Option String)
    (eventId : String) : Grows p ledger (ledger.settleKey key digest eventId) := by
  have hsame := unchanged_settleKey ledger key digest eventId
  refine ⟨hsame.extends, ?_, fun _ hevent => .inl (hsame.events ▸ hevent)⟩
  unfold Ledger.settleKey
  split
  · exact id
  · rename_i seq hseq
    intro hreceipts row hrow id seq' hevent
    obtain ⟨old, hold, rfl⟩ := List.mem_map.mp hrow
    split at hevent
    · cases hevent
      exact seqOf?_stored hseq
    · exact hreceipts old hold id seq' hevent

theorem grows_dropKey (ledger : Ledger) (key digest : String) :
    Grows p ledger (ledger.dropKey key digest) :=
  ⟨(unchanged_dropKey ..).extends, fun hreceipts row hrow =>
    hreceipts row (List.mem_filter.mp hrow).1, fun _ => .inl⟩

theorem grows_advance (ledger : Ledger) (next : String) : Grows p ledger (ledger.advance next) :=
  Extends.grows { Extends.refl ledger with head := Nat.le_succ _ } rfl fun _ => .inl

theorem grows_insertEvent {row : EventRow} (hp : p row.eventId)
    (h : ledger.insertEvent row = .ok ledger') : Grows p ledger ledger' := by
  obtain ⟨-, -, -, rfl⟩ := insertEvent_ok h
  refine Extends.grows { Extends.refl ledger with
    events := List.prefix_append .., eventChain := List.prefix_append .. } rfl ?_
  intro event hevent
  refine (List.mem_append.mp hevent).imp_right fun hnew => ?_
  rw [List.mem_singleton.mp hnew]
  exact hp

theorem grows_insertContent {row : ContentRow} (h : ledger.insertContent row = .ok ledger') :
    Grows p ledger ledger' := by
  obtain ⟨-, -, rfl⟩ := insertContent_ok h
  exact Extends.grows { Extends.refl ledger with contents := List.prefix_append .. } rfl
    fun _ => .inl

theorem grows_insertCheckpoint {row : CheckpointRow}
    (h : ledger.insertCheckpoint row = .ok ledger') : Grows p ledger ledger' := by
  obtain ⟨-, rfl⟩ := insertCheckpoint_ok h
  exact Extends.grows { Extends.refl ledger with
    checkpoints := List.prefix_append .., checkpointChain := List.prefix_append .. } rfl
    fun _ => .inl

def Growing (p : String → Prop) (statement : Statement R) : Prop :=
  ∀ db db', statement db = .ok db' → Grows p db.ledger db'.ledger

theorem growing_onLedger {condition : Db R → Bool} {act : Ledger → Except Abort Ledger}
    (hact : ∀ ledger ledger', act ledger = .ok ledger' → Grows p ledger ledger') :
    Growing p (onLedger condition act) := by
  intro db db' h
  rcases onLedger_ok.mp h with ⟨-, ledger, hledger, rfl⟩ | ⟨-, rfl⟩
  · exact hact _ _ hledger
  · exact .refl _

theorem growing_effect {act : Db R → Except Abort (Tables R)} :
    Growing p (effect act) := by
  intro db db' h
  obtain ⟨_, -, rfl⟩ := effect_ok.mp h
  exact .refl _

/-- A change of the ledger that never aborts. -/
theorem growing_update {condition : Db R → Bool} {act : Ledger → Ledger}
    (hact : ∀ ledger, Grows p ledger (act ledger)) :
    Growing p (onLedger condition fun ledger => .ok (act ledger)) :=
  growing_onLedger fun ledger _ h => Except.ok.inj h ▸ hact ledger

theorem growing_appendEvent {row : EventRow} {condition : Db R → Bool} (hp : p row.eventId) :
    Growing p (appendEvent site row condition) :=
  fun _ _ h => growing_onLedger (fun _ _ => grows_insertEvent hp) _ _ (appendEvent_ok h)

theorem growing_settle {key eventId : String} {digest : Option String}
    {condition : Db R → Bool} : Growing p (settle site key digest eventId condition) := by
  intro db db' h
  unfold settle at h
  split at h
  · cases h
  · exact growing_update (fun ledger => grows_settleKey ledger key digest eventId) _ _ h

theorem grows_checkpointEvent {row : EventRow} {strict : Bool}
    (h : checkpointEvent site row strict ledger = .ok ledger') : Grows p ledger ledger' := by
  unfold checkpointEvent at h
  split at h
  · cases h
    exact .refl _
  · exact grows_insertCheckpoint h

/-! ## Batches and runs -/

section Batches

variable {key digest payloadJson : String} {before : Head} {row : EventRow}
  {companion : Companion R}

theorem growing_keyedBatch {project afterEvent : Db R → Except Abort (Tables R)}
    {guard settles : Tables R → Bool} (hp : p row.eventId) :
    ∀ statement ∈ keyedBatch site key digest payloadJson before row project guard settles
      afterEvent companion, Growing p statement := by
  simp only [keyedBatch, keyedEffects, List.forall_mem_cons]
  refine ⟨growing_update fun ledger => grows_openKey .., growing_update fun ledger =>
    grows_advance .., growing_effect, growing_appendEvent hp, growing_onLedger fun _ _ =>
    grows_insertContent, growing_effect, growing_onLedger fun _ _ => grows_insertCheckpoint,
    growing_settle, growing_effect, ?_⟩
  exact fun _ hnil => absurd hnil List.not_mem_nil

/-- What follows the event in a batch guarded by the elected head. -/
theorem growing_electedRest {strict : Bool} {projection : Projection R} :
    ∀ statement ∈ (electedEffects site key digest payloadJson row (fun _ => true) strict projection
      companion).tail, Growing p statement := by
  simp only [electedEffects, List.tail_cons, List.forall_mem_cons]
  refine ⟨growing_onLedger fun _ _ => grows_insertContent, growing_effect,
    growing_onLedger fun _ _ => grows_checkpointEvent, growing_settle, growing_effect,
    growing_update fun ledger => grows_dropKey .., ?_⟩
  exact fun _ hnil => absurd hnil List.not_mem_nil

theorem growing_electedBatch {expiredBefore : Option String} {clock : Int × Int} {strict : Bool}
    {precondition : Int → Db R → Bool} {projection : Projection R} (hp : p row.eventId) :
    ∀ statement ∈ electedBatch site key digest payloadJson expiredBefore before row precondition
      clock strict projection companion, Growing p statement :=
  List.forall_mem_cons.mpr ⟨growing_update fun _ => grows_openKey .., List.forall_mem_cons.mpr
    ⟨growing_update fun _ => grows_advance .., List.forall_mem_cons.mpr
      ⟨growing_appendEvent hp, growing_electedRest⟩⟩⟩

end Batches

theorem growing_batch {writer : Writer R} {before : Head} {clock : Int × Int} :
    ∀ statement ∈ writer.batch site before clock, Growing (fun _ => True) statement := by
  cases writer with
  | claim input => exact growing_keyedBatch trivial
  | revision input => exact growing_electedBatch trivial
  | ledgerEvent input => exact growing_electedBatch trivial
  | gap input =>
      obtain ⟨action, eventId, key, actorFellowId, actor, createdAt, companion⟩ := input
      cases action with
      | filed obligation closesWhat targetClaimId targetVersion => exact growing_keyedBatch trivial
      | settled gapId outcome closedBy => exact growing_keyedBatch trivial
  | relation input => exact growing_keyedBatch trivial
  | dispute input => exact growing_keyedBatch trivial

theorem grows_commit {batch : List (Statement R)} (hbatch : ∀ s ∈ batch, Growing p s)
    (h : commit batch db = .ok db') : Grows p db.ledger db'.ledger :=
  run_invariant (I := fun next => Grows p db.ledger next.ledger)
    (fun _ statement _ hmem hgrows hstep => hgrows.trans (hbatch statement hmem _ _ hstep))
    (.refl _) h

section Runs

variable {allowed : Db R → Writer R → Head → Int × Int → Prop} {system system' : System R}

theorem grows_step (h : Step site allowed system system') :
    Grows (fun _ => True) system.db.ledger system'.db.ledger := by
  cases h with
  | commits i writer retryCount before clock db h hclock hcommit hallowed =>
      exact grows_commit growing_batch hcommit
  | otherProblem eventId seq h =>
      exact Extends.grows { Extends.refl _ with elsewhere := List.prefix_append .. } rfl
        fun _ => .inl
  | _ => exact .refl _

theorem grows_run (h : Relation.ReflTransGen (Step site allowed) system system') :
    Grows (fun _ => True) system.db.ledger system'.db.ledger := by
  induction h with
  | refl => exact .refl _
  | tail _ hstep ih => exact ih.trans (grows_step hstep)

/-- Between any two states of any run, whatever batches committed. -/
theorem chain_append_only (h : Relation.ReflTransGen (Step site allowed) system system') :
    Extends system.db.ledger system'.db.ledger :=
  (grows_run h).rows

theorem chainHead_later (hchain : ChainHead site system.db.ledger)
    (h : GuardedRun site system system') : ChainHead site system'.db.ledger := by
  induction h with
  | refl => exact hchain
  | tail _ hstep ih => exact chainHead_step ih hstep

variable {tables : Tables R} {elsewhere : List (String × Nat)}

/-- A head that was read at some moment is the digest of the chain at its
number at every later moment, and the events after it go on from it. -/
theorem heads_on_one_chain (hread : GuardedRun site (.initial site tables elsewhere) system)
    (hlater : GuardedRun site system system') :
    let head := system.db.ledger.head
    let events := system'.db.ledger.events
    tip (·.chainDigest) site.genesisChainDigest (events.take head.publicSeq) = head.chainDigest
      ∧ Linked site.link (·.chainDigest) head.chainDigest (events.drop head.publicSeq) := by
  have hchain := chainHead_run hread
  have hlength := congrArg List.length hchain.sequences
  rw [List.length_map, List.length_range'] at hlength
  obtain ⟨later, hevents⟩ := (grows_run hlater).rows.events
  have hlinked := (chainHead_later hchain hlater).linked
  dsimp only
  rw [← hevents] at hlinked ⊢
  rw [List.take_left' hlength, List.drop_left' hlength]
  exact ⟨hchain.digest.symm, hchain.digest ▸ (linked_append.mp hlinked).2⟩

/-- A bound on the steps a call has left. -/
def Phase.left : Phase → Nat
  | .ready retryCount => 4 * (maxChainRetries - retryCount) + 4
  | .holding retryCount _ => 4 * (maxChainRetries - retryCount) + 3
  | .aborted retryCount _ _ => 4 * (maxChainRetries - retryCount) + 2
  | .committed retryCount _ => 4 * (maxChainRetries - retryCount) + 2
  | .unsettled retryCount _ => 4 * (maxChainRetries - retryCount) + 1
  | .over => 0

theorem Phase.left_le (phase : Phase) : phase.left ≤ 4 * maxChainRetries + 4 := by
  cases phase <;> simp only [Phase.left] <;> omega

theorem left_afterHead (retryCount : Nat) (before : Head) :
    (afterHead retryCount before).left < (Phase.ready retryCount).left := by
  unfold afterHead
  split <;> simp [Phase.left]

theorem left_afterAbort {retryCount : Nat} {before latest : Head} {reason : Abort} :
    (afterAbort retryCount before latest reason).left
      < (Phase.aborted retryCount before reason).left := by
  unfold afterAbort
  split
  · simp only [Phase.left]
    omega
  · simp [Phase.left]

theorem left_afterUnsettled {retryCount : Nat} {before latest : Head} :
    (afterUnsettled retryCount before latest).left
      < (Phase.unsettled retryCount before).left := by
  unfold afterUnsettled
  split
  · simp only [Phase.left]
    omega
  · simp [Phase.left]

theorem left_afterCommit {writer : Writer R} {retryCount : Nat} {before : Head}
    {ledger : Ledger} : (writer.afterCommit retryCount before ledger).left
      < (Phase.committed retryCount before).left := by
  unfold Writer.afterCommit
  split <;> simp [Phase.left]

/-- The steps a call has left, counting the one that starts it. -/
def System.left (system : System R) (i : Nat) : Nat :=
  (system.calls[i]?.map (·.phase.left)).getD (4 * maxChainRetries + 5)

theorem left_move {j : Nat} {writer : Writer R} {phase phase' : Phase}
    (h : system.calls[j]? = some ⟨writer, phase⟩) (hless : phase'.left < phase.left) (i : Nat) :
    (system.move j writer phase').calls[i]? = system.calls[i]?
      ∨ (system.move j writer phase').left i < system.left i := by
  by_cases hij : j = i
  · subst hij
    have hj := (List.getElem?_eq_some_iff.mp h).1
    right
    simpa [System.left, System.move, h, List.getElem?_set_self hj] using hless
  · exact .inl (List.getElem?_set_ne hij)

theorem left_step (h : Step site allowed system system') (i : Nat) :
    system'.calls[i]? = system.calls[i]? ∨ system'.left i < system.left i := by
  cases h with
  | start writer =>
      rcases Nat.lt_trichotomy i system.calls.length with hlt | rfl | hgt
      · exact .inl (List.getElem?_append_left hlt)
      · right
        simp [System.left, Phase.left]
      · left
        rw [List.getElem?_eq_none hgt.le, List.getElem?_eq_none (by simpa using hgt)]
  | readHead j writer retryCount h => exact left_move h (left_afterHead ..) i
  | commits j writer retryCount before clock db h hclock hcommit hallowed =>
      exact left_move h (by simp [Phase.left]) i
  | aborts j writer retryCount before clock reason h hclock habort =>
      exact left_move h (by simp [Phase.left]) i
  | readLatest j writer retryCount before reason h => exact left_move h left_afterAbort i
  | readKey j writer retryCount before h => exact left_move h left_afterCommit i
  | readAgain j writer retryCount before h => exact left_move h left_afterUnsettled i
  | otherTables tables => exact .inl rfl
  | otherProblem eventId seq h => exact .inl rfl

/-- A number that never rises falls at most as often as it says. -/
theorem encard_falls_le {rank : Nat → Nat} (h : Antitone rank) :
    {n | rank (n + 1) < rank n}.encard ≤ rank 0 := by
  rw [← Set.Nat.encard_range]
  refine Set.encard_le_encard_of_injOn (f := fun n => rank (n + 1)) ?_ ?_
  · exact fun n hfall => hfall.trans_le (h (Nat.zero_le n))
  · intro m hm n hn heq
    have hm : rank (m + 1) < rank m := hm
    have hn : rank (n + 1) < rank n := hn
    have heq : rank (m + 1) = rank (n + 1) := heq
    rcases Nat.lt_trichotomy m n with hlt | rfl | hgt
    · have hle : rank n ≤ rank (m + 1) := h (Nat.succ_le_of_lt hlt)
      omega
    · rfl
    · have hle : rank m ≤ rank (n + 1) := h (Nat.succ_le_of_lt hgt)
      omega

/-- A call moves at most 69 times, its start included, whatever the other
calls do in between. -/
theorem calls_end (trace : Nat → System R)
    (hsteps : ∀ n, Step site allowed (trace n) (trace (n + 1))) (i : Nat) :
    {n | (trace (n + 1)).calls[i]? ≠ (trace n).calls[i]?}.encard ≤ 69 := by
  have hanti : Antitone fun n => (trace n).left i := by
    refine antitone_nat_of_succ_le fun n => ?_
    rcases left_step (hsteps n) i with hsame | hless
    · rw [System.left, hsame, System.left]
    · exact hless.le
  have hmoves : {n | (trace (n + 1)).calls[i]? ≠ (trace n).calls[i]?}
      ⊆ {n | (trace (n + 1)).left i < (trace n).left i} :=
    fun n hmoved => (left_step (hsteps n) i).resolve_left hmoved
  refine (Set.encard_le_encard hmoves).trans ((encard_falls_le hanti).trans ?_)
  have hfirst : (trace 0).left i ≤ 69 := by
    unfold System.left
    cases (trace 0).calls[i]? with
    | none => exact le_rfl
    | some call => exact call.phase.left_le.trans (by decide)
  exact_mod_cast hfirst

end Runs

/-! ## A gap filed, and a late settlement -/

theorem filed_run :
    ∃ system : System Unit, GuardedRun sampleSite sampleStart system
      ∧ system.db.ledger.head.publicSeq = 1 := by
  obtain ⟨ledger, hrun, happended, _⟩ := sampleFiled_commits
  obtain ⟨system, hsteps, hdb⟩ := @call_runs _ sampleSite
    (fun db writer before clock => writer.KeepsGuard sampleSite db before clock) sampleStart
    (.gap sampleFiled) _ (by decide) hrun trivial
  refine ⟨system, hsteps, ?_⟩
  rw [hdb]
  exact congrArg Head.publicSeq happended.head

theorem chain_append_only_filed :
    ∃ system : System Unit, system.db.ledger.head.publicSeq = 1
      ∧ Extends sampleStart.db.ledger system.db.ledger := by
  obtain ⟨system, hrun, hseq⟩ := filed_run
  exact ⟨system, hseq, chain_append_only hrun⟩

theorem heads_on_one_chain_filed :
    ∃ system : System Unit, system.db.ledger.head.publicSeq = 1
      ∧ tip (·.chainDigest) sampleSite.genesisChainDigest (system.db.ledger.events.take 1)
        = system.db.ledger.head.chainDigest := by
  obtain ⟨system, hrun, hseq⟩ := filed_run
  exact ⟨system, hseq, hseq ▸ (heads_on_one_chain hrun .refl).1⟩

/-- A call that is started and never stepped again. -/
def sampleTrace : Nat → System Unit
  | 0 => sampleStart
  | _ + 1 => { sampleStart with calls := [⟨.gap sampleFiled, .ready 0⟩] }

theorem calls_end_started :
    sampleTrace 1 ≠ sampleTrace 0
      ∧ {n | (sampleTrace (n + 1)).calls[0]? ≠ (sampleTrace n).calls[0]?}.encard ≤ 69 := by
  have hsteps : ∀ n, Step sampleSite (fun _ _ _ _ => True) (sampleTrace n)
      (sampleTrace (n + 1)) := by
    intro n
    cases n with
    | zero => exact .start sampleStart (.gap sampleFiled)
    | succ n => exact .otherTables (sampleTrace 1) sampleStart.db.tables
  refine ⟨fun heq => ?_, calls_end sampleTrace hsteps 0⟩
  exact absurd (congrArg (·.calls.length) heq) (by decide)

end Asimposium.Krater
