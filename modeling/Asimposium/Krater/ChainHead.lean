import Mathlib.Data.List.Nodup
import Asimposium.Lib.ExceptRun
import Asimposium.Lib.HashChain
import Asimposium.Krater.Writers

/-!
# The head of the chain

A committed batch either leaves the chain as it is or appends one event
with its content and its checkpoint and moves the head to it
(`Unchanged`, `Appended`). For the batches guarded by the key this needs
their guard to hold whenever the head moves, for the others that the
precondition does not lapse between the two statements that evaluate it.
-/

namespace Asimposium.Krater

open HashChain ExceptRun

variable {R : Type} {site : Site R}

/-! ## The invariant -/

def Site.link (site : Site R) (prior : String) (row : EventRow) : String :=
  site.eventChainDigest row.seq row.payloadSha256 row.rowDigest prior

/-- The tables of a problem describe one chain, up to its head. -/
structure ChainHead (site : Site R) (ledger : Ledger) : Prop where
  sequences : ledger.events.map (·.seq) = List.range' 1 ledger.head.publicSeq
  digest : ledger.head.chainDigest = tip (·.chainDigest) site.genesisChainDigest ledger.events
  linked : Linked site.link (·.chainDigest) site.genesisChainDigest ledger.events
  distinct : (ledger.events.map (·.eventId)).Nodup
  contents : ledger.contents.map (fun content => (content.eventId, content.payloadSha256))
    = ledger.events.map fun event => (event.eventId, event.payloadSha256)
  checkpoints : ledger.checkpoints = ledger.events.map site.checkpoint
  eventChain : ledger.eventChain = ledger.events.map (·.chainRow)
  checkpointChain : ledger.checkpointChain = ledger.checkpoints

def Ledger.empty (site : Site R) (elsewhere : List (String × Nat)) : Ledger :=
  { head := { publicSeq := 0, chainDigest := site.genesisChainDigest }
    events := [], eventChain := [], contents := [], checkpoints := [], checkpointChain := []
    keys := [], elsewhere }

theorem chainHead_empty (elsewhere : List (String × Nat)) :
    ChainHead site (Ledger.empty site elsewhere) :=
  ⟨rfl, rfl, trivial, List.nodup_nil, rfl, rfl, rfl, rfl⟩

/-! ## What a batch does to the chain -/

structure Unchanged (ledger ledger' : Ledger) : Prop where
  head : ledger'.head = ledger.head
  events : ledger'.events = ledger.events
  eventChain : ledger'.eventChain = ledger.eventChain
  contents : ledger'.contents = ledger.contents
  checkpoints : ledger'.checkpoints = ledger.checkpoints
  checkpointChain : ledger'.checkpointChain = ledger.checkpointChain
  elsewhere : ledger'.elsewhere = ledger.elsewhere

/-- The event has been appended with its content and its checkpoint, and
keys have changed. -/
structure Appended (site : Site R) (row : EventRow) (payloadJson : String)
    (ledger ledger' : Ledger) : Prop where
  seq : row.seq = ledger.head.publicSeq + 1
  link : row.chainDigest = site.link ledger.head.chainDigest row
  fresh : row.eventId ∉ ledger.events.map (·.eventId)
  head : ledger'.head = { publicSeq := row.seq, chainDigest := row.chainDigest }
  events : ledger'.events = ledger.events ++ [row]
  eventChain : ledger'.eventChain = ledger.eventChain ++ [row.chainRow]
  contents : ledger'.contents = ledger.contents
    ++ [{ eventId := row.eventId, payloadSha256 := row.payloadSha256, payloadJson }]
  checkpoints : ledger'.checkpoints = ledger.checkpoints ++ [site.checkpoint row]
  checkpointChain : ledger'.checkpointChain = ledger.checkpointChain ++ [site.checkpoint row]
  elsewhere : ledger'.elsewhere = ledger.elsewhere

@[refl] theorem Unchanged.refl (ledger : Ledger) : Unchanged ledger ledger :=
  ⟨rfl, rfl, rfl, rfl, rfl, rfl, rfl⟩

theorem Unchanged.trans {a b c : Ledger} (h : Unchanged a b) (h' : Unchanged b c) :
    Unchanged a c :=
  ⟨h'.head.trans h.head, h'.events.trans h.events, h'.eventChain.trans h.eventChain,
    h'.contents.trans h.contents, h'.checkpoints.trans h.checkpoints,
    h'.checkpointChain.trans h.checkpointChain, h'.elsewhere.trans h.elsewhere⟩

variable {ledger ledger' : Ledger}

theorem Unchanged.chainHead (h : Unchanged ledger ledger') (hchain : ChainHead site ledger) :
    ChainHead site ledger' := by
  obtain ⟨hhead, hevents, heventChain, hcontents, hcheckpoints, hcheckpointChain, -⟩ := h
  refine ⟨?_, ?_, ?_, ?_, ?_, ?_, ?_, ?_⟩
  · rw [hevents, hhead]; exact hchain.sequences
  · rw [hevents, hhead]; exact hchain.digest
  · rw [hevents]; exact hchain.linked
  · rw [hevents]; exact hchain.distinct
  · rw [hevents, hcontents]; exact hchain.contents
  · rw [hevents, hcheckpoints]; exact hchain.checkpoints
  · rw [hevents, heventChain]; exact hchain.eventChain
  · rw [hcheckpointChain, hcheckpoints]; exact hchain.checkpointChain

variable {row : EventRow}

theorem Appended.chainHead {payloadJson : String}
    (h : Appended site row payloadJson ledger ledger') (hchain : ChainHead site ledger) :
    ChainHead site ledger' := by
  refine ⟨?_, ?_, ?_, ?_, ?_, ?_, ?_, ?_⟩
  · rw [h.events, h.head, List.map_append, hchain.sequences, h.seq, List.range'_concat]
    simp [h.seq, Nat.add_comm]
  · rw [h.events, h.head, tip_snoc]
  · rw [h.events, linked_snoc]
    exact ⟨hchain.linked, hchain.digest ▸ h.link⟩
  · rw [h.events, List.map_append, List.map_singleton, List.nodup_append]
    refine ⟨hchain.distinct, List.nodup_singleton _, ?_⟩
    intro id hid id' hid' heq
    rw [List.mem_singleton] at hid'
    subst hid' heq
    exact h.fresh hid
  · rw [h.events, h.contents, List.map_append, List.map_append, hchain.contents]
    rfl
  · rw [h.events, h.checkpoints, List.map_append, hchain.checkpoints]
    rfl
  · rw [h.events, h.eventChain, List.map_append, hchain.eventChain]
    rfl
  · rw [h.checkpointChain, h.checkpoints, hchain.checkpointChain]

/-! ## Statements -/

variable {db db' : Db R}

theorem onLedger_ok {condition : Db R → Bool} {act : Ledger → Except Abort Ledger} :
    onLedger condition act db = .ok db' ↔
      condition db = true ∧ (∃ ledger, act db.ledger = .ok ledger ∧ { db with ledger } = db')
        ∨ condition db = false ∧ db = db' := by
  unfold onLedger
  cases condition db <;> simp [map_ok]

theorem effect_ok {act : Db R → Except Abort (Tables R)} :
    effect act db = .ok db' ↔ ∃ tables, act db = .ok tables ∧ { db with tables } = db' :=
  map_ok

theorem appendEvent_ok {condition : Db R → Bool} (h : appendEvent site row condition db = .ok db') :
    onLedger condition (·.insertEvent row) db = .ok db' := by
  unfold appendEvent at h
  split at h
  · cases h
  · exact h

theorem unchanged_openKey (ledger : Ledger) (key digest createdAt : String)
    (expiredBefore : Option String) :
    Unchanged ledger (ledger.openKey key digest createdAt expiredBefore) := by
  unfold Ledger.openKey
  dsimp only
  split <;> exact ⟨rfl, rfl, rfl, rfl, rfl, rfl, rfl⟩

theorem unchanged_settleKey (ledger : Ledger) (key : String) (digest : Option String)
    (eventId : String) : Unchanged ledger (ledger.settleKey key digest eventId) := by
  unfold Ledger.settleKey
  split <;> exact ⟨rfl, rfl, rfl, rfl, rfl, rfl, rfl⟩

theorem unchanged_dropKey (ledger : Ledger) (key digest : String) :
    Unchanged ledger (ledger.dropKey key digest) :=
  ⟨rfl, rfl, rfl, rfl, rfl, rfl, rfl⟩

theorem settle_ok {key : String} {digest : Option String} {eventId : String}
    {condition : Db R → Bool} (h : settle site key digest eventId condition db = .ok db') :
    Unchanged db.ledger db'.ledger := by
  unfold settle at h
  split at h
  · cases h
  · rcases onLedger_ok.mp h with ⟨-, ledger, hledger, rfl⟩ | ⟨-, rfl⟩
    · cases hledger
      exact unchanged_settleKey ..
    · exact .refl _

def Ledger.pushEvent (ledger : Ledger) (row : EventRow) : Ledger :=
  { ledger with
    events := ledger.events ++ [row], eventChain := ledger.eventChain ++ [row.chainRow] }

def Ledger.pushContent (ledger : Ledger) (row : ContentRow) : Ledger :=
  { ledger with contents := ledger.contents ++ [row] }

def Ledger.pushCheckpoint (ledger : Ledger) (row : CheckpointRow) : Ledger :=
  { ledger with
    checkpoints := ledger.checkpoints ++ [row], checkpointChain := ledger.checkpointChain ++ [row] }

theorem insertEvent_ok (h : ledger.insertEvent row = .ok ledger') :
    ledger.hasEvent row.eventId = false
      ∧ (∀ event ∈ ledger.events, event.seq ≠ ledger.head.publicSeq)
      ∧ ledger.head.publicSeq ≠ 0
      ∧ ledger.pushEvent { row with seq := ledger.head.publicSeq } = ledger' := by
  unfold Ledger.insertEvent at h
  dsimp only at h
  split_ifs at h with _ hunique
  rw [Bool.or_eq_true, not_or, Bool.not_eq_true, Bool.not_eq_true, List.any_eq_false] at hunique
  unfold Ledger.insertEventChain at h
  split_ifs at h with hprior hzero hold
  refine ⟨hunique.1, ?_, ?_, ?_⟩
  · intro event hevent
    simpa using hunique.2 event hevent
  · simpa [EventRow.chainRow] using hzero
  · exact Except.ok.inj h

theorem insertContent_ok {row : ContentRow} (h : ledger.insertContent row = .ok ledger') :
    (∀ content ∈ ledger.contents, content.eventId ≠ row.eventId)
      ∧ ledger.isElsewhere row.eventId = false
      ∧ ledger.pushContent row = ledger' := by
  unfold Ledger.insertContent at h
  split_ifs at h with hunique hevent
  rw [Bool.or_eq_true, not_or, Bool.not_eq_true, Bool.not_eq_true, List.any_eq_false] at hunique
  refine ⟨?_, hunique.2, Except.ok.inj h⟩
  intro content hcontent
  simpa using hunique.1 content hcontent

theorem insertCheckpoint_ok {row : CheckpointRow} (h : ledger.insertCheckpoint row = .ok ledger') :
    (∀ checkpoint ∈ ledger.checkpoints, checkpoint.checkpointSeq ≠ row.checkpointSeq)
      ∧ ledger.pushCheckpoint row = ledger' := by
  unfold Ledger.insertCheckpoint at h
  split_ifs at h with _ hunique
  rw [Bool.not_eq_true, List.any_eq_false] at hunique
  unfold Ledger.insertCheckpointChain at h
  split_ifs at h
  refine ⟨?_, Except.ok.inj h⟩
  intro checkpoint hcheckpoint
  simpa using hunique checkpoint hcheckpoint

theorem ChainHead.no_insert (hchain : ChainHead site ledger) :
    ledger.insertEvent row ≠ .ok ledger' := by
  intro h
  obtain ⟨-, hfree, hzero, -⟩ := insertEvent_ok h
  have hmem : ledger.head.publicSeq ∈ ledger.events.map (·.seq) := by
    rw [hchain.sequences, List.mem_range'_1]
    omega
  obtain ⟨event, hevent, hseq⟩ := List.mem_map.mp hmem
  exact hfree event hevent hseq

/-- The head has been moved to a new event, nothing else of the chain. -/
structure HeadMoved (row : EventRow) (ledger moved : Ledger) : Prop where
  seq : row.seq = ledger.head.publicSeq + 1
  head : moved.head = { publicSeq := row.seq, chainDigest := row.chainDigest }
  events : moved.events = ledger.events
  eventChain : moved.eventChain = ledger.eventChain
  contents : moved.contents = ledger.contents
  checkpoints : moved.checkpoints = ledger.checkpoints
  checkpointChain : moved.checkpointChain = ledger.checkpointChain
  elsewhere : moved.elsewhere = ledger.elsewhere

theorem Unchanged.advance {opened : Ledger} (h : Unchanged ledger opened)
    (hseq : row.seq = ledger.head.publicSeq + 1) :
    HeadMoved row ledger (opened.advance row.chainDigest) := by
  refine ⟨hseq, ?_, h.events, h.eventChain, h.contents, h.checkpoints, h.checkpointChain,
    h.elsewhere⟩
  rw [Ledger.advance, h.head, hseq]

theorem HeadMoved.insertEvent {moved : Ledger} (h : HeadMoved row ledger moved)
    (hinsert : moved.insertEvent row = .ok ledger') :
    (∀ event ∈ ledger.events, event.eventId ≠ row.eventId) ∧ moved.pushEvent row = ledger' := by
  obtain ⟨hfresh, -, -, hpush⟩ := insertEvent_ok hinsert
  rw [h.head] at hpush
  refine ⟨?_, hpush⟩
  rw [Ledger.hasEvent, Bool.or_eq_false_iff, List.any_eq_false, h.events] at hfresh
  intro event hevent
  simpa using hfresh.1 event hevent

theorem HeadMoved.appended {payloadJson : String} {moved : Ledger}
    (h : HeadMoved row ledger moved)
    (hlink : row.chainDigest = site.link ledger.head.chainDigest row)
    (hfresh : ∀ event ∈ ledger.events, event.eventId ≠ row.eventId)
    (hsettled : Unchanged (((moved.pushEvent row).pushContent
      { eventId := row.eventId, payloadSha256 := row.payloadSha256, payloadJson }).pushCheckpoint
        (site.checkpoint row)) ledger') :
    Appended site row payloadJson ledger ledger' := by
  refine ⟨h.seq, hlink, ?_, hsettled.head.trans h.head, hsettled.events.trans ?_,
    hsettled.eventChain.trans ?_, hsettled.contents.trans ?_, hsettled.checkpoints.trans ?_,
    hsettled.checkpointChain.trans ?_, hsettled.elsewhere.trans h.elsewhere⟩
  · intro hmem
    obtain ⟨event, hevent, hid⟩ := List.mem_map.mp hmem
    exact hfresh event hevent hid
  · exact congrArg (· ++ [row]) h.events
  · exact congrArg (· ++ [row.chainRow]) h.eventChain
  · exact congrArg (· ++ [_]) h.contents
  · exact congrArg (· ++ [site.checkpoint row]) h.checkpoints
  · exact congrArg (· ++ [site.checkpoint row]) h.checkpointChain

theorem commit_cons_ok {statement : Statement R} {batch : List (Statement R)} :
    commit (statement :: batch) db = .ok db' ↔
      ∃ next, statement db = .ok next ∧ commit batch next = .ok db' :=
  run_cons_ok

theorem commit_nil_ok : commit [] db = .ok db' ↔ db = db' := run_nil_ok

/-! ## Batches guarded by the key -/

/-- The head is moved when it is still the one read and the key is free. -/
def Ledger.elects (ledger : Ledger) (before : Head) (key requestDigest createdAt : String)
    (expiredBefore digest : Option String) : Bool :=
  ledger.head = before
    && (ledger.openKey key requestDigest createdAt expiredBefore).ownsKey key digest

def Db.opened (db : Db R) (key requestDigest createdAt : String) (expiredBefore : Option String) :
    Db R :=
  { db with ledger := db.ledger.openKey key requestDigest createdAt expiredBefore }

def Db.elected (db : Db R) (key requestDigest createdAt : String) (expiredBefore : Option String)
    (next : String) : Db R :=
  { db with ledger :=
      (db.ledger.openKey key requestDigest createdAt expiredBefore).advance next }

section Keyed

variable {key requestDigest payloadJson : String} {before : Head} {envelope : EventEnvelope}
  {project afterEvent : Db R → Except Abort (Tables R)} {guard settles : Tables R → Bool}
  {companion : Companion R}

/-- A batch that does not move the head does nothing to the chain: its
event would have to take a sequence that is taken. -/
theorem keyedEffects_idle {row : EventRow} {db db' : Db R} (hchain : ChainHead site db.ledger)
    (hafter : ∀ db tables, afterEvent db = .ok tables → guard tables = guard db.tables)
    (h : commit (keyedEffects site key payloadJson row project guard settles afterEvent companion)
      db = .ok db') : Unchanged db.ledger db'.ledger := by
  obtain ⟨_, hproject, h⟩ := commit_cons_ok.mp h
  obtain ⟨tables, -, rfl⟩ := effect_ok.mp hproject
  obtain ⟨_, hevent, h⟩ := commit_cons_ok.mp h
  rcases onLedger_ok.mp (appendEvent_ok hevent) with ⟨-, ledger, hinsert, -⟩ | ⟨hguard, rfl⟩
  · exact absurd hinsert hchain.no_insert
  obtain ⟨_, hcontent, h⟩ := commit_cons_ok.mp h
  rcases onLedger_ok.mp hcontent with ⟨hyes, -⟩ | ⟨-, rfl⟩
  · exact absurd hyes (by simp [hguard])
  obtain ⟨_, hafterEvent, h⟩ := commit_cons_ok.mp h
  obtain ⟨tables', htables', rfl⟩ := effect_ok.mp hafterEvent
  obtain ⟨_, hcheckpoint, h⟩ := commit_cons_ok.mp h
  have hsame := hafter _ _ htables'
  rcases onLedger_ok.mp hcheckpoint with ⟨hyes, -⟩ | ⟨-, rfl⟩
  · dsimp only at hyes hguard hsame
    rw [hsame, hguard] at hyes
    cases hyes
  obtain ⟨_, hsettle, h⟩ := commit_cons_ok.mp h
  obtain ⟨_, hcompanion, h⟩ := commit_cons_ok.mp h
  obtain ⟨_, -, rfl⟩ := effect_ok.mp hcompanion
  cases commit_nil_ok.mp h
  exact (settle_ok hsettle :)

/-- A batch that moves the head appends its event, when its guard holds
after the projection statement. -/
theorem keyedEffects_elected {row : EventRow} {ledger : Ledger} {db db' : Db R}
    (hmoved : HeadMoved row ledger db.ledger)
    (hlink : row.chainDigest = site.link ledger.head.chainDigest row)
    (howns : db.ledger.ownsKey key none = true)
    (hguard : ∀ tables, project db = .ok tables → guard tables = true)
    (hafter : ∀ db tables, afterEvent db = .ok tables → guard tables = guard db.tables)
    (h : commit (keyedEffects site key payloadJson row project guard settles afterEvent companion)
      db = .ok db') : Appended site row payloadJson ledger db'.ledger := by
  obtain ⟨_, hproject, h⟩ := commit_cons_ok.mp h
  obtain ⟨tables, htables, rfl⟩ := effect_ok.mp hproject
  have hguarded := hguard tables htables
  obtain ⟨_, hevent, h⟩ := commit_cons_ok.mp h
  rcases onLedger_ok.mp (appendEvent_ok hevent) with ⟨-, _, hinsert, rfl⟩ | ⟨hno, -⟩
  swap
  · exact absurd (Bool.and_eq_true_iff.mpr ⟨howns, hguarded⟩) (Bool.eq_false_iff.mp hno)
  obtain ⟨hfresh, rfl⟩ := hmoved.insertEvent hinsert
  obtain ⟨_, hcontent, h⟩ := commit_cons_ok.mp h
  rcases onLedger_ok.mp hcontent with ⟨-, _, hinsert, rfl⟩ | ⟨hno, -⟩
  swap
  · exact absurd (Bool.and_eq_true_iff.mpr ⟨howns, hguarded⟩) (Bool.eq_false_iff.mp hno)
  obtain ⟨-, -, rfl⟩ := insertContent_ok hinsert
  obtain ⟨_, hafterEvent, h⟩ := commit_cons_ok.mp h
  obtain ⟨tables', htables', rfl⟩ := effect_ok.mp hafterEvent
  obtain ⟨_, hcheckpoint, h⟩ := commit_cons_ok.mp h
  have hsame := (hafter _ _ htables').trans hguarded
  rcases onLedger_ok.mp hcheckpoint with ⟨-, _, hinsert, rfl⟩ | ⟨hno, -⟩
  swap
  · exact absurd (Bool.and_eq_true_iff.mpr ⟨howns, hsame⟩) (Bool.eq_false_iff.mp hno)
  obtain ⟨-, rfl⟩ := insertCheckpoint_ok hinsert
  obtain ⟨_, hsettle, h⟩ := commit_cons_ok.mp h
  obtain ⟨_, hcompanion, h⟩ := commit_cons_ok.mp h
  obtain ⟨_, -, rfl⟩ := effect_ok.mp hcompanion
  cases commit_nil_ok.mp h
  refine hmoved.appended hlink hfresh ?_
  have hsettled := settle_ok hsettle
  have hhead : { site.checkpoint row with
      checkpointSeq := db.ledger.head.publicSeq
      rootChainDigest := db.ledger.head.chainDigest } = site.checkpoint row := by
    rw [hmoved.head]
    rfl
  exact hhead ▸ (hsettled :)

theorem keyedBatch_commit {db db' : Db R} (hchain : ChainHead site db.ledger)
    (hguard : db.ledger.elects before key requestDigest envelope.createdAt none none = true →
      ∀ tables, project (db.elected key requestDigest envelope.createdAt none
        (site.candidate before envelope).chainDigest) = .ok tables → guard tables = true)
    (hafter : ∀ db tables, afterEvent db = .ok tables → guard tables = guard db.tables)
    (h : commit (keyedBatch site key requestDigest payloadJson before
      (site.candidate before envelope) project guard settles afterEvent companion) db = .ok db') :
    Unchanged db.ledger db'.ledger
      ∨ Appended site (site.candidate before envelope) payloadJson db.ledger db'.ledger := by
  have hopened := unchanged_openKey db.ledger key requestDigest envelope.createdAt none
  obtain ⟨_, hopen, h⟩ := commit_cons_ok.mp h
  obtain ⟨-, _, hledger, rfl⟩ | ⟨hno, -⟩ := onLedger_ok.mp hopen
  swap
  · cases hno
  cases hledger
  obtain ⟨_, helect, h⟩ := commit_cons_ok.mp h
  obtain ⟨hyes, _, hledger, rfl⟩ | ⟨-, rfl⟩ := onLedger_ok.mp helect
  · cases hledger
    obtain ⟨hhead, howns⟩ := Bool.and_eq_true_iff.mp hyes
    have hbefore : db.ledger.head = before := hopened.head ▸ of_decide_eq_true hhead
    subst hbefore
    have hmoved : HeadMoved (site.candidate db.ledger.head envelope) db.ledger
        (db.elected key requestDigest envelope.createdAt none _).ledger := hopened.advance rfl
    refine .inr (keyedEffects_elected hmoved rfl howns (hguard ?_) hafter h)
    exact Bool.and_eq_true_iff.mpr ⟨decide_eq_true rfl, howns⟩
  · exact .inl (hopened.trans (keyedEffects_idle (hopened.chainHead hchain) hafter h))

end Keyed

/-! ## Batches guarded by the elected head -/

section Elected

variable {key requestDigest payloadJson : String} {expiredBefore : Option String} {before : Head}
  {envelope : EventEnvelope} {precondition : Int → Db R → Bool} {clock : Int × Int} {strict : Bool}
  {projection : Projection R} {companion : Companion R}

variable {row : EventRow} {db db' : Db R}

theorem closing_ok
    (h : commit
      [ settle site key (some requestDigest) row.eventId fun _ => true,
        effect fun db => .ok (companion row.settlement db),
        onLedger (fun _ => true) fun ledger => .ok (ledger.dropKey key requestDigest) ] db
      = .ok db') :
    Unchanged db.ledger db'.ledger := by
  obtain ⟨_, hsettle, h⟩ := commit_cons_ok.mp h
  obtain ⟨_, hcompanion, h⟩ := commit_cons_ok.mp h
  obtain ⟨_, -, rfl⟩ := effect_ok.mp hcompanion
  obtain ⟨_, hdrop, h⟩ := commit_cons_ok.mp h
  cases commit_nil_ok.mp h
  have hsettled : Unchanged db.ledger _ := settle_ok hsettle
  obtain ⟨-, _, hledger, rfl⟩ | ⟨hno, -⟩ := onLedger_ok.mp hdrop
  · cases hledger
    exact hsettled.trans (unchanged_dropKey ..)
  · cases hno

theorem ChainHead.settled {ledger : Ledger} (hchain : ChainHead site ledger) {event : EventRow}
    (hevent : event ∈ ledger.events) :
    (∃ content ∈ ledger.contents, content.eventId = event.eventId)
      ∧ ∃ checkpoint ∈ ledger.checkpoints, checkpoint.checkpointSeq = event.seq := by
  constructor
  · have hmem := List.mem_map_of_mem (f := fun event : EventRow =>
      (event.eventId, event.payloadSha256)) hevent
    rw [← hchain.contents] at hmem
    obtain ⟨content, hcontent, heq⟩ := List.mem_map.mp hmem
    exact ⟨content, hcontent, congrArg Prod.fst heq⟩
  · refine ⟨site.checkpoint event, ?_, rfl⟩
    rw [hchain.checkpoints]
    exact List.mem_map_of_mem hevent

theorem hasEvent_cases {ledger : Ledger} {eventId : String}
    (h : ledger.hasEvent eventId = true) :
    (∃ event ∈ ledger.events, event.eventId = eventId) ∨ ledger.isElsewhere eventId = true := by
  rw [Ledger.hasEvent, Bool.or_eq_true, List.any_eq_true] at h
  refine h.imp_left ?_
  rintro ⟨event, hevent, hid⟩
  exact ⟨event, hevent, by simpa using hid⟩

theorem electedEffects_idle {holds : Db R → Bool} (hchain : ChainHead site db.ledger)
    (h : commit (electedEffects site key requestDigest payloadJson row holds strict projection
      companion) db = .ok db') :
    Unchanged db.ledger db'.ledger := by
  obtain ⟨_, hevent, h⟩ := commit_cons_ok.mp h
  rcases onLedger_ok.mp (appendEvent_ok hevent) with ⟨-, ledger, hinsert, -⟩ | ⟨-, rfl⟩
  · exact absurd hinsert hchain.no_insert
  obtain ⟨_, hcontent, h⟩ := commit_cons_ok.mp h
  rcases onLedger_ok.mp hcontent with ⟨hyes, ledger, hinsert, -⟩ | ⟨-, rfl⟩
  · obtain ⟨hfresh, helsewhere, -⟩ := insertContent_ok hinsert
    rcases hasEvent_cases (Bool.and_eq_true_iff.mp hyes).1 with ⟨event, hmem, hid⟩ | hthere
    · obtain ⟨content, hcontent, heq⟩ := (hchain.settled hmem).1
      exact absurd (heq.trans hid) (hfresh content hcontent)
    · exact absurd hthere (by simp [helsewhere])
  obtain ⟨_, hprojection, h⟩ := commit_cons_ok.mp h
  obtain ⟨tables, -, rfl⟩ := effect_ok.mp hprojection
  obtain ⟨_, hcheckpoint, h⟩ := commit_cons_ok.mp h
  rcases onLedger_ok.mp hcheckpoint with ⟨-, ledger, hinsert, rfl⟩ | ⟨-, rfl⟩
  · unfold checkpointEvent at hinsert
    split at hinsert
    · cases hinsert
      exact (closing_ok h :)
    · rename_i event hfind
      obtain ⟨checkpoint, hcheckpoint, hseq⟩ :=
        (hchain.settled (List.mem_of_find?_eq_some hfind)).2
      exact absurd hseq ((insertCheckpoint_ok hinsert).1 checkpoint hcheckpoint)
  · exact (closing_ok h :)

theorem find?_appended {events : List EventRow} {p : EventRow → Bool}
    (hfresh : ∀ event ∈ events, event.eventId ≠ row.eventId)
    (hp : ∀ event, p event = true → event.eventId = row.eventId) (hrow : p row = true) :
    (events ++ [row]).find? p = some row := by
  have hnone : events.find? p = none := by
    rw [List.find?_eq_none]
    intro event hevent hyes
    exact hfresh event hevent (hp event hyes)
  rw [List.find?_append, hnone, Option.none_or, List.find?_singleton, if_pos hrow]

theorem electedEffects_elected {ledger : Ledger} {holds : Db R → Bool}
    (hmoved : HeadMoved row ledger db.ledger)
    (hlink : row.chainDigest = site.link ledger.head.chainDigest row)
    (howns : db.ledger.ownsKey key (some requestDigest) = true) (hholds : holds db = true)
    (h : commit (electedEffects site key requestDigest payloadJson row holds strict projection
      companion) db = .ok db') :
    Appended site row payloadJson ledger db'.ledger := by
  obtain ⟨_, hevent, h⟩ := commit_cons_ok.mp h
  rcases onLedger_ok.mp (appendEvent_ok hevent) with ⟨-, _, hinsert, rfl⟩ | ⟨hno, -⟩
  swap
  · exact absurd (Bool.and_eq_true_iff.mpr ⟨Bool.and_eq_true_iff.mpr
      ⟨howns, decide_eq_true hmoved.head⟩, hholds⟩) (Bool.eq_false_iff.mp hno)
  obtain ⟨hfresh, rfl⟩ := hmoved.insertEvent hinsert
  have hstrict : (!strict || db.ledger.ownsKey key (some requestDigest)) = true := by
    rw [howns, Bool.or_true]
  have hhere : (db.ledger.pushEvent row).hasEvent row.eventId = true := by
    simp [Ledger.hasEvent, Ledger.pushEvent]
  obtain ⟨_, hcontent, h⟩ := commit_cons_ok.mp h
  rcases onLedger_ok.mp hcontent with ⟨-, _, hinsert, rfl⟩ | ⟨hno, -⟩
  swap
  · exact absurd (Bool.and_eq_true_iff.mpr ⟨hhere, hstrict⟩) (Bool.eq_false_iff.mp hno)
  obtain ⟨-, -, rfl⟩ := insertContent_ok hinsert
  obtain ⟨_, hprojection, h⟩ := commit_cons_ok.mp h
  obtain ⟨tables, -, rfl⟩ := effect_ok.mp hprojection
  obtain ⟨_, hcheckpoint, h⟩ := commit_cons_ok.mp h
  rcases onLedger_ok.mp hcheckpoint with ⟨-, _, hinsert, rfl⟩ | ⟨hno, -⟩
  swap
  · exact absurd hstrict (Bool.eq_false_iff.mp hno)
  have hfind : (db.ledger.events ++ [row]).find? (fun event =>
      event.eventId == row.eventId && (!strict || event.seq == row.seq)) = some row := by
    refine find?_appended (hmoved.events ▸ hfresh) ?_ (by simp)
    intro event hevent
    simpa using (Bool.and_eq_true_iff.mp hevent).1
  unfold checkpointEvent at hinsert
  dsimp only [Ledger.pushContent, Ledger.pushEvent] at hinsert
  rw [hfind] at hinsert
  dsimp only at hinsert
  rw [ite_self] at hinsert
  obtain ⟨-, rfl⟩ := insertCheckpoint_ok hinsert
  exact hmoved.appended hlink hfresh (closing_ok h :)

theorem electedBatch_commit (hchain : ChainHead site db.ledger)
    (hholds : db.ledger.elects before key requestDigest envelope.createdAt expiredBefore
        (some requestDigest) = true →
      precondition clock.1 (db.opened key requestDigest envelope.createdAt expiredBefore) = true →
      precondition clock.2 (db.elected key requestDigest envelope.createdAt expiredBefore
        (site.candidate before envelope).chainDigest) = true)
    (h : commit (electedBatch site key requestDigest payloadJson expiredBefore before
      (site.candidate before envelope) precondition clock strict projection companion) db
      = .ok db') :
    Unchanged db.ledger db'.ledger
      ∨ Appended site (site.candidate before envelope) payloadJson db.ledger db'.ledger := by
  have hopened := unchanged_openKey db.ledger key requestDigest envelope.createdAt expiredBefore
  obtain ⟨_, hopen, h⟩ := commit_cons_ok.mp h
  obtain ⟨-, _, hledger, rfl⟩ | ⟨hno, -⟩ := onLedger_ok.mp hopen
  swap
  · cases hno
  cases hledger
  obtain ⟨_, helect, h⟩ := commit_cons_ok.mp h
  obtain ⟨hyes, _, hledger, rfl⟩ | ⟨-, rfl⟩ := onLedger_ok.mp helect
  · cases hledger
    obtain ⟨hhead, hrest⟩ := Bool.and_eq_true_iff.mp hyes
    obtain ⟨howns, hprecondition⟩ := Bool.and_eq_true_iff.mp hrest
    have hbefore : db.ledger.head = before := hopened.head ▸ of_decide_eq_true hhead
    subst hbefore
    have hmoved : HeadMoved (site.candidate db.ledger.head envelope) db.ledger
        (db.elected key requestDigest envelope.createdAt expiredBefore _).ledger :=
      hopened.advance rfl
    refine .inr (electedEffects_elected hmoved rfl howns (hholds ?_ hprecondition) h)
    exact Bool.and_eq_true_iff.mpr ⟨decide_eq_true rfl, howns⟩
  · exact .inl (hopened.trans (electedEffects_idle (hopened.chainHead hchain) h))

end Elected

end Asimposium.Krater
