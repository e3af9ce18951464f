import Mathlib.Logic.Relation
import Asimposium.Krater.Commits

/-!
# Runs of the writers

Calls of the six writers on one problem, interleaved: every read and
every batch is a step of its own, and between the steps of one call the
others may do anything. A call goes through the phases of its loop;
nothing else it does depends on the database.

Over runs the tables describe one chain (`chain_explained`) as long as no
batch that moves the head finds its guard broken: a gap that has been
settled in the meantime, an edge that has been disputed, a precondition
that lapses between two statements. Then the head moves without an event
(`settled_twice`).
-/

namespace Asimposium.Krater

open HashChain

variable {R : Type} {site : Site R}

/-! ## When the guards hold -/

def isGapSettleable (gapId : String) (outcome : GapOutcome) (createdAt : String)
    (tables : Tables R) : Bool :=
  tables.gaps.any fun gap => gap.gapId = gapId
    && (gap.status = .opened || gap.status = outcome.status && gap.closedAt = some createdAt)

/-- The edge is asserted, or already disputed by this event. -/
def isDisputable (edge : Edge) (eventId : String) (tables : Tables R) : Bool :=
  tables.relations.any fun relation => relation.toEdge = edge
    && (relation.status = .asserted
      || relation.status = .disputed && relation.disputedByEvent = some eventId)

theorem isGapSettled_settleGap {gapId createdAt : String} {outcome : GapOutcome}
    {closedBy : Option String} {tables : Tables R} :
    isGapSettled gapId outcome createdAt (settleGap gapId outcome closedBy createdAt tables)
      = isGapSettleable gapId outcome createdAt tables := by
  unfold isGapSettled isGapSettleable settleGap
  dsimp only
  rw [List.any_map]
  refine congrArg (List.any tables.gaps) (funext fun gap => ?_)
  by_cases hid : gap.gapId = gapId
  · by_cases hopen : gap.status = .opened
    · simp [hid, hopen]
    · simp [hid, hopen]
  · simp [hid]

theorem isDisputedBy_disputeRelation {input : KraterRelationDisputeInput R} {db : Db R}
    (howns : db.ledger.ownsKey input.idempotencyKey none = true) :
    isDisputedBy input.edge input.eventId (disputeRelation input db)
      = isDisputable input.edge input.eventId db.tables := by
  unfold isDisputedBy isDisputable disputeRelation
  dsimp only
  rw [List.any_map]
  refine congrArg (List.any db.tables.relations) (funext fun relation => ?_)
  by_cases hedge : relation.toEdge = input.edge
  · by_cases hasserted : relation.status = .asserted
    · simp [hedge, hasserted, howns]
    · simp [hedge, hasserted]
  · simp [hedge]

/-- If the batch moves the head, the guard of its event holds: for a
settlement and a dispute in the state before, for the writers with a
precondition at the second instant in the state with the new head. -/
def Writer.KeepsGuard (site : Site R) (db : Db R) (before : Head) (clock : Int × Int) :
    Writer R → Prop
  | .claim _ | .relation _ => True
  | .gap input =>
      match input.action with
      | .filed .. => True
      | .settled gapId outcome _ =>
          db.ledger.elects before input.idempotencyKey (gapRow site input before).payloadSha256
              input.createdAt none none = true →
            isGapSettleable gapId outcome input.createdAt db.tables = true
  | .dispute input =>
      db.ledger.elects before input.idempotencyKey (disputeRow site input before).payloadSha256
          input.createdAt none none = true →
        isDisputable input.edge input.eventId db.tables = true
  | .revision input =>
      let digest := revisionRequestDigest site input
      db.ledger.elects before input.idempotencyKey digest input.createdAt none (some digest)
          = true →
        input.precondition clock.1 (db.opened input.idempotencyKey digest input.createdAt none)
          = true →
        input.precondition clock.2 (db.elected input.idempotencyKey digest input.createdAt none
          (revisionRow site input before).chainDigest) = true
  | .ledgerEvent input =>
      db.ledger.elects before input.idempotencyKey input.requestDigest input.createdAt
          input.expiredBefore (some input.requestDigest) = true →
        input.precondition clock.1 (db.opened input.idempotencyKey input.requestDigest
          input.createdAt input.expiredBefore) = true →
        input.precondition clock.2 (db.elected input.idempotencyKey input.requestDigest
          input.createdAt input.expiredBefore (ledgerEventRow site input before).chainDigest)
          = true

theorem Writer.batch_commit {writer : Writer R} {db db' : Db R} {before : Head}
    {clock : Int × Int} (hchain : ChainHead site db.ledger)
    (hkeeps : writer.KeepsGuard site db before clock)
    (h : commit (writer.batch site before clock) db = .ok db') :
    Unchanged db.ledger db'.ledger
      ∨ ∃ row payloadJson, Appended site row payloadJson db.ledger db'.ledger := by
  cases writer with
  | claim input =>
      refine (keyedBatch_commit hchain ?_ ?_ h).imp_right fun happended => ⟨_, _, happended⟩
      · intro _ _ _
        rfl
      · intro _ _ _
        rfl
  | relation input =>
      refine (keyedBatch_commit hchain ?_ ?_ h).imp_right fun happended => ⟨_, _, happended⟩
      · intro _ _ _
        rfl
      · intro _ _ _
        rfl
  | gap input =>
      obtain ⟨action, eventId, key, actorFellowId, actor, createdAt, companion⟩ := input
      cases action with
      | filed obligation closesWhat targetClaimId targetVersion =>
          refine (keyedBatch_commit hchain ?_ ?_ h).imp_right fun happended => ⟨_, _, happended⟩
          · intro _ _ _
            rfl
          · intro _ _ _
            rfl
      | settled gapId outcome closedBy =>
          refine (keyedBatch_commit hchain ?_ ?_ h).imp_right fun happended => ⟨_, _, happended⟩
          · intro helects tables htables
            cases htables
            rw [isGapSettled_settleGap]
            exact hkeeps helects
          · intro _ tables htables
            cases htables
            rfl
  | dispute input =>
      refine (keyedBatch_commit hchain ?_ ?_ h).imp_right fun happended => ⟨_, _, happended⟩
      · intro helects tables htables
        cases htables
        rw [isDisputedBy_disputeRelation]
        · exact hkeeps helects
        · exact (Bool.and_eq_true_iff.mp helects).2
      · intro _ tables htables
        cases htables
        rfl
  | revision input =>
      refine (electedBatch_commit hchain ?_ h).imp_right fun happended => ⟨_, _, happended⟩
      exact hkeeps
  | ledgerEvent input =>
      refine (electedBatch_commit hchain ?_ h).imp_right fun happended => ⟨_, _, happended⟩
      exact hkeeps

/-! ## Gaps without interference -/

section Gaps

variable {input : KraterGapInput R} {db : Db R}
  (hevent : ∀ db row, site.admitsEvent db row = true)
  (hsettle : ∀ db id, site.admitsSettlement db id = true)
  (hcompanion : ∀ settlement db, input.companion settlement db = db.tables)
  (hnew : input.idempotencyKey ∉ db.ledger.keyNames)
include hevent hsettle hcompanion hnew

theorem gapBatch_files {obligation closesWhat targetClaimId : String} {targetVersion : Nat}
    (haction : input.action = .filed obligation closesWhat targetClaimId targetVersion)
    (hchain : ChainHead site db.ledger) (hfresh : db.ledger.hasEvent input.eventId = false)
    (hclaim : site.isClaim db.tables targetClaimId = true)
    (hgap : ∀ gap ∈ db.tables.gaps, gap.gapId ≠ (gapRow site input db.ledger.head).objectId) :
    let row := gapRow site input db.ledger.head
    let gap := openGap input row.objectId obligation closesWhat targetClaimId targetVersion
    ∃ ledger, commit (gapBatch site input db.ledger.head) db
          = .ok { ledger, tables := { db.tables with gaps := db.tables.gaps ++ [gap] } }
      ∧ Appended site row (canonicalGapPayload input.action) db.ledger ledger
      ∧ ∀ name ∈ ledger.keyNames, name = input.idempotencyKey ∨ name ∈ db.ledger.keyNames := by
  obtain ⟨action, eventId, key, actorFellowId, actor, createdAt, companion⟩ := input
  cases haction
  refine keyedBatch_appends (fun _ => rfl) hevent hsettle hcompanion hchain hnew hfresh ?_ rfl
  have howns := ownsKey_openKey hnew (site.sha256Hex (canonicalGapPayload
    (.filed obligation closesWhat targetClaimId targetVersion))) createdAt none
  unfold fileGap
  refine (if_neg ?_).trans (if_neg ?_)
  · rw [Bool.not_eq_true', Bool.not_eq_false]
    exact Bool.and_eq_true_iff.mpr ⟨howns, hclaim⟩
  · rw [Bool.not_eq_true, List.any_eq_false]
    intro old hold
    simpa [openGap] using hgap old hold

theorem gapBatch_settles {gapId : String} {outcome : GapOutcome} {closedBy : Option String}
    (haction : input.action = .settled gapId outcome closedBy)
    (hchain : ChainHead site db.ledger) (hfresh : db.ledger.hasEvent input.eventId = false)
    (hopen : isGapSettleable gapId outcome input.createdAt db.tables = true) :
    ∃ ledger, commit (gapBatch site input db.ledger.head) db
          = .ok { ledger, tables := settleGap gapId outcome closedBy input.createdAt db.tables }
      ∧ Appended site (gapRow site input db.ledger.head) (canonicalGapPayload input.action)
        db.ledger ledger
      ∧ ∀ name ∈ ledger.keyNames, name = input.idempotencyKey ∨ name ∈ db.ledger.keyNames := by
  obtain ⟨action, eventId, key, actorFellowId, actor, createdAt, companion⟩ := input
  cases haction
  exact keyedBatch_appends (fun _ => rfl) hevent hsettle hcompanion hchain hnew hfresh rfl
    (isGapSettled_settleGap.trans hopen)

theorem gapBatch_unguarded {gapId : String} {outcome : GapOutcome} {closedBy : Option String}
    (haction : input.action = .settled gapId outcome closedBy)
    (hclosed : isGapSettleable gapId outcome input.createdAt db.tables = false) :
    ∃ ledger, commit (gapBatch site input db.ledger.head) db
          = .ok { ledger, tables := settleGap gapId outcome closedBy input.createdAt db.tables }
      ∧ ledger.head.publicSeq = db.ledger.head.publicSeq + 1
      ∧ ledger.events = db.ledger.events := by
  obtain ⟨action, eventId, key, actorFellowId, actor, createdAt, companion⟩ := input
  cases haction
  exact keyedBatch_unguarded (fun _ => rfl) hevent hsettle hcompanion hnew rfl
    (isGapSettled_settleGap.trans hclosed)

end Gaps

/-! ## The system -/

structure Call (R : Type) where
  writer : Writer R
  phase : Phase

structure System (R : Type) where
  db : Db R
  calls : List (Call R)

def System.initial (site : Site R) (tables : Tables R) (elsewhere : List (String × Nat)) :
    System R :=
  { db := { ledger := .empty site elsewhere, tables }, calls := [] }

def System.move (system : System R) (i : Nat) (writer : Writer R) (phase : Phase) : System R :=
  { system with calls := system.calls.set i { writer, phase } }

/-- One step of one call, or of something else. A call that is never
stepped again has crashed. `allowed` restricts the batches that commit. -/
inductive Step (site : Site R) (allowed : Db R → Writer R → Head → Int × Int → Prop) :
    System R → System R → Prop where
  | start (system : System R) (writer : Writer R) :
      Step site allowed system { system with calls := system.calls ++ [⟨writer, .ready 0⟩] }
  | readHead (system : System R) (i : Nat) (writer : Writer R) (retryCount : Nat)
      (h : system.calls[i]? = some ⟨writer, .ready retryCount⟩) :
      Step site allowed system
        (system.move i writer (afterHead retryCount system.db.ledger.head))
  | commits (system : System R) (i : Nat) (writer : Writer R) (retryCount : Nat) (before : Head)
      (clock : Int × Int) (db : Db R)
      (h : system.calls[i]? = some ⟨writer, .holding retryCount before⟩)
      (hclock : clock.1 ≤ clock.2)
      (hcommit : commit (writer.batch site before clock) system.db = .ok db)
      (hallowed : allowed system.db writer before clock) :
      Step site allowed system
        { (system.move i writer (.committed retryCount before)) with db }
  | aborts (system : System R) (i : Nat) (writer : Writer R) (retryCount : Nat) (before : Head)
      (clock : Int × Int) (reason : Abort)
      (h : system.calls[i]? = some ⟨writer, .holding retryCount before⟩)
      (hclock : clock.1 ≤ clock.2)
      (habort : commit (writer.batch site before clock) system.db = .error reason) :
      Step site allowed system (system.move i writer (.aborted retryCount before reason))
  | readLatest (system : System R) (i : Nat) (writer : Writer R) (retryCount : Nat)
      (before : Head) (reason : Abort)
      (h : system.calls[i]? = some ⟨writer, .aborted retryCount before reason⟩) :
      Step site allowed system
        (system.move i writer (afterAbort retryCount before system.db.ledger.head reason))
  | readKey (system : System R) (i : Nat) (writer : Writer R) (retryCount : Nat) (before : Head)
      (h : system.calls[i]? = some ⟨writer, .committed retryCount before⟩) :
      Step site allowed system
        (system.move i writer (writer.afterCommit retryCount before system.db.ledger))
  | readAgain (system : System R) (i : Nat) (writer : Writer R) (retryCount : Nat)
      (before : Head) (h : system.calls[i]? = some ⟨writer, .unsettled retryCount before⟩) :
      Step site allowed system
        (system.move i writer (afterUnsettled retryCount before system.db.ledger.head))
  /-- Other code writes other tables. -/
  | otherTables (system : System R) (tables : Tables R) :
      Step site allowed system { system with db := { system.db with tables } }
  /-- An event of another problem. -/
  | otherProblem (system : System R) (eventId : String) (seq : Nat)
      (h : system.db.ledger.hasEvent eventId = false) :
      Step site allowed system
        { system with db := { system.db with ledger :=
          { system.db.ledger with elsewhere := system.db.ledger.elsewhere ++ [(eventId, seq)] } } }

/-- Runs in which every batch that commits keeps its guard. -/
abbrev GuardedRun (site : Site R) : System R → System R → Prop :=
  Relation.ReflTransGen
    (Step site fun db writer before clock => writer.KeepsGuard site db before clock)

theorem chainHead_step {system system' : System R} (hchain : ChainHead site system.db.ledger)
    (h : Step site (fun db writer before clock => writer.KeepsGuard site db before clock)
      system system') : ChainHead site system'.db.ledger := by
  cases h with
  | commits i writer retryCount before clock db h hclock hcommit hallowed =>
      rcases Writer.batch_commit hchain hallowed hcommit with hsame | ⟨_, _, happended⟩
      · exact hsame.chainHead hchain
      · exact happended.chainHead hchain
  | otherProblem eventId seq h => exact { hchain with }
  | _ => exact hchain

theorem chainHead_run {tables : Tables R} {elsewhere : List (String × Nat)} {system : System R}
    (h : GuardedRun site (.initial site tables elsewhere) system) :
    ChainHead site system.db.ledger := by
  induction h with
  | refl => exact chainHead_empty elsewhere
  | tail _ hstep ih => exact chainHead_step ih hstep

/-! ## The chain is explained by its events -/

/-- Every move of the head is one event, with its content and its
checkpoint. -/
structure Explained (site : Site R) (ledger : Ledger) : Prop where
  sequences : ledger.events.map (·.seq) = List.range' 1 ledger.head.publicSeq
  head : ledger.head.chainDigest = tip (·.chainDigest) site.genesisChainDigest ledger.events
  extend : ∀ i (hi : i < ledger.events.length), ledger.events[i].chainDigest
    = site.eventChainDigest ledger.events[i].seq ledger.events[i].payloadSha256
        ledger.events[i].rowDigest
        (tip (·.chainDigest) site.genesisChainDigest (ledger.events.take i))
  settled : ∀ event ∈ ledger.events,
    (ledger.contents.filter (·.eventId == event.eventId)).length = 1
      ∧ (ledger.checkpoints.filter (·.checkpointSeq == event.seq)).length = 1

theorem length_filter_key {α κ : Type} [BEq κ] [LawfulBEq κ] {rows : List α} {key : α → κ} {k : κ}
    (hdistinct : (rows.map key).Nodup) (hmem : k ∈ rows.map key) :
    (rows.filter (key · == k)).length = 1 := by
  have hcount : (rows.map key).count k = 1 := List.count_eq_one_of_mem hdistinct hmem
  rw [List.count, List.countP_map] at hcount
  rw [← List.countP_eq_length_filter]
  exact hcount

theorem ChainHead.explained {ledger : Ledger} (hchain : ChainHead site ledger) :
    Explained site ledger := by
  refine ⟨hchain.sequences, hchain.digest, fun i hi => hchain.linked.getElem hi, ?_⟩
  intro event hevent
  have hcontents : ledger.contents.map (·.eventId) = ledger.events.map (·.eventId) := by
    have hfirst := congrArg (List.map Prod.fst) hchain.contents
    rw [List.map_map, List.map_map] at hfirst
    exact hfirst
  have hcheckpoints : ledger.checkpoints.map (·.checkpointSeq) = ledger.events.map (·.seq) := by
    rw [hchain.checkpoints, List.map_map]
    rfl
  constructor
  · refine length_filter_key ?_ ?_
    · rw [hcontents]
      exact hchain.distinct
    · rw [hcontents]
      exact List.mem_map_of_mem hevent
  · refine length_filter_key ?_ ?_
    · rw [hcheckpoints, hchain.sequences]
      exact List.nodup_range'
    · rw [hcheckpoints]
      exact List.mem_map_of_mem hevent

/-- In every state of a run in which no batch moves the head past a broken
guard, the chain is explained. -/
theorem chain_explained {tables : Tables R} {elsewhere : List (String × Nat)} {system : System R}
    (h : GuardedRun site (.initial site tables elsewhere) system) :
    Explained site system.db.ledger :=
  (chainHead_run h).explained

/-! ## A gap that is settled twice -/

theorem call_runs {allowed : Db R → Writer R → Head → Int × Int → Prop} (system : System R)
    (writer : Writer R) {db : Db R} (hsafe : system.db.ledger.head.publicSeq < maxSafeInteger)
    (hcommit : commit (writer.batch site system.db.ledger.head (0, 0)) system.db = .ok db)
    (hallowed : allowed system.db writer system.db.ledger.head (0, 0)) :
    ∃ system', Relation.ReflTransGen (Step site allowed) system system' ∧ system'.db = db := by
  let started : System R := { system with calls := system.calls ++ [⟨writer, .ready 0⟩] }
  let held := started.move system.calls.length writer (.holding 0 system.db.ledger.head)
  have hready : started.calls[system.calls.length]? = some ⟨writer, .ready 0⟩ := by
    simp [started]
  have hheld : held.calls[system.calls.length]?
      = some ⟨writer, .holding 0 system.db.ledger.head⟩ := by
    simp [held, started, System.move]
  have hread : Step site allowed started held := by
    have hstep : Step site allowed started (started.move system.calls.length writer
      (afterHead 0 system.db.ledger.head)) := .readHead started _ writer 0 hready
    rwa [afterHead, if_pos hsafe] at hstep
  refine ⟨_, .tail (.tail (.single (.start system writer)) hread)
    (.commits held _ writer 0 _ (0, 0) db hheld le_rfl hcommit hallowed), rfl⟩

def sampleSite : Site Unit :=
  { problemId := "P", sha256Hex := fun text => text, isClaim := fun _ id => id == "C-1"
    admitsEvent := fun _ _ => true, admitsSettlement := fun _ _ => true }

def sampleStart : System Unit :=
  .initial sampleSite { gaps := [], relations := [], rest := () } []

def sampleGap (name : String) (action : GapAction) : KraterGapInput Unit :=
  { action, eventId := "E-" ++ name, idempotencyKey := "K-" ++ name, actorFellowId := "F-1"
    actor :=
      { fellowId := some "F-1", sponsorId := none, sessionId := none, modelSelfDeclared := none
        harness := none, credentialId := none }
    createdAt := name, companion := fun _ db => db.tables }

def sampleFiled : KraterGapInput Unit := sampleGap "1" (.filed "a step" "a lemma" "C-1" 1)
def sampleClosed : KraterGapInput Unit := sampleGap "2" (.settled "G-1" .closedBy (some "C-1@1"))
def sampleWithdrawn : KraterGapInput Unit := sampleGap "3" (.settled "G-1" .withdrawn none)

theorem sampleFiled_commits :
    ∃ ledger, commit (gapBatch sampleSite sampleFiled sampleStart.db.ledger.head) sampleStart.db
        = .ok { ledger, tables := ⟨[openGap sampleFiled "G-1" "a step" "a lemma" "C-1" 1], [], ()⟩ }
      ∧ Appended sampleSite (gapRow sampleSite sampleFiled sampleStart.db.ledger.head)
        (canonicalGapPayload sampleFiled.action) sampleStart.db.ledger ledger
      ∧ ∀ name ∈ ledger.keyNames, name = "K-1" := by
  obtain ⟨ledger, hrun, happended, hnames⟩ := @gapBatch_files _ sampleSite sampleFiled
    sampleStart.db (fun _ _ => rfl) (fun _ _ => rfl) (fun _ _ => rfl) List.not_mem_nil _ _ _ _ rfl
    (chainHead_empty []) rfl rfl (fun _ hgap => absurd hgap List.not_mem_nil)
  refine ⟨ledger, hrun, happended, fun name hname => ?_⟩
  exact (hnames name hname).resolve_right List.not_mem_nil

theorem Appended.hasEvent {row : EventRow} {payloadJson eventId : String}
    {ledger ledger' : Ledger} (h : Appended site row payloadJson ledger ledger')
    (hne : row.eventId ≠ eventId) (hnew : ledger.hasEvent eventId = false) :
    ledger'.hasEvent eventId = false := by
  rw [Ledger.hasEvent, Ledger.isElsewhere] at hnew ⊢
  rw [h.events, h.elsewhere, List.any_append, Bool.or_assoc, Bool.or_comm, Bool.or_assoc]
  simp only [List.any_cons, List.any_nil, Bool.or_false, beq_eq_false_iff_ne.mpr hne,
    Bool.false_or]
  rw [Bool.or_comm]
  exact hnew

def sampleOpen : Tables Unit :=
  { gaps := [openGap sampleFiled "G-1" "a step" "a lemma" "C-1" 1], relations := [], rest := () }

def sampleSettled : Tables Unit := settleGap "G-1" .closedBy (some "C-1@1") "2" sampleOpen

theorem sampleOpen_settleable : isGapSettleable "G-1" .closedBy "2" sampleOpen = true := by
  decide

theorem sampleSettled_settled : isGapSettleable "G-1" .withdrawn "3" sampleSettled = false := by
  decide

/-- The second settlement of a gap leaves a head no event explains. -/
theorem settled_twice :
    ∃ system, Relation.ReflTransGen (Step sampleSite fun _ _ _ _ => True) sampleStart system
      ∧ ¬Explained sampleSite system.db.ledger := by
  obtain ⟨ledger₁, hrun₁, happended₁, hnames₁⟩ := sampleFiled_commits
  have hchain₁ := happended₁.chainHead (chainHead_empty [])
  have hnew₂ : "K-2" ∉ ledger₁.keyNames := fun h => absurd (hnames₁ _ h) (by decide)
  have hfresh₂ : ledger₁.hasEvent "E-2" = false := happended₁.hasEvent (by decide) rfl
  obtain ⟨ledger₂, hrun₂, happended₂, hnames₂⟩ := @gapBatch_settles _ sampleSite sampleClosed
    ⟨ledger₁, sampleOpen⟩ (fun _ _ => rfl) (fun _ _ => rfl) (fun _ _ => rfl) hnew₂ _ _ _ rfl
    hchain₁ hfresh₂ sampleOpen_settleable
  have hnew₃ : "K-3" ∉ ledger₂.keyNames := by
    intro h
    rcases hnames₂ _ h with hsame | hold
    · exact absurd hsame (by decide)
    · exact absurd (hnames₁ _ hold) (by decide)
  obtain ⟨ledger₃, hrun₃, hhead₃, hevents₃⟩ := @gapBatch_unguarded _ sampleSite sampleWithdrawn
    ⟨ledger₂, sampleSettled⟩ (fun _ _ => rfl) (fun _ _ => rfl) (fun _ _ => rfl) hnew₃ _ _ _ rfl
    sampleSettled_settled
  have hseq₁ : ledger₁.head.publicSeq = 1 := congrArg Head.publicSeq happended₁.head
  have hseq₂ : ledger₂.head.publicSeq = 2 := by
    rw [happended₂.head]
    exact congrArg (· + 1) hseq₁
  let allowed : Db Unit → Writer Unit → Head → Int × Int → Prop := fun _ _ _ _ => True
  obtain ⟨system₁, hsteps₁, hdb₁⟩ := @call_runs _ sampleSite allowed sampleStart
    (.gap sampleFiled) _ (by decide) hrun₁ trivial
  obtain ⟨system₂, hsteps₂, hdb₂⟩ := @call_runs _ sampleSite allowed system₁ (.gap sampleClosed) _
    (by rw [hdb₁]; simp only [hseq₁]; decide) (by rw [hdb₁]; exact hrun₂) trivial
  obtain ⟨system₃, hsteps₃, hdb₃⟩ := @call_runs _ sampleSite allowed system₂
    (.gap sampleWithdrawn) _ (by rw [hdb₂]; simp only [hseq₂]; decide)
    (by rw [hdb₂]; exact hrun₃) trivial
  refine ⟨system₃, (hsteps₁.trans hsteps₂).trans hsteps₃, fun hexplained => ?_⟩
  have hlength := congrArg List.length hexplained.sequences
  rw [hdb₃, List.length_map, List.length_range', hhead₃, hevents₃, happended₂.events,
    happended₁.events, List.length_append, List.length_append, List.length_singleton, hseq₂]
    at hlength
  exact absurd hlength (show 0 + 1 + 1 ≠ 2 + 1 by decide)

/-- After the first of the calls the chain is explained. -/
theorem chain_explained_filed :
    ∃ system : System Unit, system.db.ledger.head.publicSeq = 1
      ∧ Explained sampleSite system.db.ledger := by
  obtain ⟨ledger, hrun, happended, _⟩ := sampleFiled_commits
  obtain ⟨system, hsteps, hdb⟩ := @call_runs _ sampleSite
    (fun db writer before clock => writer.KeepsGuard sampleSite db before clock) sampleStart
    (.gap sampleFiled) _ (by decide) hrun trivial
  refine ⟨system, ?_, chain_explained hsteps⟩
  rw [hdb]
  exact congrArg Head.publicSeq happended.head

end Asimposium.Krater
