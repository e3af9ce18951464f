import Asimposium.Krater.ChainHead

/-!
# Batches that commit

The other direction for the batches guarded by their key: on the head it
has read, with its key free and its event id new, a batch commits. With
its guard it appends its event (`keyedBatch_appends`); without it only
the head moves (`keyedBatch_unguarded`), and the chain is broken.
-/

namespace Asimposium.Krater

open HashChain ExceptRun

variable {R : Type} {site : Site R}

/-! ## Statements -/

variable {db : Db R} {ledger : Ledger}

theorem onLedger_of {condition : Db R → Bool} {act : Ledger → Except Abort Ledger}
    (hcondition : condition db = true) (hact : act db.ledger = .ok ledger) :
    onLedger condition act db = .ok { db with ledger } := by
  rw [onLedger, if_pos hcondition, hact]
  rfl

theorem onLedger_skip {condition : Db R → Bool} {act : Ledger → Except Abort Ledger}
    (hcondition : condition db = false) : onLedger condition act db = .ok db := by
  rw [onLedger, hcondition, if_neg Bool.false_ne_true]

theorem effect_of {act : Db R → Except Abort (Tables R)} {tables : Tables R}
    (hact : act db = .ok tables) : effect act db = .ok { db with tables } := by
  rw [effect, hact]
  rfl

theorem commit_cons_of {statement : Statement R} {batch : List (Statement R)} {next : Db R}
    (h : statement db = .ok next) : commit (statement :: batch) db = commit batch next := by
  rw [commit, run_cons, h]
  rfl

theorem ChainHead.mem_seq (hchain : ChainHead site ledger) {seq : Nat} :
    (∃ event ∈ ledger.events, event.seq = seq) ↔ 1 ≤ seq ∧ seq ≤ ledger.head.publicSeq := by
  rw [← List.mem_map, hchain.sequences, List.mem_range'_1]
  omega

variable {row : EventRow}

theorem insertEvent_of
    (hhead : ledger.head = { publicSeq := row.seq, chainDigest := row.chainDigest })
    (hfresh : ledger.hasEvent row.eventId = false)
    (htaken : ∀ event ∈ ledger.events, event.seq ≠ row.seq) (hzero : row.seq ≠ 0)
    (hprior : 1 < row.seq → ∃ link ∈ ledger.eventChain, link.seq + 1 = row.seq)
    (hlinks : ∀ link ∈ ledger.eventChain, link.eventId ≠ row.eventId ∧ link.seq ≠ row.seq) :
    ledger.insertEvent row = .ok (ledger.pushEvent row) := by
  obtain ⟨_, events, eventChain, _, _, _, _, _⟩ := ledger
  cases hhead
  have hevents : (events.any (·.seq == row.seq)) = false := by
    rw [List.any_eq_false]
    intro event hevent
    simpa using htaken event hevent
  have hmissing : ¬(1 < row.seq && !eventChain.any (·.seq + 1 == row.seq)) = true := by
    rw [Bool.and_eq_true, not_and, decide_eq_true_eq]
    intro hlater
    obtain ⟨link, hlink, hseq⟩ := hprior hlater
    simpa using ⟨link, hlink, hseq⟩
  have hthere : ¬(eventChain.any fun old => old.eventId == row.eventId || old.seq == row.seq)
      = true := by
    rw [Bool.not_eq_true, List.any_eq_false]
    intro link hlink
    simpa using hlinks link hlink
  rw [Ledger.insertEvent]
  dsimp only
  rw [if_neg (not_not_intro rfl), hfresh, hevents, Bool.or_false, if_neg Bool.false_ne_true,
    Ledger.insertEventChain]
  exact (if_neg hmissing).trans ((if_neg (by simpa [EventRow.chainRow] using hzero)).trans
    (if_neg hthere))

theorem HeadMoved.insertEvent_eq {moved : Ledger} (hmoved : HeadMoved row ledger moved)
    (hchain : ChainHead site ledger) (hfresh : ledger.hasEvent row.eventId = false) :
    moved.insertEvent row = .ok (moved.pushEvent row) := by
  have hseq := hmoved.seq
  have hids := hfresh
  rw [Ledger.hasEvent, Bool.or_eq_false_iff, List.any_eq_false] at hids
  have htaken : ∀ event ∈ ledger.events, event.seq ≠ row.seq := by
    intro event hevent heq
    have := (hchain.mem_seq.mp ⟨event, hevent, heq⟩).2
    omega
  refine insertEvent_of hmoved.head ?_ (hmoved.events ▸ htaken) (by omega) ?_ ?_
  · rw [Ledger.hasEvent, hmoved.events, Ledger.isElsewhere, hmoved.elsewhere]
    exact hfresh
  · intro hlater
    obtain ⟨event, hevent, heq⟩ := hchain.mem_seq.mpr
      (show 1 ≤ row.seq - 1 ∧ row.seq - 1 ≤ ledger.head.publicSeq by omega)
    rw [hmoved.eventChain, hchain.eventChain]
    refine ⟨event.chainRow, List.mem_map_of_mem hevent, ?_⟩
    have hlink : event.chainRow.seq = row.seq - 1 := heq
    omega
  · rw [hmoved.eventChain, hchain.eventChain]
    intro link hlink
    obtain ⟨event, hevent, rfl⟩ := List.mem_map.mp hlink
    have hid : event.eventId ≠ row.eventId := by simpa using hids.1 event hevent
    exact ⟨hid, htaken event hevent⟩

theorem HeadMoved.insertContent_eq {payloadJson : String} {moved : Ledger}
    (hmoved : HeadMoved row ledger moved) (hchain : ChainHead site ledger)
    (hfresh : ledger.hasEvent row.eventId = false) : let content : ContentRow :=
      { eventId := row.eventId, payloadSha256 := row.payloadSha256, payloadJson }
    (moved.pushEvent row).insertContent content
      = .ok ((moved.pushEvent row).pushContent content) := by
  rw [Ledger.hasEvent, Bool.or_eq_false_iff, List.any_eq_false] at hfresh
  have hcontents : (moved.contents.any (·.eventId == row.eventId)) = false := by
    rw [List.any_eq_false, hmoved.contents]
    intro content hcontent
    have hmem := List.mem_map_of_mem (f := fun content : ContentRow =>
      (content.eventId, content.payloadSha256)) hcontent
    rw [hchain.contents] at hmem
    obtain ⟨event, hevent, heq⟩ := List.mem_map.mp hmem
    have hid : event.eventId = content.eventId := congrArg Prod.fst heq
    rw [← hid]
    exact hfresh.1 event hevent
  have helsewhere : moved.isElsewhere row.eventId = false := by
    rw [Ledger.isElsewhere, hmoved.elsewhere]
    exact hfresh.2
  have hthere : (moved.pushEvent row).hasEvent row.eventId = true := by
    simp [Ledger.hasEvent, Ledger.pushEvent]
  intro content
  unfold Ledger.insertContent
  refine (if_neg ?_).trans (if_pos hthere)
  rw [Bool.not_eq_true, Bool.or_eq_false_iff]
  exact ⟨hcontents, helsewhere⟩

theorem HeadMoved.insertCheckpoint_eq {content : ContentRow} {moved : Ledger}
    (hmoved : HeadMoved row ledger moved) (hchain : ChainHead site ledger) :
    ((moved.pushEvent row).pushContent content).insertCheckpoint (site.checkpoint row)
      = .ok (((moved.pushEvent row).pushContent content).pushCheckpoint (site.checkpoint row)) := by
  have hseq := hmoved.seq
  have hcheckpoints := hchain.checkpointChain.trans hchain.checkpoints
  have htaken : (moved.checkpoints.any (·.checkpointSeq == row.seq)) = false := by
    rw [List.any_eq_false, hmoved.checkpoints, hchain.checkpoints]
    intro checkpoint hcheckpoint
    obtain ⟨event, hevent, rfl⟩ := List.mem_map.mp hcheckpoint
    have := (hchain.mem_seq.mp ⟨event, hevent, rfl⟩).2
    simp [Site.checkpoint]
    omega
  have hsame : moved.checkpointChain = moved.checkpoints := by
    rw [hmoved.checkpointChain, hmoved.checkpoints, hchain.checkpointChain]
  rw [Ledger.insertCheckpoint]
  refine (if_neg ?_).trans ((if_neg ?_).trans ?_)
  · simp [Ledger.pushEvent, Ledger.pushContent, EventRow.chainRow, Site.checkpoint]
  · exact Bool.eq_false_iff.mp htaken
  · rw [Ledger.insertCheckpointChain]
    refine (if_neg ?_).trans (if_neg ?_)
    · rw [Bool.and_eq_true, not_and, decide_eq_true_eq]
      intro hlater
      have hlater : 1 < row.seq := hlater
      obtain ⟨event, hevent, heq⟩ := hchain.mem_seq.mpr
        (show 1 ≤ row.seq - 1 ∧ row.seq - 1 ≤ ledger.head.publicSeq by omega)
      have hthere : (moved.checkpointChain.any (·.checkpointSeq + 1 == row.seq)) = true := by
        rw [List.any_eq_true, hmoved.checkpointChain, hcheckpoints]
        refine ⟨site.checkpoint event, List.mem_map_of_mem hevent, ?_⟩
        simp [Site.checkpoint]
        omega
      rw [Bool.not_eq_true', Bool.not_eq_false]
      exact hthere
    · exact Bool.eq_false_iff.mp (hsame ▸ htaken)

/-! ## Keys -/

def Ledger.keyNames (ledger : Ledger) : List String := ledger.keys.map (·.idempotencyKey)

theorem keyNames_openKey {key digest createdAt : String} {expiredBefore : Option String}
    {name : String} (h : name ∈ (ledger.openKey key digest createdAt expiredBefore).keyNames) :
    name = key ∨ name ∈ ledger.keyNames := by
  unfold Ledger.openKey Ledger.keyNames at h
  dsimp only at h
  split at h
  · obtain ⟨row, hrow, rfl⟩ := List.mem_map.mp h
    obtain ⟨old, hold, rfl⟩ := List.mem_map.mp hrow
    split
    · exact .inl rfl
    · exact .inr (List.mem_map_of_mem hold)
  · rw [List.map_append, List.mem_append, List.map_singleton, List.mem_singleton] at h
    exact h.symm

theorem ownsKey_openKey {key : String} (hnew : key ∉ ledger.keyNames) (digest createdAt : String)
    (expiredBefore : Option String) :
    (ledger.openKey key digest createdAt expiredBefore).ownsKey key none = true := by
  have hnone : ¬(ledger.keys.any (·.idempotencyKey == key)) = true := by
    rw [Bool.not_eq_true, List.any_eq_false]
    intro row hrow hkey
    exact hnew (List.mem_map.mpr ⟨row, hrow, by simpa using hkey⟩)
  unfold Ledger.openKey
  dsimp only
  rw [if_neg hnone]
  simp [Ledger.ownsKey]

theorem keyNames_settleKey (ledger : Ledger) (key : String) (digest : Option String)
    (eventId : String) : (ledger.settleKey key digest eventId).keyNames = ledger.keyNames := by
  unfold Ledger.settleKey
  split
  · rfl
  · simp only [Ledger.keyNames, List.map_map]
    refine List.map_congr_left fun row _ => ?_
    simp only [Function.comp_apply]
    split <;> rfl

/-! ## Batches -/

section Keyed

variable {key requestDigest payloadJson : String} {envelope : EventEnvelope}
  {project afterEvent : Db R → Except Abort (Tables R)} {guard settles : Tables R → Bool}
  {companion : Companion R}

theorem settle_of (hadmits : ∀ db id, site.admitsSettlement db id = true) (db : Db R)
    (key : String) (digest : Option String) (eventId : String) (condition : Db R → Bool) :
    ∃ ledger, settle site key digest eventId condition db = .ok { db with ledger }
      ∧ ledger.keyNames = db.ledger.keyNames := by
  unfold settle
  rw [hadmits, Bool.not_true, Bool.and_false, if_neg Bool.false_ne_true]
  cases hcondition : condition db with
  | true => exact ⟨_, onLedger_of hcondition rfl, keyNames_settleKey ..⟩
  | false => exact ⟨_, onLedger_skip hcondition, rfl⟩

variable {db : Db R}

theorem keyedBatch_elects (hnew : key ∉ db.ledger.keyNames) :
    commit (keyedBatch site key requestDigest payloadJson db.ledger.head
        (site.candidate db.ledger.head envelope) project guard settles afterEvent companion) db
      = commit (keyedEffects site key payloadJson (site.candidate db.ledger.head envelope)
          project guard settles afterEvent companion)
        (db.elected key requestDigest envelope.createdAt none
          (site.candidate db.ledger.head envelope).chainDigest) := by
  have hopened := unchanged_openKey db.ledger key requestDigest envelope.createdAt none
  have howns := ownsKey_openKey hnew requestDigest envelope.createdAt none
  have hopen : onLedger (fun _ => true)
      (fun ledger => .ok (ledger.openKey key requestDigest envelope.createdAt none)) db
      = .ok (db.opened key requestDigest envelope.createdAt none) := rfl
  refine (commit_cons_of hopen).trans (commit_cons_of (onLedger_of ?_ rfl))
  exact Bool.and_eq_true_iff.mpr ⟨decide_eq_true hopened.head, howns⟩

variable (hafter : ∀ db, afterEvent db = .ok db.tables)
  (hevent : ∀ db row, site.admitsEvent db row = true)
  (hsettle : ∀ db id, site.admitsSettlement db id = true)
  (hcompanion : ∀ settlement db, companion settlement db = db.tables)
include hafter hevent hsettle hcompanion

variable {tables : Tables R}

theorem keyedEffects_runs {row : EventRow} {ledger : Ledger}
    (hmoved : HeadMoved row ledger db.ledger) (hchain : ChainHead site ledger)
    (hfresh : ledger.hasEvent row.eventId = false) (howns : db.ledger.ownsKey key none = true)
    (hproject : project db = .ok tables) (hguard : guard tables = true) :
    ∃ ledger', commit (keyedEffects site key payloadJson row project guard settles afterEvent
        companion) db = .ok { ledger := ledger', tables }
      ∧ ledger'.keyNames = db.ledger.keyNames := by
  have hguarded := Bool.and_eq_true_iff.mpr ⟨howns, hguard⟩
  have hhead : { site.checkpoint row with
      checkpointSeq := db.ledger.head.publicSeq
      rootChainDigest := db.ledger.head.chainDigest } = site.checkpoint row := by
    rw [hmoved.head]
    rfl
  have hcheckpoint : checkpointHead site row ((db.ledger.pushEvent row).pushContent
      { eventId := row.eventId, payloadSha256 := row.payloadSha256, payloadJson }) = .ok _ :=
    (congrArg (Ledger.insertCheckpoint _) hhead).trans (hmoved.insertCheckpoint_eq hchain)
  obtain ⟨ledger', hsettled, hnames⟩ := settle_of hsettle
    { ledger := ((db.ledger.pushEvent row).pushContent
        { eventId := row.eventId, payloadSha256 := row.payloadSha256, payloadJson }).pushCheckpoint
          (site.checkpoint row), tables } key none row.eventId fun db => settles db.tables
  refine ⟨ledger', ?_, hnames⟩
  have happend : appendEvent site row (fun db => db.ledger.ownsKey key none && guard db.tables)
      { db with tables } = .ok { ledger := db.ledger.pushEvent row, tables } := by
    rw [appendEvent, hevent, Bool.not_true, Bool.and_false, if_neg Bool.false_ne_true]
    exact onLedger_of hguarded (hmoved.insertEvent_eq hchain hfresh)
  refine (commit_cons_of (effect_of hproject)).trans ((commit_cons_of happend).trans ?_)
  refine (commit_cons_of (onLedger_of hguarded (hmoved.insertContent_eq hchain hfresh))).trans ?_
  refine (commit_cons_of (effect_of (hafter _))).trans ?_
  refine (commit_cons_of (onLedger_of hguarded hcheckpoint)).trans ?_
  refine (commit_cons_of hsettled).trans ?_
  exact commit_cons_of (effect_of (congrArg Except.ok (hcompanion _ _)))

theorem keyedEffects_skips {row : EventRow} (hproject : project db = .ok tables)
    (hguard : guard tables = false) :
    ∃ ledger', commit (keyedEffects site key payloadJson row project guard settles afterEvent
        companion) db = .ok { ledger := ledger', tables } ∧ Unchanged db.ledger ledger' := by
  have hguarded : (db.ledger.ownsKey key none && guard tables) = false := by
    rw [hguard, Bool.and_false]
  obtain ⟨ledger', hsettled, -⟩ := settle_of hsettle { db with tables } key none row.eventId
    fun db => settles db.tables
  refine ⟨ledger', ?_, settle_ok hsettled⟩
  have happend : appendEvent site row (fun db => db.ledger.ownsKey key none && guard db.tables)
      { db with tables } = .ok { db with tables } := by
    rw [appendEvent, hevent, Bool.not_true, Bool.and_false, if_neg Bool.false_ne_true]
    exact onLedger_skip hguarded
  refine (commit_cons_of (effect_of hproject)).trans ((commit_cons_of happend).trans ?_)
  refine (commit_cons_of (onLedger_skip hguarded)).trans ?_
  refine (commit_cons_of (effect_of (hafter _))).trans ?_
  refine (commit_cons_of (onLedger_skip hguarded)).trans ?_
  refine (commit_cons_of hsettled).trans ?_
  exact commit_cons_of (effect_of (congrArg Except.ok (hcompanion _ _)))

/-- A batch on the head it has read, with a new key, a new event id and
its guard, appends its event. -/
theorem keyedBatch_appends (hchain : ChainHead site db.ledger) (hnew : key ∉ db.ledger.keyNames)
    (hfresh : db.ledger.hasEvent envelope.eventId = false)
    (hproject : project (db.elected key requestDigest envelope.createdAt none
      (site.candidate db.ledger.head envelope).chainDigest) = .ok tables)
    (hguard : guard tables = true) :
    ∃ ledger, commit (keyedBatch site key requestDigest payloadJson db.ledger.head
        (site.candidate db.ledger.head envelope) project guard settles afterEvent companion) db
          = .ok { ledger, tables }
      ∧ Appended site (site.candidate db.ledger.head envelope) payloadJson db.ledger ledger
      ∧ ∀ name ∈ ledger.keyNames, name = key ∨ name ∈ db.ledger.keyNames := by
  have hopened := unchanged_openKey db.ledger key requestDigest envelope.createdAt none
  have howns := ownsKey_openKey hnew requestDigest envelope.createdAt none
  have hmoved : HeadMoved (site.candidate db.ledger.head envelope) db.ledger
    (db.elected key requestDigest envelope.createdAt none _).ledger := hopened.advance rfl
  obtain ⟨ledger, hrun, hnames⟩ := keyedEffects_runs hafter hevent hsettle hcompanion hmoved hchain
    hfresh howns hproject hguard
  refine ⟨ledger, (keyedBatch_elects hnew).trans hrun, ?_, ?_⟩
  · refine keyedEffects_elected hmoved rfl howns ?_ ?_ hrun
    · intro tables' htables'
      rw [hproject] at htables'
      cases htables'
      exact hguard
    · intro db' tables' htables'
      rw [hafter] at htables'
      cases htables'
      rfl
  · intro name hname
    rw [hnames] at hname
    exact keyNames_openKey hname

theorem keyedBatch_unguarded (hnew : key ∉ db.ledger.keyNames)
    (hproject : project (db.elected key requestDigest envelope.createdAt none
      (site.candidate db.ledger.head envelope).chainDigest) = .ok tables)
    (hguard : guard tables = false) :
    ∃ ledger, commit (keyedBatch site key requestDigest payloadJson db.ledger.head
        (site.candidate db.ledger.head envelope) project guard settles afterEvent companion) db
          = .ok { ledger, tables }
      ∧ ledger.head.publicSeq = db.ledger.head.publicSeq + 1
      ∧ ledger.events = db.ledger.events := by
  have hopened := unchanged_openKey db.ledger key requestDigest envelope.createdAt none
  have hmoved : HeadMoved (site.candidate db.ledger.head envelope) db.ledger
    (db.elected key requestDigest envelope.createdAt none _).ledger := hopened.advance rfl
  obtain ⟨ledger, hrun, hsame⟩ := keyedEffects_skips hafter hevent hsettle hcompanion hproject
    hguard
  refine ⟨ledger, (keyedBatch_elects hnew).trans hrun, ?_, hsame.events.trans hmoved.events⟩
  rw [hsame.head, hmoved.head]
  rfl

end Keyed

end Asimposium.Krater
