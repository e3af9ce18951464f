import Asimposium.Lib.ExceptRun
import Asimposium.Hypotheses.Trails
import Mathlib.Data.List.Chain
import Mathlib.Data.List.Perm.Subperm

/-!
# Runs of the routes

Any number of readers, authors and eliminations work on the hypotheses of
a problem. What a command read may be old when it is admitted, and the
admission older still when its publication commits; only the guards are
evaluated in the transaction. The guards suffice: every history stays a
trail, an ended route stays ended, and successors lead to later
publications only.
-/

namespace Asimposium.Hypotheses

open ExceptRun

variable {db db' : Db} {digest : Payload → String}

/-! ## Admitted commands -/

/-- What was true of an admission when it was made, and stays true. -/
structure Admitted (db : Db) (a : Admission) : Prop where
  pins : ∃ guard rest publication, a.guards = guard :: rest
    ∧ Published db a.hypothesisId publication ∧ guard.publicationEventId = publication.eventId
    ∧ publication.fellowId = some a.fellowId ∧ a.request.permits (.lifecycle guard.state) = true
    ∧ guard.lastEventId = a.request.expectedLastEventId
    ∧ ∀ successorId, a.request.successorHypothesisId = some successorId →
      ∃ next ∈ rest, ∃ later, Published db successorId later
        ∧ next.publicationEventId = later.eventId ∧ publication.seq < later.seq

structure Eliminated (db : Db) (k : Elimination) : Prop where
  pins : ∃ publication, Published db k.hypothesisId publication
    ∧ k.guard.publicationEventId = publication.eventId
    ∧ (k.guard.state = .active ∨ k.guard.state = .deferred)

theorem hypothesisHeadGuard_ok {h : PublicHypothesis} {guard : HeadGuard}
    (hguard : hypothesisHeadGuard h = .ok guard) :
    h.status = .lifecycle guard.state ∧ guard.lastEventId = h.lastEvent.eventId
      ∧ guard.publicationEventId = h.publication.eventId := by
  unfold hypothesisHeadGuard at hguard
  cases hstatus : h.status with
  | unavailable => simp [hstatus] at hguard
  | lifecycle state =>
      cases state <;> simp [hstatus] at hguard
      all_goals
        subst hguard
        exact ⟨rfl, rfl, rfl⟩

theorem readableHypothesisTarget_ok {read : Option PublicHypothesis} {h : PublicHypothesis}
    (hread : readableHypothesisTarget read = .ok h) : read = some h := by
  unfold readableHypothesisTarget at hread
  cases read with
  | none => cases hread
  | some found =>
      simp only at hread
      split at hread
      · cases hread
      · cases hread
        rfl

variable {hypothesisId : String}

theorem successorGuard_ok {h : PublicHypothesis} {successor : Option PublicHypothesis}
    {request : LifecycleRequest} {guards : List HeadGuard}
    (hguards : successorGuard hypothesisId h successor request = .ok guards)
    {successorId : String} (hid : request.successorHypothesisId = some successorId) :
    ∃ next guard, successor = some next ∧ guards = [guard]
      ∧ h.publication.seq < next.publication.seq ∧ guard.publicationEventId = next.publication.eventId := by
  unfold successorGuard at hguards
  rw [hid] at hguards
  simp only at hguards
  split at hguards
  · cases hguards
  · cases successor with
    | none => cases hguards
    | some next =>
        simp only at hguards
        split at hguards
        · cases hguards
        · rename_i hchecks
          simp only [Bool.or_eq_true, decide_eq_true_eq, not_or, Nat.not_le] at hchecks
          obtain ⟨guard, hguard, rfl⟩ := map_ok.mp hguards
          exact ⟨next, guard, rfl, rfl, hchecks.2, (hypothesisHeadGuard_ok hguard).2.2⟩

theorem prepareHypothesisLifecycle_admitted {fellowId : String} {request : LifecycleRequest}
    {target successor : Option PublicHypothesis} {a : Admission}
    (h : prepareHypothesisLifecycle hypothesisId fellowId request target successor = .ok a)
    (htarget : ∀ h, target = some h → Published db hypothesisId h.publication)
    (hsuccessor : ∀ next successorId, successor = some next →
      request.successorHypothesisId = some successorId →
      Published db successorId next.publication) :
    Admitted db a := by
  obtain ⟨item, hitem, h⟩ := bind_ok.mp h
  have hpublished := htarget item (readableHypothesisTarget_ok hitem)
  split at h
  · cases h
  · rename_i hfellow
    split at h
    · cases h
    · rename_i hexpected
      split at h
      · cases h
      · rename_i hpermits
        obtain ⟨next, hnext, h⟩ := bind_ok.mp h
        obtain ⟨source, hsource, h⟩ := bind_ok.mp h
        cases h
        obtain ⟨hstatus, hlast, hpublication⟩ := hypothesisHeadGuard_ok hsource
        rw [ne_eq, not_not] at hfellow hexpected
        rw [Bool.not_eq_true', Bool.not_eq_false, hstatus] at hpermits
        refine ⟨source, next, item.publication, rfl, hpublished, hpublication, hfellow, hpermits,
          hlast.trans hexpected, fun successorId hid => ?_⟩
        obtain ⟨found, guard, rfl, rfl, hlt, hguard⟩ := successorGuard_ok hnext hid
        exact ⟨guard, List.mem_singleton_self _, found.publication,
          hsuccessor found successorId rfl hid, hguard, hlt⟩

theorem prepareElimination_eliminated {fellowId evidence reason : String}
    {target : Option PublicHypothesis} {k : Elimination}
    (h : prepareElimination hypothesisId fellowId evidence reason target = .ok k)
    (htarget : ∀ h, target = some h → Published db hypothesisId h.publication) :
    Eliminated db k := by
  obtain ⟨item, hitem, h⟩ := bind_ok.mp h
  split at h
  · cases h
  · rename_i hlive
    obtain ⟨guard, hguard, h⟩ := bind_ok.mp h
    cases h
    obtain ⟨hstatus, -, hpublication⟩ := hypothesisHeadGuard_ok hguard
    refine ⟨item.publication, htarget item (readableHypothesisTarget_ok hitem), hpublication, ?_⟩
    rw [hstatus] at hlive
    simp only [ne_eq, PublicStatus.lifecycle.injEq, not_and_or, not_not] at hlive
    exact hlive

/-! ## Publications -/

theorem Published.mono {publication : Envelope} (h : Published db hypothesisId publication)
    (hsub : ∀ e ∈ db.events, e ∈ db'.events) : Published db' hypothesisId publication := by
  obtain ⟨e, he, htype, henvelope⟩ := h
  obtain ⟨hmem, hcond⟩ := List.mem_filter.mp he
  exact ⟨e, List.mem_filter.mpr ⟨hsub e hmem, hcond⟩, htype, henvelope⟩

theorem publishHypothesis_lawful (h : Lawful db) {eventId fellowId content : String}
    (hdb : publishHypothesis digest eventId hypothesisId fellowId content db = some db') :
    Lawful db' ∧ (∀ e ∈ db.events, e ∈ db'.events)
      ∧ ∀ row ∈ db.hypotheses, row ∈ db'.hypotheses := by
  obtain ⟨appended, happended, hdb⟩ := Option.bind_eq_some_iff.mp hdb
  obtain ⟨rfl, hfresh⟩ := append_some happended
  split at hdb
  · cases hdb
  · rename_i hnew
    cases hdb
    rw [Bool.not_eq_true, List.any_eq_false] at hnew
    have hnone : ∀ row ∈ db.hypotheses, row.hypothesisId ≠ hypothesisId := fun row hrow hid =>
      hnew row hrow (beq_iff_eq.mpr hid)
    have hempty := h.rowless hypothesisId hnone
    refine ⟨⟨?_, ?_, ?_, ?_⟩, fun e he => List.mem_append_left _ he,
      fun row hrow => List.mem_append_left _ hrow⟩
    · rw [List.map_append, List.nodup_append]
      refine ⟨h.ids, List.nodup_singleton _, fun a ha b hb => ?_⟩
      obtain ⟨old, hmem, rfl⟩ := List.mem_map.mp ha
      rw [List.mem_singleton.mp hb]
      exact hfresh old hmem
    · rw [List.map_append, List.nodup_append]
      refine ⟨h.rowIds, List.nodup_singleton _, fun a ha b hb => ?_⟩
      obtain ⟨old, hmem, rfl⟩ := List.mem_map.mp ha
      rw [List.mem_singleton.mp hb]
      exact hnone old hmem
    · intro row hrow
      rcases List.mem_append.mp hrow with hrow | hrow
      · refine (h.rows row hrow).keep ?_ fun old hold =>
          ⟨old, List.mem_append_left _ hold, rfl, rfl⟩
        rw [history_append, if_neg fun he => hnone row hrow he.2.symm, List.append_nil]
        rfl
      · obtain rfl := List.mem_singleton.mp hrow
        have hhistory : ∀ hypotheses, Db.history ⟨db.events ++ [db.event digest eventId
            hypothesisId fellowId .created (.publication content)], hypotheses, db.withheld⟩
            hypothesisId
            = [db.event digest eventId hypothesisId fellowId .created (.publication content)] := by
          intro hypotheses
          rw [history_append, if_pos ⟨rfl, rfl⟩]
          exact congrArg (· ++ _) hempty
        refine ⟨?_, ⟨_, ?_, rfl, rfl⟩, ⟨_, ?_, rfl⟩, fun id hid => by cases hid⟩
        · rw [hhistory]
          exact .created _ rfl rfl rfl
        · rw [hhistory]
          rfl
        · rw [hhistory]
          rfl
    · intro id hother
      have hne : id ≠ hypothesisId := by
        rintro rfl
        exact hother _ (List.mem_append_right _ (List.mem_singleton_self _)) rfl
      rw [history_append, if_neg fun he => hne he.2.symm, List.append_nil]
      exact h.rowless id fun row hrow => hother row (List.mem_append_left _ hrow)

theorem Describes.snoc {row : Hypothesis} (h : Describes db row) :
    ∃ earlier last, db.history row.hypothesisId = earlier ++ [last]
      ∧ last.id = row.lifecycleEventId := by
  obtain ⟨earlier, last, hhistory, -⟩ := h.trail.ends
  obtain ⟨last', hlast, hid⟩ := h.head
  rw [hhistory, List.getLast?_concat, Option.some.injEq] at hlast
  exact ⟨earlier, last, hhistory, hlast ▸ hid⟩

theorem publishLifecycle_lawful (h : Lawful db) {eventId : String} {a : Admission}
    (ha : Admitted db a) (hdb : publishLifecycle digest eventId a db = some db') :
    Lawful db' ∧ (∀ e ∈ db.events, e ∈ db'.events)
      ∧ ∀ row ∈ db.hypotheses, row ∈ db'.hypotheses
        ∨ row.lifecycleStatus = .active ∨ row.lifecycleStatus = .deferred := by
  unfold publishLifecycle at hdb
  simp only at hdb
  split at hdb
  · cases hdb
  · rename_i hguards
    rw [Bool.not_eq_true', Bool.not_eq_false, List.all_eq_true] at hguards
    obtain ⟨appended, happended, hdb⟩ := Option.bind_eq_some_iff.mp hdb
    obtain ⟨rfl, hfresh⟩ := append_some happended
    cases hdb
    obtain ⟨guard, rest, publication, hpins, hpublished, hsource, hfellow, hpermits, hexpected,
      hsuccessor⟩ := ha.pins
    rw [hpins] at hguards
    obtain ⟨row, hrow, hid, hstate, hlast, hseq, hauthor⟩ :=
      h.pinned (hguards guard List.mem_cons_self) hpublished hsource
    rw [hfellow, Option.some.injEq] at hauthor
    obtain ⟨earlier, last, hhistory, hlastId⟩ := (h.rows row hrow).snoc
    refine ⟨h.extend hrow rfl hid.symm hfresh
      (fun other => other.advance a.request (db.event digest eventId a.hypothesisId a.fellowId
        a.request.eventType (.lifecycle a.hypothesisId a.request)))
      ⟨rfl, rfl, rfl, rfl⟩ ?_ ?_ (by simp only [hid]), fun e he => List.mem_append_left _ he,
      fun other hother => ?_⟩
    · have htrail := (h.rows row hrow).trail
      rw [hhistory] at htrail ⊢
      exact .lifecycle earlier last _ a.request row.lifecycleStatus htrail (hstate ▸ hpermits)
        rfl rfl (congrArg some hauthor) (by rw [hid]; rfl) (by rw [hlastId, hlast, hexpected])
    · intro successorId hsid
      obtain ⟨next, hnext, later, hlater, hnextSource, hlt⟩ := hsuccessor successorId hsid
      obtain ⟨row', hrow', hid', -, -, hseq', -⟩ :=
        h.pinned (hguards next (List.mem_cons_of_mem _ hnext)) hlater hnextSource
      exact ⟨row', hrow', hid', by rw [hseq, hseq']; exact hlt⟩
    · by_cases hsame : other.hypothesisId = row.hypothesisId
      · right
        rw [h.unique hother hrow hsame, hstate]
        cases hreq : a.request <;> rw [hreq] at hpermits <;> cases hguard : guard.state <;>
          simp [hguard, LifecycleRequest.permits] at hpermits ⊢
      · exact .inl (List.mem_map.mpr ⟨other, hother, if_neg fun h => hsame (h.trans hid.symm)⟩)

theorem publishElimination_lawful (h : Lawful db) {eventId : String} {k : Elimination}
    (hk : Eliminated db k) (hdb : publishElimination digest eventId k db = some db') :
    Lawful db' ∧ (∀ e ∈ db.events, e ∈ db'.events)
      ∧ ∀ row ∈ db.hypotheses, row ∈ db'.hypotheses
        ∨ row.lifecycleStatus = .active ∨ row.lifecycleStatus = .deferred := by
  unfold publishElimination at hdb
  simp only at hdb
  split at hdb
  · cases hdb
  · rename_i hopen
    rw [Bool.not_eq_true', Bool.not_eq_false] at hopen
    split at hdb
    · cases hdb
    · rename_i hguard
      rw [Bool.not_eq_true', Bool.not_eq_false] at hguard
      obtain ⟨appended, happended, hdb⟩ := Option.bind_eq_some_iff.mp hdb
      obtain ⟨rfl, hfresh⟩ := append_some happended
      cases hdb
      obtain ⟨publication, hpublished, hsource, hlive⟩ := hk.pins
      obtain ⟨row, hrow, hid, hstate, -, -, -⟩ := h.pinned hguard hpublished hsource
      -- the row that is open is the row the guard pins
      obtain ⟨row', hrow', hopen⟩ := List.any_eq_true.mp hopen
      rw [Bool.and_eq_true, beq_iff_eq, beq_iff_eq] at hopen
      obtain rfl := h.unique hrow' hrow (hopen.1.trans hid.symm)
      obtain ⟨earlier, last, hhistory, -⟩ := (h.rows row' hrow).snoc
      refine ⟨h.extend hrow rfl hid.symm hfresh
        (fun other => other.eliminate k.killedByEvidenceId k.reason (db.event digest eventId
          k.hypothesisId k.fellowId .killed
          (.kill k.hypothesisId k.killedByEvidenceId k.reason)))
        ⟨rfl, rfl, rfl, rfl⟩ ?_ (h.rows row' hrow).successor ?_,
        fun e he => List.mem_append_left _ he, fun other hother => ?_⟩
      · have htrail := (h.rows row' hrow).trail
        rw [hhistory] at htrail ⊢
        exact .killed earlier last _ k.killedByEvidenceId k.reason row'.lifecycleStatus htrail
          (hstate ▸ hlive) rfl rfl (by rw [hid]; rfl)
      · refine List.map_congr_left fun other hother => ?_
        by_cases hsame : other.hypothesisId = k.hypothesisId
        · have heq := h.unique hother hrow (hsame.trans hid.symm)
          rw [if_pos ⟨hsame, heq ▸ hopen.2⟩, if_pos (hsame.trans hid.symm)]
        · rw [if_neg fun h => hsame h.1, if_neg fun h => hsame (h.trans hid)]
      · by_cases hsame : other.hypothesisId = row'.hypothesisId
        · right
          rw [h.unique hother hrow hsame, hstate]
          exact hlive
        · exact .inl (List.mem_map.mpr ⟨other, hother, if_neg fun h => hsame (h.1.trans hid.symm)⟩)

end Asimposium.Hypotheses

/-!
## Every state of every run

The reachable states of the routes of one problem: what their readers are
given, what an ended route stays, and where successors lead.
-/

namespace Asimposium.Hypotheses

variable {digest : Payload → String}

/-! ## Steps -/

/-- The tables, the items readers hold, and the commands that wait to be
published. -/
structure System where
  db : Db
  items : List PublicHypothesis
  admissions : List Admission
  eliminations : List Elimination

/-- One step. Bodies are withheld or served again only in `controlled`
runs. -/
inductive Step (digest : Payload → String) (controlled : Prop) : System → System → Prop where
  | publish (system : System) (eventId hypothesisId fellowId content : String) (db : Db)
      (hdb : publishHypothesis digest eventId hypothesisId fellowId content system.db = some db) :
      Step digest controlled system { system with db := db }
  /-- an item is read, and may be used at any later time -/
  | read (system : System) (hypothesisId : String) (item : PublicHypothesis)
      (hitem : loadHypothesis system.db hypothesisId = some item) :
      Step digest controlled system { system with items := item :: system.items }
  | prepare (system : System) (hypothesisId fellowId : String) (request : LifecycleRequest)
      (target successor : Option PublicHypothesis) (admission : Admission)
      (htarget : ∀ item, target = some item →
        item ∈ system.items ∧ item.hypothesisId = hypothesisId)
      (hsuccessor : ∀ item successorId, successor = some item →
        request.successorHypothesisId = some successorId →
        item ∈ system.items ∧ item.hypothesisId = successorId)
      (h : prepareHypothesisLifecycle hypothesisId fellowId request target successor
        = .ok admission) :
      Step digest controlled system { system with admissions := admission :: system.admissions }
  | admitElimination (system : System) (hypothesisId fellowId evidence reason : String)
      (target : Option PublicHypothesis) (elimination : Elimination)
      (htarget : ∀ item, target = some item →
        item ∈ system.items ∧ item.hypothesisId = hypothesisId)
      (h : prepareElimination hypothesisId fellowId evidence reason target = .ok elimination) :
      Step digest controlled system
        { system with eliminations := elimination :: system.eliminations }
  | advance (system : System) (eventId : String) (admission : Admission) (db : Db)
      (hadmission : admission ∈ system.admissions)
      (hdb : publishLifecycle digest eventId admission system.db = some db) :
      Step digest controlled system { system with db := db }
  | eliminate (system : System) (eventId : String) (elimination : Elimination) (db : Db)
      (helimination : elimination ∈ system.eliminations)
      (hdb : publishElimination digest eventId elimination system.db = some db) :
      Step digest controlled system { system with db := db }
  /-- an event of another object -/
  | other (system : System) (e : Event) (db : Db) (hkind : e.objectKind = .other)
      (hdb : system.db.append e = some db) : Step digest controlled system { system with db := db }
  | withhold (system : System) (withheld : List String) (hcontrolled : controlled) :
      Step digest controlled system
        { system with db := { system.db with withheld := withheld } }

inductive Steps (digest : Payload → String) (controlled : Prop) (first : System) :
    System → Prop where
  | refl : Steps digest controlled first first
  | next {system system' : System} (h : Steps digest controlled first system)
      (step : Step digest controlled system system') : Steps digest controlled first system'

def System.initial : System := ⟨⟨[], [], []⟩, [], [], []⟩

def Reachable (digest : Payload → String) (controlled : Prop) (system : System) : Prop :=
  Steps digest controlled .initial system

/-! ## The invariant -/

structure SystemInv (controlled : Prop) (system : System) : Prop where
  lawful : Lawful system.db
  items : ∀ item ∈ system.items, Published system.db item.hypothesisId item.publication
  admissions : ∀ a ∈ system.admissions, Admitted system.db a
  eliminations : ∀ k ∈ system.eliminations, Eliminated system.db k
  served : ¬ controlled → system.db.withheld = []

theorem Admitted.mono {db db' : Db} {a : Admission} (h : Admitted db a)
    (hsub : ∀ e ∈ db.events, e ∈ db'.events) : Admitted db' a := by
  obtain ⟨guard, rest, publication, hguards, hpublished, hsource, hfellow, hpermits, hexpected,
    hsuccessor⟩ := h.pins
  refine ⟨guard, rest, publication, hguards, hpublished.mono hsub, hsource, hfellow, hpermits,
    hexpected, fun successorId hid => ?_⟩
  obtain ⟨next, hnext, later, hlater, hrest⟩ := hsuccessor successorId hid
  exact ⟨next, hnext, later, hlater.mono hsub, hrest⟩

theorem Eliminated.mono {db db' : Db} {k : Elimination} (h : Eliminated db k)
    (hsub : ∀ e ∈ db.events, e ∈ db'.events) : Eliminated db' k := by
  obtain ⟨publication, hpublished, hrest⟩ := h.pins
  exact ⟨publication, hpublished.mono hsub, hrest⟩

variable {controlled : Prop} {system : System}

theorem SystemInv.tables (h : SystemInv controlled system) {db : Db} (hlawful : Lawful db)
    (hsub : ∀ e ∈ system.db.events, e ∈ db.events) (hserved : ¬ controlled → db.withheld = []) :
    SystemInv controlled { system with db := db } where
  lawful := hlawful
  items := fun item hitem => (h.items item hitem).mono hsub
  admissions := fun a ha => (h.admissions a ha).mono hsub
  eliminations := fun k hk => (h.eliminations k hk).mono hsub
  served := hserved

theorem loadHypothesis_published {db : Db} {hypothesisId : String} {item : PublicHypothesis}
    (h : loadHypothesis db hypothesisId = some item) :
    item.hypothesisId = hypothesisId ∧ Published db hypothesisId item.publication := by
  obtain ⟨row, hrow, rfl⟩ := Option.map_eq_some_iff.mp h
  obtain ⟨creation, hcreation, hrow⟩ := Option.bind_eq_some_iff.mp hrow
  obtain ⟨head, -, hrow⟩ := Option.bind_eq_some_iff.mp hrow
  cases hrow
  have hmem := List.mem_of_mem_head? hcreation
  obtain ⟨hmem, htype⟩ := List.mem_filter.mp hmem
  exact ⟨rfl, creation, hmem, beq_iff_eq.mp htype, rfl⟩

theorem withheld_of_publish {db db' : Db} {eventId hypothesisId fellowId content : String}
    (h : publishHypothesis digest eventId hypothesisId fellowId content db = some db') :
    db'.withheld = db.withheld := by
  obtain ⟨appended, happended, h⟩ := Option.bind_eq_some_iff.mp h
  obtain ⟨rfl, -⟩ := append_some happended
  split at h
  · cases h
  · cases h
    rfl

theorem withheld_of_lifecycle {db db' : Db} {eventId : String} {a : Admission}
    (h : publishLifecycle digest eventId a db = some db') : db'.withheld = db.withheld := by
  unfold publishLifecycle at h
  simp only at h
  split at h
  · cases h
  · obtain ⟨appended, happended, h⟩ := Option.bind_eq_some_iff.mp h
    obtain ⟨rfl, -⟩ := append_some happended
    cases h
    rfl

theorem withheld_of_elimination {db db' : Db} {eventId : String} {k : Elimination}
    (h : publishElimination digest eventId k db = some db') : db'.withheld = db.withheld := by
  unfold publishElimination at h
  simp only at h
  split at h
  · cases h
  · split at h
    · cases h
    · obtain ⟨appended, happended, h⟩ := Option.bind_eq_some_iff.mp h
      obtain ⟨rfl, -⟩ := append_some happended
      cases h
      rfl

theorem other_lawful {db db' : Db} (h : Lawful db) {e : Event} (hkind : e.objectKind = .other)
    (hdb : db.append e = some db') : Lawful db' := by
  obtain ⟨rfl, hfresh⟩ := append_some hdb
  have hhistory : ∀ id, Db.history ⟨db.events ++ [e], db.hypotheses, db.withheld⟩ id
      = db.history id := by
    intro id
    have hother : ¬(e.objectKind = .hypothesis ∧ e.objectId = id) := by
      rw [hkind]
      simp
    rw [history_append, if_neg hother, List.append_nil]
  refine ⟨?_, h.rowIds, fun row hrow => ?_, fun id hid => (hhistory id).trans (h.rowless id hid)⟩
  · rw [List.map_append, List.nodup_append]
    refine ⟨h.ids, List.nodup_singleton _, fun a ha b hb => ?_⟩
    obtain ⟨old, hmem, rfl⟩ := List.mem_map.mp ha
    rw [List.mem_singleton.mp hb]
    exact hfresh old hmem
  · exact (h.rows row hrow).keep (hhistory _) fun other hother => ⟨other, hother, rfl, rfl⟩

theorem withhold_lawful {db : Db} (h : Lawful db) (withheld : List String) :
    Lawful { db with withheld := withheld } :=
  ⟨h.ids, h.rowIds, fun row hrow => (h.rows row hrow).keep rfl fun other hother =>
    ⟨other, hother, rfl, rfl⟩, h.rowless⟩

theorem systemInv_step {system' : System} (h : SystemInv controlled system)
    (hstep : Step digest controlled system system') : SystemInv controlled system' := by
  cases hstep with
  | publish eventId hypothesisId fellowId content db hdb =>
      obtain ⟨hlawful, hsub, -⟩ := publishHypothesis_lawful h.lawful hdb
      exact h.tables hlawful hsub fun hc => (withheld_of_publish hdb).trans (h.served hc)
  | read hypothesisId item hitem =>
      obtain ⟨rfl, hpublished⟩ := loadHypothesis_published hitem
      refine ⟨h.lawful, fun other hother => ?_, h.admissions, h.eliminations, h.served⟩
      rcases List.mem_cons.mp hother with rfl | hother
      · exact hpublished
      · exact h.items other hother
  | prepare hypothesisId fellowId request target successor admission htarget hsuccessor hprepared =>
      refine ⟨h.lawful, h.items, fun a ha => ?_, h.eliminations, h.served⟩
      rcases List.mem_cons.mp ha with rfl | ha
      · refine prepareHypothesisLifecycle_admitted hprepared (fun item hitem => ?_)
          fun item successorId hitem hid => ?_
        · obtain ⟨hmem, rfl⟩ := htarget item hitem
          exact h.items item hmem
        · obtain ⟨hmem, rfl⟩ := hsuccessor item successorId hitem hid
          exact h.items item hmem
      · exact h.admissions a ha
  | admitElimination hypothesisId fellowId evidence reason target elimination htarget hprepared =>
      refine ⟨h.lawful, h.items, h.admissions, fun k hk => ?_, h.served⟩
      rcases List.mem_cons.mp hk with rfl | hk
      · refine prepareElimination_eliminated hprepared fun item hitem => ?_
        obtain ⟨hmem, rfl⟩ := htarget item hitem
        exact h.items item hmem
      · exact h.eliminations k hk
  | advance eventId admission db hadmission hdb =>
      obtain ⟨hlawful, hsub, -⟩ :=
        publishLifecycle_lawful h.lawful (h.admissions admission hadmission) hdb
      exact h.tables hlawful hsub fun hc => (withheld_of_lifecycle hdb).trans (h.served hc)
  | eliminate eventId elimination db helimination hdb =>
      obtain ⟨hlawful, hsub, -⟩ :=
        publishElimination_lawful h.lawful (h.eliminations elimination helimination) hdb
      exact h.tables hlawful hsub fun hc => (withheld_of_elimination hdb).trans (h.served hc)
  | other e db hkind hdb =>
      have hlawful := other_lawful h.lawful hkind hdb
      obtain ⟨rfl, -⟩ := append_some hdb
      exact h.tables hlawful (fun e he => List.mem_append_left _ he) h.served
  | withhold withheld hcontrolled =>
      exact h.tables (withhold_lawful h.lawful withheld) (fun e he => he)
        fun hc => absurd hcontrolled hc

theorem systemInv_initial (controlled : Prop) : SystemInv controlled .initial where
  lawful := ⟨.nil, .nil, by simp [System.initial], fun _ _ => rfl⟩
  items := by simp [System.initial]
  admissions := by simp [System.initial]
  eliminations := by simp [System.initial]
  served := fun _ => rfl

theorem Steps.inv {first : System} (h : Steps digest controlled first system)
    (hfirst : SystemInv controlled first) : SystemInv controlled system := by
  induction h with
  | refl => exact hfirst
  | next h step ih => exact systemInv_step ih step

/-! ## Ended routes -/

def LifecycleStatus.ended : LifecycleStatus → Bool
  | .narrowed | .superseded | .killed => true
  | .active | .deferred => false

theorem ended_step {system' : System} (h : SystemInv controlled system)
    (hstep : Step digest controlled system system') {row : Hypothesis}
    (hrow : row ∈ system.db.hypotheses) (hended : row.lifecycleStatus.ended = true) :
    row ∈ system'.db.hypotheses := by
  have hlive : ¬(row.lifecycleStatus = .active ∨ row.lifecycleStatus = .deferred) := by
    rintro (hstatus | hstatus) <;> rw [hstatus] at hended <;> cases hended
  cases hstep with
  | publish eventId hypothesisId fellowId content db hdb =>
      exact (publishHypothesis_lawful h.lawful hdb).2.2 row hrow
  | read => exact hrow
  | prepare => exact hrow
  | admitElimination => exact hrow
  | advance eventId admission db hadmission hdb =>
      exact ((publishLifecycle_lawful h.lawful (h.admissions admission hadmission) hdb).2.2 row
        hrow).resolve_right hlive
  | eliminate eventId elimination db helimination hdb =>
      exact ((publishElimination_lawful h.lawful (h.eliminations elimination helimination) hdb).2.2
        row hrow).resolve_right hlive
  | other e db hkind hdb =>
      obtain ⟨rfl, -⟩ := append_some hdb
      exact hrow
  | withhold => exact hrow

theorem Steps.ended {later : System} (h : Steps digest controlled system later)
    (hinv : SystemInv controlled system) {row : Hypothesis} (hrow : row ∈ system.db.hypotheses)
    (hended : row.lifecycleStatus.ended = true) : row ∈ later.db.hypotheses := by
  induction h with
  | refl => exact hrow
  | next h step ih => exact ended_step (h.inv hinv) step ih hended

/-! ## Successors -/

def IsPath (db : Db) (path : List Hypothesis) : Prop :=
  (∀ row ∈ path, row ∈ db.hypotheses)
    ∧ path.IsChain fun row next => row.successorHypothesisId = some next.hypothesisId

theorem Lawful.path {db : Db} (h : Lawful db) {path : List Hypothesis} (hpath : IsPath db path) :
    path.Pairwise fun row next => row.sourceSeq < next.sourceSeq := by
  obtain ⟨hmem, hchain⟩ := hpath
  have hseqs : path.IsChain fun row next => row.sourceSeq < next.sourceSeq := by
    refine (List.isChain_iff_forall_rel_of_append_cons_cons).mpr fun row next before after heq => ?_
    have hpoints := (List.isChain_iff_forall_rel_of_append_cons_cons).mp hchain heq
    have hrow : row ∈ db.hypotheses := hmem row (by simp [heq])
    have hnext : next ∈ db.hypotheses := hmem next (by simp [heq])
    obtain ⟨found, hfound, hid, hlt⟩ := (h.rows row hrow).successor next.hypothesisId hpoints
    rw [h.unique hfound hnext hid] at hlt
    exact hlt
  exact hseqs.pairwise

/-! ## Every run -/

structure Settled (digest : Payload → String) (controlled : Prop) (system : System) : Prop where
  /-- `invalid_history` is 0 -/
  accepted : ∀ hypothesisId row, hypothesisRow system.db hypothesisId = some row →
    row.invalidHistory = false
  /-- what is read at the head is the status of the projection; only a
  control can withhold the resumption that an active status rests on -/
  heads : ∀ row ∈ system.db.hypotheses, ∃ item,
    loadHypothesis system.db row.hypothesisId = some item
      ∧ (item.status = .lifecycle row.lifecycleStatus
        ∨ (controlled ∧ row.lifecycleEventId ∈ system.db.withheld
          ∧ row.lifecycleStatus = .active ∧ item.status = .unavailable))
  absorbing : ∀ later, Steps digest controlled system later → ∀ row ∈ system.db.hypotheses,
    row.lifecycleStatus.ended = true → row ∈ later.db.hypotheses
  expected : ∀ (hypothesisId : String) (i : Nat) (previous e : Event),
    (system.db.history hypothesisId)[i]? = some previous →
    (system.db.history hypothesisId)[i + 1]? = some e → e.type.authorOnly = true →
    ∃ request, e.payload = .lifecycle hypothesisId request
      ∧ request.expectedLastEventId = previous.id
  /-- a successor is a hypothesis of the problem -/
  successors : ∀ row ∈ system.db.hypotheses, ∀ id, row.successorHypothesisId = some id →
    ∃ next ∈ system.db.hypotheses, next.hypothesisId = id
  /-- successors are later publications, and a path of them ends -/
  paths : ∀ path, IsPath system.db path →
    path.Pairwise (fun row next => row.sourceSeq < next.sourceSeq)
      ∧ path.length ≤ system.db.hypotheses.length

theorem routes_settled {controlled : Prop} {system : System}
    (h : Reachable digest controlled system) : Settled digest controlled system := by
  have hinv := h.inv (systemInv_initial controlled)
  have hlawful := hinv.lawful
  refine ⟨?_, ?_, fun later hlater row hrow hended => hlater.ended hinv hrow hended, ?_, ?_, ?_⟩
  · intro hypothesisId row hrow
    have hhistory : ∃ e, e ∈ system.db.history hypothesisId := by
      obtain ⟨creation, hcreation, -⟩ := Option.bind_eq_some_iff.mp hrow
      exact ⟨creation, List.mem_of_mem_filter (List.mem_of_mem_head? hcreation)⟩
    obtain ⟨e, he⟩ := hhistory
    obtain ⟨found, hfound, rfl⟩ := hlawful.row_of_event he
    obtain ⟨row', item, hrow', hvalid, -⟩ := (hlawful.rows found hfound).trail.read rfl
    rw [hrow, Option.some.injEq] at hrow'
    rw [hrow']
    exact hvalid
  · intro row hrow
    have hdescribes := hlawful.rows row hrow
    obtain ⟨read, item, -, -, hlast, hload, hstatus⟩ := hdescribes.trail.read rfl
    refine ⟨item, hload, hstatus.imp_right ?_⟩
    rintro ⟨hserves, hactive, hunavailable⟩
    obtain ⟨last, hlast', hid⟩ := hdescribes.head
    rw [hlast, Option.some.injEq] at hlast'
    unfold Db.serves at hserves
    rw [Bool.not_eq_false', List.contains_iff_mem, hlast', hid] at hserves
    refine ⟨?_, hserves, hactive, hunavailable⟩
    by_contra hc
    rw [hinv.served hc] at hserves
    cases hserves
  · intro hypothesisId i previous e hprevious he htype
    obtain ⟨row, hrow, rfl⟩ := hlawful.row_of_event (List.mem_of_getElem? hprevious)
    exact (hlawful.rows row hrow).trail.expected hprevious he htype
  · intro row hrow id hid
    obtain ⟨next, hnext, hnid, -⟩ := (hlawful.rows row hrow).successor id hid
    exact ⟨next, hnext, hnid⟩
  · intro path hpath
    have hsorted := hlawful.path hpath
    refine ⟨hsorted, ?_⟩
    have hnodup : path.Nodup := hsorted.imp fun hlt heq => by simp [heq] at hlt
    exact (List.subperm_of_subset hnodup hpath.1).length_le

/-! ## One supersession -/

namespace Sample

def hashed : Payload → String
  | .publication content => content
  | .lifecycle _ request => request.expectedLastEventId
  | .kill _ evidence _ => evidence
  | .other content => content

def request : LifecycleRequest := .supersede "a" "r" "H-2"

def published : Db where
  events := [⟨"a", 1, .hypothesis, "H-1", 1, .created, some "F", "x", .publication "x"⟩,
    ⟨"b", 2, .hypothesis, "H-2", 1, .created, some "G", "y", .publication "y"⟩]
  hypotheses :=
    [⟨"H-1", .open, "F", "a", 1, .active, "a", 1, none, none, none, none, none⟩,
      ⟨"H-2", .open, "G", "b", 2, .active, "b", 2, none, none, none, none, none⟩]
  withheld := []

def first : PublicHypothesis :=
  ⟨"H-1", .lifecycle .active, ⟨"a", 1, "x", some "F"⟩, some "x", ⟨"a", 1, "x", some "F"⟩, none,
    none⟩

def second : PublicHypothesis :=
  ⟨"H-2", .lifecycle .active, ⟨"b", 2, "y", some "G"⟩, some "y", ⟨"b", 2, "y", some "G"⟩, none,
    none⟩

def admission : Admission where
  hypothesisId := "H-1"
  fellowId := "F"
  request := request
  guards := [⟨.active, [.created, .resumed], "a", "a", "x", "x"⟩,
    ⟨.active, [.created, .resumed], "b", "b", "y", "y"⟩]

def superseded : Db where
  events := published.events ++
    [⟨"c", 3, .hypothesis, "H-1", 1, .superseded, some "F", "a", .lifecycle "H-1" request⟩]
  hypotheses :=
    [⟨"H-1", .refinedInto, "F", "a", 1, .superseded, "c", 3, some "H-2", none, none, none, none⟩,
      ⟨"H-2", .open, "G", "b", 2, .active, "b", 2, none, none, none, none, none⟩]
  withheld := []

def final : System := ⟨superseded, [second, first], [admission], []⟩

theorem reachable : Reachable hashed False final := by
  have hpublished : Steps hashed False .initial ⟨published, [], [], []⟩ :=
    (Steps.refl.next (.publish _ "a" "H-1" "F" "x" _ rfl)).next
      (.publish _ "b" "H-2" "G" "y" published rfl)
  have hread : Steps hashed False .initial ⟨published, [second, first], [], []⟩ :=
    (hpublished.next (.read _ "H-1" first rfl)).next (.read _ "H-2" second rfl)
  have hadmitted : Steps hashed False .initial ⟨published, [second, first], [admission], []⟩ := by
    refine hread.next (.prepare _ "H-1" "F" request (some first) (some second) admission ?_ ?_ rfl)
    · intro item hitem
      cases hitem
      exact ⟨by simp, rfl⟩
    · intro item successorId hitem hid
      cases hitem
      cases hid
      exact ⟨by simp, rfl⟩
  exact hadmitted.next (.advance _ "c" admission superseded (by simp) rfl)

end Sample

/-- A route that was superseded by a later one. -/
theorem routes_settled_superseded : Settled Sample.hashed False Sample.final :=
  routes_settled Sample.reachable

end Asimposium.Hypotheses
