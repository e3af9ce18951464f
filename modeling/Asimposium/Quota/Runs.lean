import Asimposium.Quota.Store
import Asimposium.Lib.ExceptRun
import Mathlib.Data.List.Nodup

/-!
# Runs of the quota

Calls of any number of isolates, with any readings of their clocks, against
one table. Beside the tables the state keeps, for each attempt that was
admitted, the slow mode it was admitted under and the call that made it;
nothing in the code reads this.
-/

namespace Asimposium.Quota

open SlidingWindow ExceptRun

/-! ## Steps -/

structure Call where
  params : Params
  phase : Phase

/-- An admitted attempt, the slow mode that was in force, and its call. -/
structure Admission where
  attempt : Attempt
  mode : Option Control
  call : Nat

structure System where
  db : Db
  calls : Nat → Option Call
  admitted : List Admission

def System.move (s : System) (k : Nat) (call : Call) (db : Db) (admitted : List Admission) :
    System where
  db := db
  calls := fun i => if i = k then some call else s.calls i
  admitted := admitted

def admissions (db : Db) (k : Nat) (attempts : List Attempt) : List Admission :=
  attempts.map fun q => ⟨q, db.slowMode q, k⟩

inductive Step : System → System → Prop
  | start (s : System) (k : Nat) (p : Params) (hfresh : s.calls k = none) :
      Step s (s.move k ⟨p, p.begin⟩ s.db s.admitted)
  | recover (s : System) (k : Nat) (p : Params) (sponsorLimit : Option Nat) (db : Db)
      (hphase : s.calls k = some ⟨p, .recovering sponsorLimit⟩)
      (hrun : s.db.recover p.fellowId p.now = .ok db) :
      Step s (s.move k ⟨p, .readingPolicy sponsorLimit .place⟩ db s.admitted)
  | read (s : System) (k : Nat) (p : Params) (phase : Phase)
      (hphase : s.calls k = some ⟨p, phase⟩) :
      Step s (s.move k ⟨p, p.read s.db phase⟩ s.db s.admitted)
  | place (s : System) (k : Nat) (p : Params) (sponsorLimit : Option Nat) (ids : List String)
      (db : Db) (hphase : s.calls k = some ⟨p, .inserting sponsorLimit⟩)
      (hids : ids.length = p.members.length)
      (hrun : p.admission sponsorLimit ids s.db = .ok db) :
      Step s (s.move k ⟨p, .readingPolicy sponsorLimit (.report (p.attempts sponsorLimit ids))⟩ db
        (s.admitted ++ admissions s.db k (p.attempts sponsorLimit ids)))
  | abort (s : System) (k : Nat) (p : Params) (sponsorLimit : Option Nat) (ids : List String)
      (aborts : List Abort) (abort : Abort)
      (hphase : s.calls k = some ⟨p, .inserting sponsorLimit⟩)
      (hids : ids.length = p.members.length)
      (hrun : p.admission sponsorLimit ids s.db = .error aborts) (habort : abort ∈ aborts) :
      Step s (s.move k ⟨p, afterAbort sponsorLimit abort⟩ s.db s.admitted)
  /-- A statement fails for another reason, and nothing is changed. -/
  | throw (s : System) (k : Nat) (p : Params) (phase : Phase)
      (hphase : s.calls k = some ⟨p, phase⟩) :
      Step s (s.move k ⟨p, .answered .thrown⟩ s.db s.admitted)
  /-- The recovery ran, and its response was lost. -/
  | recoverLost (s : System) (k : Nat) (p : Params) (sponsorLimit : Option Nat) (db : Db)
      (hphase : s.calls k = some ⟨p, .recovering sponsorLimit⟩)
      (hrun : s.db.recover p.fellowId p.now = .ok db) :
      Step s (s.move k ⟨p, .answered .thrown⟩ db s.admitted)
  /-- The admission was committed, and its response was lost. -/
  | placeLost (s : System) (k : Nat) (p : Params) (sponsorLimit : Option Nat) (ids : List String)
      (db : Db) (hphase : s.calls k = some ⟨p, .inserting sponsorLimit⟩)
      (hids : ids.length = p.members.length)
      (hrun : p.admission sponsorLimit ids s.db = .ok db) :
      Step s (s.move k ⟨p, .answered .thrown⟩ db
        (s.admitted ++ admissions s.db k (p.attempts sponsorLimit ids)))
  | settle (s : System) (reservationId : String) (status : SettledStatus) (now : Int) (db : Db)
      (hrun : s.db.settleQuotaReservation reservationId status now = .ok db) :
      Step s { s with db := db }
  | settleStatement (s : System) (reservationId eventId : String) (now : Int) (db : Db)
      (hrun : s.db.settleQuotaReservationStatement reservationId eventId now = .ok db) :
      Step s { s with db := db }
  /-- The settlements of other writers' batches. -/
  | settleWhere (s : System) (selects : Reservation → Bool) (status : SettledStatus)
      (settledAt : Int) (db : Db) (hrun : s.db.settleWhere selects status settledAt = .ok db) :
      Step s { s with db := db }
  | publish (s : System) (eventId : String) :
      Step s { s with db := { s.db with events := s.db.events ++ [eventId] } }
  | control (s : System) (c : Control) (db : Db) (hrun : s.db.insertControl c = .ok db) :
      Step s { s with db := db }

inductive Later (s : System) : System → Prop
  | refl : Later s s
  | step {t u : System} (hrun : Later s t) (hstep : Step t u) : Later s u

def System.empty : System := ⟨⟨[], [], []⟩, fun _ => none, []⟩

def Reachable (s : System) : Prop := Later .empty s

/-! ## What is promised -/

def Attempt.flightKey (q : Attempt) : String × String × String :=
  (q.fellowId, q.route, q.idempotencyKey)

def Db.inFlight (db : Db) : List (String × String × String) :=
  (db.reservations.filter (·.status == .reserved)).map (·.flightKey)

def Db.attempts (db : Db) : List Attempt := db.reservations.map (·.toAttempt)

/-- No window of an hour holds more than `limit` of these attempts. -/
abbrev HourBounded (selects : Attempt → Bool) (limit : Nat) (attempts : List Attempt) : Prop :=
  Bounded (·.reservedAt) promotionRateLimitWindowMs selects limit attempts

def ofFellowProblem (fellowId problemId : String) (q : Attempt) : Bool :=
  q.fellowId == fellowId && q.problemId == problemId

structure Limits (db : Db) (admitted : List Admission) : Prop where
  /-- The history is that of the table. -/
  recorded : db.attempts = admitted.map (·.attempt)
  hourly : ∀ fellowId problemId,
    HourBounded (ofFellowProblem fellowId problemId) promotionRateLimitPerHour db.attempts
  /-- Of the attempts admitted while the control was in force. -/
  slowMode : ∀ (c : Control) (fellowId problemId : String),
    Bounded (fun a : Admission => a.attempt.reservedAt) promotionRateLimitWindowMs
      (fun a => a.mode == some c && ofFellowProblem fellowId problemId a.attempt) c.limit admitted
  /-- Of the attempts admitted under a configured limit as low as this. -/
  sponsor : ∀ sponsorId limit,
    HourBounded (fun q => q.sponsorId == sponsorId && q.sponsorLimit.any (· ≤ limit)) limit
      db.attempts
  inFlight : db.inFlight.Nodup
  reservationIds : (db.attempts.map (·.reservationId)).Nodup

structure Kept (s : System) : Prop where
  limits : Limits s.db s.admitted
  /-- Where one sponsor limit is configured throughout. -/
  configured : ∀ sponsorId limit,
    (∀ q ∈ s.db.attempts, q.sponsorId = sponsorId → q.sponsorLimit = some limit) →
    HourBounded (·.sponsorId == sponsorId) limit s.db.attempts
  /-- A call has reserved nothing, or one attempt for each of its members. -/
  allOrNone : ∀ k, s.admitted.filter (·.call == k) = [] ∨ ∃ call sponsorLimit ids,
    s.calls k = some call ∧ ids.length = call.params.members.length
      ∧ (s.admitted.filter (·.call == k)).map (·.attempt) = call.params.attempts sponsorLimit ids

/-! ## Updates -/

variable {db db' : Db} {selects : Reservation → Bool}

theorem updateReservations_ok {change : Reservation → Reservation}
    (h : db.updateReservations selects change = .ok db') :
    db' = { db with reservations := db.reservations.map fun r => if selects r then change r else r }
      ∧ ∀ r ∈ db.reservations, selects r = true → r.status = .reserved := by
  unfold Db.updateReservations at h
  split at h
  · cases h
  rename_i hnone
  refine ⟨(Except.ok.inj h).symm, fun r hr hselects => ?_⟩
  rw [Bool.not_eq_true, List.any_eq_false] at hnone
  have hnot := hnone r hr
  rw [hselects, Bool.true_and, bne_iff_ne, not_not] at hnot
  exact hnot

/-- An update that settles: it writes the status and the time of settlement
alone, and the row is no longer in flight. -/
structure Settled (db db' : Db) : Prop where
  controls : db'.controls = db.controls
  attempts : db'.attempts = db.attempts
  inFlight : db'.inFlight.Sublist db.inFlight
  /-- A settled reservation is not touched. -/
  kept : ∀ r ∈ db.reservations, r.status ≠ .reserved → r ∈ db'.reservations

theorem filter_map_sublist {change : Reservation → Reservation} (rows : List Reservation)
    (hstatus : ∀ r, (change r).status ≠ .reserved) :
    (((rows.map fun r => if selects r then change r else r).filter
        fun r => r.status == .reserved).map fun r => r.flightKey).Sublist
      ((rows.filter fun r => r.status == .reserved).map fun r => r.flightKey) := by
  induction rows with
  | nil => exact List.Sublist.refl _
  | cons r rest ih =>
      rw [List.map_cons]
      by_cases hselects : selects r = true
      · have hnot : ¬((change r).status == .reserved) = true :=
          fun h => hstatus r (beq_iff_eq.mp h)
        rw [if_pos hselects,
          List.filter_cons_of_neg (p := fun r : Reservation => r.status == .reserved) hnot]
        exact ih.trans (((List.sublist_cons_self r rest).filter _).map _)
      · rw [if_neg hselects]
        by_cases hflight : (r.status == .reserved) = true
        · rw [List.filter_cons_of_pos (p := fun r : Reservation => r.status == .reserved) hflight,
            List.filter_cons_of_pos (p := fun r : Reservation => r.status == .reserved) hflight]
          exact ih.cons_cons _
        · rw [List.filter_cons_of_neg (p := fun r : Reservation => r.status == .reserved) hflight,
            List.filter_cons_of_neg (p := fun r : Reservation => r.status == .reserved) hflight]
          exact ih

theorem settled_of_update {change : Reservation → Reservation}
    (h : db.updateReservations selects change = .ok db')
    (hattempt : ∀ r, (change r).toAttempt = r.toAttempt)
    (hstatus : ∀ r, (change r).status ≠ .reserved) : Settled db db' := by
  obtain ⟨rfl, hselected⟩ := updateReservations_ok h
  refine ⟨rfl, ?_, ?_, fun r hr hsettled => ?_⟩
  · unfold Db.attempts
    rw [List.map_map]
    refine List.map_congr_left fun r _ => ?_
    rw [Function.comp_apply]
    split
    · exact hattempt r
    · rfl
  · exact filter_map_sublist db.reservations hstatus
  · refine List.mem_map.mpr ⟨r, hr, if_neg fun hselects => hsettled (hselected r hr hselects)⟩

theorem settled_recover {fellowId : String} {now : Int} (h : db.recover fellowId now = .ok db') :
    Settled db db' :=
  settled_of_update h (fun _ => rfl) fun _ => (by exact nofun)

theorem settled_settleWhere {status : SettledStatus} {settledAt : Int}
    (h : db.settleWhere selects status settledAt = .ok db') : Settled db db' :=
  settled_of_update h (fun _ => rfl) fun _ => status.property

variable {admitted : List Admission}

theorem Limits.settled (h : Limits db admitted) (hsettled : Settled db db') :
    Limits db' admitted where
  recorded := hsettled.attempts ▸ h.recorded
  hourly := hsettled.attempts ▸ h.hourly
  slowMode := h.slowMode
  sponsor := hsettled.attempts ▸ h.sponsor
  inFlight := hsettled.inFlight.nodup h.inFlight
  reservationIds := hsettled.attempts ▸ h.reservationIds

/-! ## Insertions -/

theorem insertReservation_ok {q : Attempt} (h : db.insertReservation q = .ok db') :
    db' = { db with reservations := db.reservations ++ [⟨q, none, .reserved⟩] }
      ∧ db.attemptCap q = false ∧ db.slowModeCap q = false ∧ db.sponsorCap q = false
      ∧ db.notUnique q = false := by
  unfold Db.insertReservation at h
  split at h
  · rename_i hnone
    unfold Db.refusals at hnone
    rw [List.append_eq_nil_iff, List.append_eq_nil_iff] at hnone
    obtain ⟨⟨hfellow, hsponsor⟩, hunique⟩ := hnone
    have hfalse : ∀ {b : Bool} {a : Abort}, (if b then [a] else []) = [] → b = false := by
      intro b a hb
      cases b with
      | false => rfl
      | true => cases hb
    have hcaps := hfalse hfellow
    rw [Bool.or_eq_false_iff] at hcaps
    exact ⟨(Except.ok.inj h).symm, hcaps.1, hcaps.2, hfalse hsponsor, hfalse hunique⟩
  · cases h

theorem countRecent_eq (selects : Attempt → Bool) (reservedAt : Int) (db : Db) :
    countRecent selects reservedAt db.reservations
      = db.attempts.countP fun q =>
          selects q && recent (·.reservedAt) promotionRateLimitWindowMs reservedAt q := by
  unfold countRecent Db.attempts
  rw [List.countP_map]
  rfl

theorem attempts_snoc (db : Db) (q : Attempt) :
    Db.attempts { db with reservations := db.reservations ++ [⟨q, none, .reserved⟩] }
      = db.attempts ++ [q] := by
  unfold Db.attempts
  rw [List.map_append]
  rfl

theorem slowMode_count (h : Limits db admitted) {q : Attempt} {c : Control}
    (hmode : db.slowMode q = some c) (hslow : db.slowModeCap q = false) :
    admitted.countP (fun a => (a.mode == some c
        && ofFellowProblem q.fellowId q.problemId a.attempt)
      && recent (fun a : Admission => a.attempt.reservedAt) promotionRateLimitWindowMs q.reservedAt a)
        < c.limit := by
  unfold Db.slowModeCap at hslow
  rw [hmode, Option.any_some, decide_eq_false_iff_not, Nat.not_le, countRecent_eq, h.recorded,
    List.countP_map] at hslow
  refine Nat.lt_of_le_of_lt (List.countP_mono_left fun a _ hcount => ?_) hslow
  obtain ⟨hselects, hrecent⟩ := Bool.and_eq_true_iff.mp hcount
  exact Bool.and_eq_true_iff.mpr ⟨(Bool.and_eq_true_iff.mp hselects).2, hrecent⟩

theorem Limits.insert (h : Limits db admitted) {q : Attempt} (k : Nat)
    (hinsert : db.insertReservation q = .ok db') :
    Limits db' (admitted ++ [⟨q, db.slowMode q, k⟩]) := by
  obtain ⟨rfl, hcap, hslow, hsponsor, hunique⟩ := insertReservation_ok hinsert
  unfold Db.attemptCap at hcap
  rw [decide_eq_false_iff_not, Nat.not_le, countRecent_eq] at hcap
  unfold Db.notUnique at hunique
  rw [List.any_eq_false] at hunique
  constructor
  · rw [attempts_snoc, List.map_append, h.recorded]
    rfl
  · intro fellowId problemId
    rw [attempts_snoc]
    refine (h.hourly fellowId problemId).snoc fun hq => ?_
    unfold ofFellowProblem at hq ⊢
    obtain ⟨hfellow, hproblem⟩ := Bool.and_eq_true_iff.mp hq
    rw [← beq_iff_eq.mp hfellow, ← beq_iff_eq.mp hproblem]
    exact hcap
  · intro c fellowId problemId
    refine (h.slowMode c fellowId problemId).snoc fun hq => ?_
    obtain ⟨hmode, hwhose⟩ := Bool.and_eq_true_iff.mp hq
    obtain ⟨hfellow, hproblem⟩ := Bool.and_eq_true_iff.mp hwhose
    rw [← beq_iff_eq.mp hfellow, ← beq_iff_eq.mp hproblem]
    exact slowMode_count h (beq_iff_eq.mp hmode) hslow
  · intro sponsorId limit
    rw [attempts_snoc]
    refine (h.sponsor sponsorId limit).snoc fun hq => ?_
    obtain ⟨hwhose, hlimit⟩ := Bool.and_eq_true_iff.mp hq
    cases hown : q.sponsorLimit with
    | none =>
        rw [hown] at hlimit
        cases hlimit
    | some own =>
        rw [hown, Option.any_some, decide_eq_true_eq] at hlimit
        unfold Db.sponsorCap at hsponsor
        rw [hown, Option.any_some, decide_eq_false_iff_not, Nat.not_le, countRecent_eq] at hsponsor
        refine Nat.lt_of_lt_of_le (countP_recent_lt (fun r _ hr => ?_) hsponsor) hlimit
        rw [beq_iff_eq.mp hwhose]
        exact (Bool.and_eq_true_iff.mp hr).1
  · unfold Db.inFlight
    rw [List.filter_append, List.map_append, List.nodup_append]
    refine ⟨h.inFlight, List.nodup_singleton _, fun key hkey other hother => ?_⟩
    obtain ⟨r, hr, rfl⟩ := List.mem_map.mp hkey
    obtain ⟨hrow, hflight⟩ := List.mem_filter.mp hr
    rw [List.mem_singleton.mp hother]
    intro heq
    obtain ⟨hfellow, hrest⟩ := Prod.mk.inj heq
    obtain ⟨hroute, hkey⟩ := Prod.mk.inj hrest
    refine hunique r hrow ?_
    simp only [Bool.or_eq_true, Bool.and_eq_true, beq_iff_eq]
    exact .inr ⟨⟨⟨beq_iff_eq.mp hflight, hfellow⟩, hroute⟩, hkey⟩
  · rw [attempts_snoc, List.map_append, List.nodup_append]
    refine ⟨h.reservationIds, List.nodup_singleton _, fun id hid other hother => ?_⟩
    obtain ⟨attempt, hattempt, rfl⟩ := List.mem_map.mp hid
    obtain ⟨r, hr, rfl⟩ := List.mem_map.mp hattempt
    rw [List.mem_singleton.mp hother]
    intro heq
    exact hunique r hr (Bool.or_eq_true_iff.mpr (.inl (beq_iff_eq.mpr heq)))

theorem slowMode_eq (h : db'.controls = db.controls) (q : Attempt) :
    db'.slowMode q = db.slowMode q := by
  unfold Db.slowMode Db.currentControl
  rw [h]

theorem Limits.insertAll {attempts : List Attempt} (k : Nat) : ∀ {db db' : Db}
    {admitted : List Admission}, Limits db admitted → db.insertAll attempts = .ok db' →
      Limits db' (admitted ++ admissions db k attempts) := by
  induction attempts with
  | nil =>
      intro db db' admitted h hrun
      obtain rfl := Except.ok.inj hrun
      unfold admissions
      rw [List.map_nil, List.append_nil]
      exact h
  | cons q rest ih =>
      intro db db' admitted h hrun
      unfold Db.insertAll at hrun
      rw [List.foldlM_cons] at hrun
      obtain ⟨mid, hinsert, hrest⟩ := bind_ok.mp hrun
      have hcontrols : mid.controls = db.controls := by
        obtain ⟨rfl, -⟩ := insertReservation_ok hinsert
        rfl
      have hkept := ih (h.insert k hinsert) hrest
      rw [List.append_assoc] at hkept
      have hmodes : admissions mid k rest = admissions db k rest :=
        List.map_congr_left fun r _ => by rw [slowMode_eq hcontrols]
      rw [hmodes] at hkept
      exact hkept

variable {p : Params}

theorem Limits.admission (h : Limits db admitted) (k : Nat) {sponsorLimit : Option Nat}
    {ids : List String} (hrun : p.admission sponsorLimit ids db = .ok db') :
    Limits db' (admitted ++ admissions db k (p.attempts sponsorLimit ids)) := by
  unfold Params.admission at hrun
  split at hrun
  · obtain ⟨mid, hrecover, hinsert⟩ := bind_ok.mp hrun
    have hsettled := settled_recover hrecover
    have hkept := (h.settled hsettled).insertAll k hinsert
    have hmodes : admissions mid k (p.attempts sponsorLimit ids)
        = admissions db k (p.attempts sponsorLimit ids) :=
      List.map_congr_left fun r _ => by rw [slowMode_eq hsettled.controls]
    rwa [hmodes] at hkept
  · exact h.insertAll k hrun

theorem Limits.frame (h : Limits db admitted) (hrows : db'.reservations = db.reservations) :
    Limits db' admitted := by
  have hattempts : db'.attempts = db.attempts := by
    unfold Db.attempts
    rw [hrows]
  have hflight : db'.inFlight = db.inFlight := by
    unfold Db.inFlight
    rw [hrows]
  exact ⟨hattempts ▸ h.recorded, hattempts ▸ h.hourly, h.slowMode, hattempts ▸ h.sponsor,
    hflight ▸ h.inFlight, hattempts ▸ h.reservationIds⟩

/-! ## Runs -/

def Goal.isAdmit : Goal → Bool
  | .place => true
  | _ => false

def Phase.beforeInsert : Phase → Bool
  | .waiting => true
  | .recovering _ => true
  | .readingPolicy _ goal => goal.isAdmit
  | .countingFellow _ _ goal => goal.isAdmit
  | .countingSponsor _ _ _ goal => goal.isAdmit
  | .checkingKey _ _ => true
  | .inserting _ => true
  | .answered _ => false

theorem read_beforeInsert {phase : Phase} (h : (p.read db phase).beforeInsert = true) :
    phase.beforeInsert = true := by
  cases phase with
  | readingPolicy sponsorLimit goal =>
      unfold Params.read at h
      dsimp only at h
      split at h
      · cases h
      · exact h
  | countingFellow sponsorLimit policy goal => exact h
  | countingSponsor sponsorLimit policy fellowCount goal =>
      cases goal with
      | place => rfl
      | refuse dimension => cases h
      | report reservations => cases h
  | checkingKey sponsorLimit budget => rfl
  | waiting => rfl
  | recovering sponsorLimit => rfl
  | inserting sponsorLimit => rfl
  | answered result => cases h

def System.entries (s : System) (k : Nat) : List Admission := s.admitted.filter (·.call == k)

structure Inv (s : System) : Prop where
  limits : Limits s.db s.admitted
  /-- A call that has not come to its insertion has reserved nothing. -/
  fresh : ∀ k, (∀ call, s.calls k = some call → call.phase.beforeInsert = true) → s.entries k = []
  allOrNone : ∀ k, s.entries k = [] ∨ ∃ call sponsorLimit ids, s.calls k = some call
    ∧ ids.length = call.params.members.length
    ∧ (s.entries k).map (·.attempt) = call.params.attempts sponsorLimit ids

theorem inv_empty : Inv .empty where
  limits :=
    { recorded := rfl
      hourly := fun _ _ => bounded_nil
      slowMode := fun _ _ _ => bounded_nil
      sponsor := fun _ _ => bounded_nil
      inFlight := List.nodup_nil
      reservationIds := List.nodup_nil }
  fresh := fun _ _ => rfl
  allOrNone := fun _ => .inl rfl

theorem move_calls_self (s : System) (k : Nat) (call : Call) (db : Db) (admitted : List Admission) :
    (s.move k call db admitted).calls k = some call := if_pos rfl

theorem move_calls_other (s : System) {k i : Nat} (call : Call) (db : Db)
    (admitted : List Admission) (h : i ≠ k) :
    (s.move k call db admitted).calls i = s.calls i := if_neg h

variable {s : System}

theorem Inv.tables (h : Inv s) (hlimits : Limits db s.admitted) :
    Inv { s with db := db } where
  limits := hlimits
  fresh := h.fresh
  allOrNone := h.allOrNone

theorem Inv.move (h : Inv s) {k : Nat} {call : Call} (hlimits : Limits db s.admitted)
    (hfresh : call.phase.beforeInsert = true →
      ∀ old, s.calls k = some old → old.phase.beforeInsert = true)
    (hparams : ∀ old, s.calls k = some old → old.params = call.params) :
    Inv (s.move k call db s.admitted) where
  limits := hlimits
  fresh := by
    intro i hbefore
    by_cases hi : i = k
    · subst hi
      exact h.fresh i (hfresh (hbefore call (move_calls_self s i call db s.admitted)))
    · refine h.fresh i fun old hold => hbefore old ?_
      rw [move_calls_other s call db s.admitted hi]
      exact hold
  allOrNone := by
    intro i
    rcases h.allOrNone i with hnone | ⟨old, sponsorLimit, ids, hold, hids, hentries⟩
    · exact .inl hnone
    · right
      by_cases hi : i = k
      · subst hi
        rw [hparams old hold] at hids hentries
        exact ⟨call, sponsorLimit, ids, move_calls_self s i call db s.admitted, hids, hentries⟩
      · refine ⟨old, sponsorLimit, ids, ?_, hids, hentries⟩
        rw [move_calls_other s call db s.admitted hi]
        exact hold

theorem admissions_attempts (db : Db) (k : Nat) (attempts : List Attempt) :
    (admissions db k attempts).map (·.attempt) = attempts := by
  unfold admissions
  rw [List.map_map]
  exact List.map_id _

theorem admissions_filter (db : Db) (k i : Nat) (attempts : List Attempt) :
    (admissions db k attempts).filter (·.call == i)
      = if i = k then admissions db k attempts else [] := by
  split
  · rename_i hi
    refine List.filter_eq_self.mpr fun a ha => ?_
    obtain ⟨q, -, rfl⟩ := List.mem_map.mp ha
    exact beq_iff_eq.mpr hi.symm
  · rename_i hi
    refine List.filter_eq_nil_iff.mpr fun a ha => ?_
    obtain ⟨q, -, rfl⟩ := List.mem_map.mp ha
    exact fun heq => hi (beq_iff_eq.mp heq).symm

theorem Inv.place (h : Inv s) {k : Nat} {sponsorLimit : Option Nat} {ids : List String}
    {phase : Phase} (hphase : s.calls k = some ⟨p, .inserting sponsorLimit⟩)
    (hids : ids.length = p.members.length) (hrun : p.admission sponsorLimit ids s.db = .ok db)
    (hafter : phase.beforeInsert = false) :
    Inv (s.move k ⟨p, phase⟩ db
      (s.admitted ++ admissions s.db k (p.attempts sponsorLimit ids))) := by
  have hnone : s.entries k = [] := by
    refine h.fresh k fun old hold => ?_
    rw [hphase] at hold
    rw [← Option.some.inj hold]
    rfl
  have hentries : ∀ i, (s.move k ⟨p, phase⟩ db
      (s.admitted ++ admissions s.db k (p.attempts sponsorLimit ids))).entries i
        = s.entries i ++ if i = k then admissions s.db k (p.attempts sponsorLimit ids) else [] := by
    intro i
    unfold System.entries
    show (s.admitted ++ admissions s.db k (p.attempts sponsorLimit ids)).filter _ = _
    rw [List.filter_append, admissions_filter]
  refine ⟨h.limits.admission k hrun, fun i hbefore => ?_, fun i => ?_⟩
  · rw [hentries]
    by_cases hi : i = k
    · subst hi
      have hopen := hbefore ⟨p, phase⟩ (move_calls_self ..)
      rw [hafter] at hopen
      cases hopen
    · rw [if_neg hi, List.append_nil]
      refine h.fresh i fun old hold => hbefore old ?_
      rw [move_calls_other s _ _ _ hi]
      exact hold
  · rw [hentries]
    by_cases hi : i = k
    · subst hi
      refine .inr ⟨⟨p, phase⟩, sponsorLimit, ids, move_calls_self .., hids, ?_⟩
      rw [if_pos rfl, hnone, List.nil_append, admissions_attempts]
    · rw [if_neg hi, List.append_nil]
      rcases h.allOrNone i with hempty | ⟨old, limit, oldIds, hold, hlength, hold'⟩
      · exact .inl hempty
      · refine .inr ⟨old, limit, oldIds, ?_, hlength, hold'⟩
        rw [move_calls_other s _ _ _ hi]
        exact hold

theorem insertControl_reservations {c : Control} (h : db.insertControl c = .ok db') :
    db'.reservations = db.reservations := by
  unfold Db.insertControl at h
  dsimp only at h
  split at h
  · obtain rfl := Except.ok.inj h
    rfl
  · cases h

theorem inv_step {t : System} (h : Inv s) (hstep : Step s t) : Inv t := by
  cases hstep with
  | start k p hfresh =>
      refine h.move h.limits (fun _ old hold => ?_) fun old hold => ?_
      · rw [hfresh] at hold
        cases hold
      · rw [hfresh] at hold
        cases hold
  | recover k p sponsorLimit db hphase hrun =>
      refine h.move (h.limits.settled (settled_recover hrun)) (fun _ old hold => ?_)
        fun old hold => ?_
      · rw [hphase] at hold
        rw [← Option.some.inj hold]
        rfl
      · rw [hphase] at hold
        rw [← Option.some.inj hold]
  | read k p phase hphase =>
      refine h.move h.limits (fun hafter old hold => ?_) fun old hold => ?_
      · rw [hphase] at hold
        rw [← Option.some.inj hold]
        exact read_beforeInsert hafter
      · rw [hphase] at hold
        rw [← Option.some.inj hold]
  | place k p sponsorLimit ids db hphase hids hrun => exact h.place hphase hids hrun rfl
  | abort k p sponsorLimit ids aborts abort hphase hids hrun habort =>
      refine h.move h.limits (fun _ old hold => ?_) fun old hold => ?_
      · rw [hphase] at hold
        rw [← Option.some.inj hold]
        rfl
      · rw [hphase] at hold
        rw [← Option.some.inj hold]
  | throw k p phase hphase =>
      refine h.move h.limits (fun hafter => by cases hafter) fun old hold => ?_
      rw [hphase] at hold
      rw [← Option.some.inj hold]
  | recoverLost k p sponsorLimit db hphase hrun =>
      refine h.move (h.limits.settled (settled_recover hrun)) (fun hafter => by cases hafter)
        fun old hold => ?_
      rw [hphase] at hold
      rw [← Option.some.inj hold]
  | placeLost k p sponsorLimit ids db hphase hids hrun => exact h.place hphase hids hrun rfl
  | settle reservationId status now db hrun =>
      exact h.tables (h.limits.settled (settled_settleWhere hrun))
  | settleStatement reservationId eventId now db hrun =>
      exact h.tables (h.limits.settled (settled_settleWhere hrun))
  | settleWhere selects status settledAt db hrun =>
      exact h.tables (h.limits.settled (settled_settleWhere hrun))
  | publish eventId => exact h.tables (h.limits.frame rfl)
  | control c db hrun => exact h.tables (h.limits.frame (insertControl_reservations hrun))

theorem insertAll_keeps {attempts : List Attempt} : ∀ {db db' : Db},
    db.insertAll attempts = .ok db' → ∀ r ∈ db.reservations, r ∈ db'.reservations := by
  induction attempts with
  | nil =>
      intro db db' hrun r hr
      obtain rfl := Except.ok.inj hrun
      exact hr
  | cons q rest ih =>
      intro db db' hrun r hr
      unfold Db.insertAll at hrun
      rw [List.foldlM_cons] at hrun
      obtain ⟨mid, hinsert, hrest⟩ := bind_ok.mp hrun
      obtain ⟨rfl, -⟩ := insertReservation_ok hinsert
      exact ih hrest r (List.mem_append_left _ hr)

theorem admission_keeps {sponsorLimit : Option Nat} {ids : List String}
    (hrun : p.admission sponsorLimit ids db = .ok db') {r : Reservation}
    (hr : r ∈ db.reservations) (hsettled : r.status ≠ .reserved) : r ∈ db'.reservations := by
  unfold Params.admission at hrun
  split at hrun
  · obtain ⟨mid, hrecover, hinsert⟩ := bind_ok.mp hrun
    exact insertAll_keeps hinsert r ((settled_recover hrecover).kept r hr hsettled)
  · exact insertAll_keeps hrun r hr

theorem settled_step {t : System} (hstep : Step s t) {r : Reservation}
    (hr : r ∈ s.db.reservations) (hsettled : r.status ≠ .reserved) : r ∈ t.db.reservations := by
  cases hstep with
  | start k p hfresh => exact hr
  | recover k p sponsorLimit db hphase hrun => exact (settled_recover hrun).kept r hr hsettled
  | read k p phase hphase => exact hr
  | place k p sponsorLimit ids db hphase hids hrun => exact admission_keeps hrun hr hsettled
  | abort k p sponsorLimit ids aborts abort hphase hids hrun habort => exact hr
  | throw k p phase hphase => exact hr
  | recoverLost k p sponsorLimit db hphase hrun => exact (settled_recover hrun).kept r hr hsettled
  | placeLost k p sponsorLimit ids db hphase hids hrun => exact admission_keeps hrun hr hsettled
  | settle reservationId status now db hrun => exact (settled_settleWhere hrun).kept r hr hsettled
  | settleStatement reservationId eventId now db hrun =>
      exact (settled_settleWhere hrun).kept r hr hsettled
  | settleWhere selects status settledAt db hrun =>
      exact (settled_settleWhere hrun).kept r hr hsettled
  | publish eventId => exact hr
  | control c db hrun =>
      rw [insertControl_reservations hrun]
      exact hr

theorem reachable_inv (h : Reachable s) : Inv s := by
  induction h with
  | refl => exact inv_empty
  | step _ hstep ih => exact inv_step ih hstep

theorem Later.settled {t : System} (h : Later s t) {r : Reservation} (hr : r ∈ s.db.reservations)
    (hsettled : r.status ≠ .reserved) : r ∈ t.db.reservations := by
  induction h with
  | refl => exact hr
  | step _ hstep ih => exact settled_step hstep ih hsettled

theorem Inv.kept (h : Inv s) : Kept s where
  limits := h.limits
  configured := by
    intro sponsorId limit hconfigured
    refine (h.limits.sponsor sponsorId limit).mono fun q hq hsponsor => ?_
    rw [hsponsor, hconfigured q hq (beq_iff_eq.mp hsponsor), Option.any_some, Bool.true_and,
      decide_eq_true_eq]
  allOrNone := h.allOrNone

/-- In every reachable state every window is within its limit, an attempt in
flight is alone under its key, a call has reserved all it asked for or
nothing, and what is settled stays as it is. -/
theorem quota_windows_kept {s : System} (hrun : Reachable s) :
    Kept s ∧ ∀ t, Later s t → ∀ r ∈ s.db.reservations, r.status ≠ .reserved →
      r ∈ t.db.reservations :=
  ⟨(reachable_inv hrun).kept, fun _ hlater _ hr hsettled => hlater.settled hr hsettled⟩

def promotionParams : Params where
  batch := false
  fellowId := "F-1"
  problemId := "P-1"
  sponsorId := "S-1"
  sessionId := "S-0"
  members := [⟨"promote", "key", "digest"⟩]
  now := 5000
  sponsorLimit := .absent

/-- One promotion, reserved and settled as published. -/
theorem quota_windows_kept_promotion : ∃ s : System,
    s.db.reservations.map (·.status) = [.settledPublished] ∧ Kept s
      ∧ ∀ t, Later s t → ∀ r ∈ s.db.reservations, r.status ≠ .reserved → r ∈ t.db.reservations := by
  have hstart := Later.refl.step (Step.start .empty 0 promotionParams rfl)
  have hrecovered := hstart.step (Step.recover _ 0 promotionParams none _ rfl rfl)
  have hpolicy := hrecovered.step (Step.read _ 0 promotionParams _ rfl)
  have hfellow := hpolicy.step (Step.read _ 0 promotionParams _ rfl)
  have hsponsor := hfellow.step (Step.read _ 0 promotionParams _ rfl)
  have hkey := hsponsor.step (Step.read _ 0 promotionParams _ rfl)
  have hadmitted := hkey.step (Step.place _ 0 promotionParams none ["Q-1"] _ rfl rfl rfl)
  have hsettled := hadmitted.step
    (Step.settle _ "Q-1" ⟨.settledPublished, by decide⟩ 6000 _ rfl)
  exact ⟨_, rfl, quota_windows_kept hsettled⟩

end Asimposium.Quota
