import Asimposium.Sessions.IdleSweep

/-!
# Idle sessions are closed whole, and once

A batch either does nothing or closes an open session at the deadline that the
sweep read, with its leases and its notice. A closed session stays closed, so no
later batch acts on it. Once a sweep has read a session, no heartbeat of it
commits any more: its deadline has passed, and a heartbeat asks for one that has
not.
-/

namespace Asimposium.Sessions

variable {noticeId : String → String}

/-! ## One batch -/

structure ClosedWhole (noticeId : String → String) (now : Int) (s : SessionRow)
    (before after : Store) : Prop where
  sessions : after.sessions
    = updateSession s.sessionId ({ · with closedAt := some now }) before.sessions
  leases : after.leases = before.leases.map fun l =>
    if l.sessionId = s.sessionId ∧ l.held = true then
      { l with status := .expired, updatedAt := now }
    else l
  notices : after.notices
    = before.notices ++ [idleNotice (noticeId s.sessionId) now s before.notices]

/-- `session_id` is the primary key. -/
def Keyed (sessions : List SessionRow) : Prop := (sessions.map (·.sessionId)).Nodup

theorem Keyed.eq {sessions : List SessionRow} (h : Keyed sessions) {r s : SessionRow}
    (hr : r ∈ sessions) (hs : s ∈ sessions) (heq : r.sessionId = s.sessionId) : r = s :=
  List.inj_on_of_nodup_map h hr hs heq

theorem stillIdle_iff {sessionId : String} {deadline now : Int} {s : SessionRow} :
    stillIdle sessionId deadline now s = true
      ↔ s.sessionId = sessionId ∧ s.closedAt = none ∧ s.idleCloseAt = deadline ∧ deadline ≤ now := by
  unfold stillIdle
  simp only [Bool.and_eq_true, beq_iff_eq, Option.isNone_iff_eq_none, decide_eq_true_eq, and_assoc]
  constructor
  · rintro ⟨hid, hopen, rfl, hpassed⟩
    exact ⟨hid, hopen, rfl, hpassed⟩
  · rintro ⟨hid, hopen, rfl, hpassed⟩
    exact ⟨hid, hopen, rfl, hpassed⟩

theorem sweepBatch_some {sessionId : String} {deadline now : Int} {store after : Store}
    (h : sweepBatch noticeId sessionId deadline now store = some after) :
    after = closeStatement now (stillIdle sessionId deadline now)
      (leasesStatement now (stillIdle sessionId deadline now)
        (noticeStatement (noticeId sessionId) now (stillIdle sessionId deadline now) store)) := by
  unfold sweepBatch at h
  dsimp only at h
  split at h
  · cases h
  · exact (Option.some.inj h).symm

theorem sweepBatch_kept {sessionId : String} {deadline now : Int} {store after : Store}
    (hkept : store.sessions.any (stillIdle sessionId deadline now) = false)
    (h : sweepBatch noticeId sessionId deadline now store = some after) : after = store := by
  have hnone (s : SessionRow) (hs : s ∈ store.sessions) :
      stillIdle sessionId deadline now s = false :=
    Bool.not_eq_true _ ▸ List.any_eq_false.mp hkept s hs
  have hfind : store.sessions.find? (stillIdle sessionId deadline now) = none :=
    List.find?_eq_none.mpr fun s hs => by rw [hnone s hs]; exact Bool.false_ne_true
  have hfilter : store.sessions.filter (stillIdle sessionId deadline now) = [] :=
    List.filter_eq_nil_iff.mpr fun s hs => by rw [hnone s hs]; exact Bool.false_ne_true
  have hmap : store.sessions.map
      (fun s => if stillIdle sessionId deadline now s then { s with closedAt := some now } else s)
        = store.sessions := by
    rw [List.map_congr_left fun s hs => if_neg (by rw [hnone s hs]; exact Bool.false_ne_true)]
    exact List.map_id' _
  rw [sweepBatch_some h]
  simp only [noticeStatement, hfind, leasesStatement, hfilter, closeStatement, hmap,
    List.map_nil, List.contains_nil, Bool.false_and, Bool.false_eq_true, if_false, List.map_id']

theorem sweepBatch_closed {deadline now : Int} {store after : Store} {s : SessionRow}
    (hkeyed : Keyed store.sessions) (hs : s ∈ store.sessions)
    (hidle : stillIdle s.sessionId deadline now s = true)
    (hfresh : noticeId s.sessionId ∉ store.notices.map (·.id))
    (h : sweepBatch noticeId s.sessionId deadline now store = some after) :
    ClosedWhole noticeId now s store after := by
  have hiff (r : SessionRow) (hr : r ∈ store.sessions) :
      stillIdle s.sessionId deadline now r = true ↔ r.sessionId = s.sessionId := by
    constructor
    · exact fun hguard => (stillIdle_iff.mp hguard).1
    · intro hid
      rwa [hkeyed.eq hr hs hid]
  have hfind : store.sessions.find? (stillIdle s.sessionId deadline now) = some s := by
    cases hfound : store.sessions.find? (stillIdle s.sessionId deadline now) with
    | none => exact absurd hidle (List.find?_eq_none.mp hfound s hs)
    | some r =>
        have hr := List.mem_of_find?_eq_some hfound
        rw [hkeyed.eq hr hs ((hiff r hr).mp (List.find?_some hfound))]
  have hnotice : store.notices.any (·.id == noticeId s.sessionId) = false := by
    rw [List.any_eq_false]
    intro n hn hsame
    exact hfresh (beq_iff_eq.mp hsame ▸ List.mem_map_of_mem hn)
  have hwritten : noticeStatement (noticeId s.sessionId) now (stillIdle s.sessionId deadline now)
      store = { store with
        notices := store.notices ++ [idleNotice (noticeId s.sessionId) now s store.notices] } := by
    unfold noticeStatement
    rw [hfind]
    dsimp only
    rw [hnotice]
    rfl
  have hcontains (l : LeaseRow) : ((store.sessions.filter
      (stillIdle s.sessionId deadline now)).map (·.sessionId)).contains l.sessionId = true
        ↔ l.sessionId = s.sessionId := by
    rw [List.contains_iff_mem, List.mem_map]
    constructor
    · rintro ⟨r, hr, heq⟩
      obtain ⟨hmem, hguard⟩ := List.mem_filter.mp hr
      rw [← heq, (hiff r hmem).mp hguard]
    · intro heq
      exact ⟨s, List.mem_filter.mpr ⟨hs, hidle⟩, heq.symm⟩
  rw [sweepBatch_some h, hwritten]
  refine ⟨?_, ?_, rfl⟩
  · refine List.map_congr_left fun r hr => ?_
    by_cases hid : r.sessionId = s.sessionId
    · rw [if_pos ((hiff r hr).mpr hid), if_pos hid]
    · rw [if_neg (fun hguard => hid ((hiff r hr).mp hguard)), if_neg hid]
  · refine List.map_congr_left fun l _ => ?_
    by_cases hlease : l.sessionId = s.sessionId ∧ l.held = true
    · rw [if_pos hlease, if_pos (Bool.and_eq_true_iff.mpr ⟨(hcontains l).mpr hlease.1, hlease.2⟩)]
    · rw [if_neg hlease, if_neg (fun hboth => hlease
        ⟨(hcontains l).mp (Bool.and_eq_true_iff.mp hboth).1, (Bool.and_eq_true_iff.mp hboth).2⟩)]

/-! ## What a step does to a session -/

structure SessionRow.Continues (now : Int) (r r' : SessionRow) : Prop where
  sessionId : r'.sessionId = r.sessionId
  closed : r.closedAt ≠ none → r'.closedAt ≠ none
  deadline : r'.closedAt = none → r'.idleCloseAt = r.idleCloseAt ∨ now < r.idleCloseAt

theorem SessionRow.Continues.refl (now : Int) (r : SessionRow) : r.Continues now r :=
  ⟨rfl, id, fun _ => .inl rfl⟩

def Continue (now : Int) (sessions sessions' : List SessionRow) : Prop :=
  ∀ r ∈ sessions, ∃ r' ∈ sessions', r.Continues now r'

theorem Continue.refl (now : Int) (sessions : List SessionRow) : Continue now sessions sessions :=
  fun r hr => ⟨r, hr, .refl now r⟩

theorem updateSession_keyed {sessions : List SessionRow} (h : Keyed sessions) {sessionId : String}
    {change : SessionRow → SessionRow} (hid : ∀ r, (change r).sessionId = r.sessionId) :
    Keyed (updateSession sessionId change sessions) := by
  have hids : (updateSession sessionId change sessions).map (·.sessionId)
      = sessions.map (·.sessionId) := by
    unfold updateSession
    rw [List.map_map]
    refine List.map_congr_left fun r _ => ?_
    show (if r.sessionId = sessionId then change r else r).sessionId = r.sessionId
    split
    · exact hid r
    · rfl
  unfold Keyed
  rwa [hids]

theorem updateSession_continue {sessions : List SessionRow} {now : Int} {s : SessionRow}
    {change : SessionRow → SessionRow} (hkeyed : Keyed sessions) (hs : s ∈ sessions)
    (h : s.Continues now (change s)) :
    Continue now sessions (updateSession s.sessionId change sessions) := by
  intro r hr
  refine ⟨_, List.mem_map_of_mem hr, ?_⟩
  split
  · rename_i hid
    rw [hkeyed.eq hr hs hid]
    exact h
  · exact .refl now r

/-! ## The invariant -/

def Closed (sessionId : String) (sessions : List SessionRow) : Prop :=
  ∃ s ∈ sessions, s.sessionId = sessionId ∧ s.closedAt ≠ none

/-- What a sweep at an instant read of a session still holds, unless the session
was closed. -/
def StillObserved (now : Int) (sessions : List SessionRow) (observed : String × Int) : Prop :=
  observed.2 ≤ now ∧ ∃ s ∈ sessions, s.sessionId = observed.1
    ∧ (s.closedAt = none → s.idleCloseAt = observed.2)

structure Inv (noticeId : String → String) (w : World) : Prop where
  keyed : Keyed w.store.sessions
  noticed : ∀ n ∈ w.store.notices, ∀ sessionId, n.id = noticeId sessionId →
    Closed sessionId w.store.sessions
  selecting : ∀ k now fellowId limit, w.sweeps k = .selecting now fellowId limit → now ≤ w.now
  closing : ∀ k now todo, w.sweeps k = .closing now todo →
    now ≤ w.now ∧ ∀ observed ∈ todo, StillObserved now w.store.sessions observed

theorem Continue.closed {now : Int} {sessions sessions' : List SessionRow}
    (h : Continue now sessions sessions') {sessionId : String} (hclosed : Closed sessionId sessions) :
    Closed sessionId sessions' := by
  obtain ⟨s, hs, hid, hclosedAt⟩ := hclosed
  obtain ⟨s', hs', hcontinues⟩ := h s hs
  exact ⟨s', hs', hcontinues.sessionId.trans hid, hcontinues.closed hclosedAt⟩

theorem Continue.observed {now reading : Int} {sessions sessions' : List SessionRow}
    (h : Continue now sessions sessions') (hread : reading ≤ now) {observed : String × Int}
    (hobserved : StillObserved reading sessions observed) :
    StillObserved reading sessions' observed := by
  obtain ⟨hpassed, s, hs, hid, hdeadline⟩ := hobserved
  obtain ⟨s', hs', hcontinues⟩ := h s hs
  refine ⟨hpassed, s', hs', hcontinues.sessionId.trans hid, fun hopen' => ?_⟩
  have hopen : s.closedAt = none := by
    by_contra hclosed
    exact hcontinues.closed hclosed hopen'
  rcases hcontinues.deadline hopen' with hsame | hlater
  · exact hsame.trans (hdeadline hopen)
  · have hsame := hdeadline hopen
    omega

theorem Inv.store {w : World} (h : Inv noticeId w) {store : Store} (hkeyed : Keyed store.sessions)
    (hcontinue : Continue w.now w.store.sessions store.sessions)
    (hnotices : ∀ n ∈ store.notices, ∀ sessionId, n.id = noticeId sessionId →
      n.id ∈ w.store.notices.map (·.id) ∨ Closed sessionId store.sessions) :
    Inv noticeId { w with store := store } where
  keyed := hkeyed
  noticed := by
    intro n hn sessionId hid
    rcases hnotices n hn sessionId hid with hold | hclosed
    · obtain ⟨m, hm, heq⟩ := List.mem_map.mp hold
      exact hcontinue.closed (h.noticed m hm sessionId (heq.trans hid))
    · exact hclosed
  selecting := h.selecting
  closing := by
    intro k now todo hphase
    obtain ⟨hread, hobserved⟩ := h.closing k now todo hphase
    exact ⟨hread, fun observed hmem => hcontinue.observed hread (hobserved observed hmem)⟩

theorem Inv.sessions {w : World} (h : Inv noticeId w) {sessions : List SessionRow}
    (leases : List LeaseRow) (hkeyed : Keyed sessions)
    (hcontinue : Continue w.now w.store.sessions sessions) :
    Inv noticeId (w.setSessions sessions leases) :=
  @Inv.store _ w h ⟨sessions, leases, w.store.notices⟩ hkeyed hcontinue
    fun _ hn _ _ => .inl (List.mem_map_of_mem hn)

theorem Inv.setSweep {w : World} (h : Inv noticeId w) {k : Nat} {sweep : Sweep}
    (hselecting : ∀ now fellowId limit, sweep = .selecting now fellowId limit → now ≤ w.now)
    (hclosing : ∀ now todo, sweep = .closing now todo →
      now ≤ w.now ∧ ∀ observed ∈ todo, StillObserved now w.store.sessions observed) :
    Inv noticeId (w.setSweep k sweep) where
  keyed := h.keyed
  noticed := h.noticed
  selecting := by
    intro i now fellowId limit hphase
    unfold World.setSweep at hphase
    dsimp only at hphase
    split at hphase
    · exact hselecting now fellowId limit hphase
    · exact h.selecting i now fellowId limit hphase
  closing := by
    intro i now todo hphase
    unfold World.setSweep at hphase
    dsimp only at hphase
    split at hphase
    · exact hclosing now todo hphase
    · exact h.closing i now todo hphase

theorem Inv.batch {w : World} (h : Inv noticeId w) {now : Int} {sessionId : String}
    {deadline : Int} {store : Store}
    (hbatch : sweepBatch noticeId sessionId deadline now w.store = some store) :
    (w.store.sessions.any (stillIdle sessionId deadline now) = false ∧ store = w.store)
    ∨ (w.store.sessions.any (stillIdle sessionId deadline now) = true
      ∧ ∃ s ∈ w.store.sessions, s.sessionId = sessionId ∧ s.closedAt = none
        ∧ s.idleCloseAt = deadline ∧ deadline ≤ now ∧ ClosedWhole noticeId now s w.store store) := by
  cases hany : w.store.sessions.any (stillIdle sessionId deadline now) with
  | false => exact .inl ⟨rfl, sweepBatch_kept hany hbatch⟩
  | true =>
      obtain ⟨s, hs, hidle⟩ := List.any_eq_true.mp hany
      obtain ⟨rfl, hopen, hdeadline, hpassed⟩ := stillIdle_iff.mp hidle
      have hfresh : noticeId s.sessionId ∉ w.store.notices.map (·.id) := by
        intro hmem
        obtain ⟨n, hn, hid⟩ := List.mem_map.mp hmem
        obtain ⟨r, hr, hsame, hclosed⟩ := h.noticed n hn s.sessionId hid
        exact hclosed (h.keyed.eq hr hs hsame ▸ hopen)
      exact .inr ⟨rfl, s, hs, rfl, hopen, hdeadline, hpassed,
        sweepBatch_closed h.keyed hs hidle hfresh hbatch⟩

/-! ## Every step keeps the invariant -/

theorem ClosedWhole.continue {now : Int} {s : SessionRow} {before after : Store}
    (h : ClosedWhole noticeId now s before after) (hkeyed : Keyed before.sessions)
    (hs : s ∈ before.sessions) (instant : Int) :
    Continue instant before.sessions after.sessions := by
  rw [h.sessions]
  exact updateSession_continue hkeyed hs ⟨rfl, fun _ => Option.some_ne_none now, nofun⟩

theorem selectIdle_mem {now : Int} {fellowId : Option String} {limit : Nat}
    {sessions : List SessionRow} {s : SessionRow} (h : s ∈ selectIdle now fellowId limit sessions) :
    s ∈ sessions ∧ s.idleCloseAt ≤ now := by
  have hsorted := List.mem_of_mem_take h
  rw [List.mem_mergeSort, List.mem_filter, Bool.and_eq_true, Bool.and_eq_true,
    decide_eq_true_eq] at hsorted
  exact ⟨hsorted.1, hsorted.2.1.2⟩

theorem Inv.step (hids : Function.Injective noticeId) {w w' : World} {c : Commit}
    (h : Inv noticeId w) (hstep : Step noticeId w c w') :
    Inv noticeId w' ∧ Continue w.now w.store.sessions w'.store.sessions := by
  have hrows (sessions : List SessionRow) (leases : List LeaseRow) (hkeyed : Keyed sessions)
      (hcontinue : Continue w.now w.store.sessions sessions) :
      Inv noticeId (w.setSessions sessions leases)
        ∧ Continue w.now w.store.sessions sessions :=
    ⟨h.sessions leases hkeyed hcontinue, hcontinue⟩
  cases hstep with
  | tick later hlater =>
      refine ⟨⟨h.keyed, h.noticed, fun k now fellowId limit hphase => ?_,
        fun k now todo hphase => ?_⟩, .refl _ _⟩
      · exact Int.le_trans (h.selecting k now fellowId limit hphase) hlater
      · obtain ⟨hread, hobserved⟩ := h.closing k now todo hphase
        exact ⟨Int.le_trans hread hlater, hobserved⟩
  | start k fellowId limit hphase =>
      refine ⟨h.setSweep (fun now fellowId' limit' heq => ?_) (fun now todo heq => by cases heq),
        .refl _ _⟩
      cases heq
      exact Int.le_refl _
  | select k now fellowId limit observed hphase hobserved =>
      refine ⟨h.setSweep (fun now fellowId' limit' heq => by cases heq) (fun now' todo heq => ?_),
        .refl _ _⟩
      cases heq
      refine ⟨h.selecting k _ fellowId limit hphase, fun p hp => ?_⟩
      rw [hobserved] at hp
      obtain ⟨s, hs, rfl⟩ := List.mem_map.mp hp
      obtain ⟨hmem, hpassed⟩ := selectIdle_mem (List.mem_of_mem_take hs)
      exact ⟨hpassed, s, hmem, rfl, fun _ => rfl⟩
  | sweep k now sessionId deadline todo store next hphase hbatch hnext =>
      have hstore : Inv noticeId { w with store := store }
          ∧ Continue w.now w.store.sessions store.sessions := by
        rcases h.batch hbatch with ⟨-, rfl⟩ | ⟨-, s, hs, rfl, hopen, -, -, hwhole⟩
        · exact ⟨h, .refl _ _⟩
        · have hcontinue := hwhole.continue h.keyed hs w.now
          refine ⟨h.store ?_ hcontinue fun n hn sessionId hid => ?_, hcontinue⟩
          · rw [hwhole.sessions]
            exact updateSession_keyed h.keyed fun _ => rfl
          · rw [hwhole.notices] at hn
            rcases List.mem_append.mp hn with hold | hnew
            · exact .inl (List.mem_map_of_mem hold)
            · obtain rfl := List.mem_singleton.mp hnew
              obtain rfl := hids hid
              refine .inr ⟨{ s with closedAt := some now }, ?_, rfl, Option.some_ne_none now⟩
              rw [hwhole.sessions]
              exact List.mem_map.mpr ⟨s, hs, if_pos rfl⟩
      refine ⟨hstore.1.setSweep (fun now fellowId limit heq => ?_) (fun now' todo' heq => ?_),
        hstore.2⟩
      · rcases hnext with rfl | rfl <;> cases heq
      · rcases hnext with rfl | rfl
        · cases heq
          obtain ⟨hread, hobserved⟩ := hstore.1.closing k _ _ hphase
          exact ⟨hread, fun p hp => hobserved p (List.mem_cons_of_mem _ hp)⟩
        · cases heq
  | stop k now todo hphase =>
      exact ⟨h.setSweep (fun _ _ _ heq => by cases heq) (fun _ _ heq => by cases heq), .refl _ _⟩
  | heartbeat s reading leases hrow hopen hread hlast hidle =>
      exact hrows _ leases (updateSession_keyed h.keyed fun _ => rfl)
        (updateSession_continue h.keyed hrow ⟨rfl, id, fun _ => .inr hidle⟩)
  | join s joinedAt idleAfterJoin hrow hopen hidle =>
      exact hrows _ _ (updateSession_keyed h.keyed fun _ => rfl)
        (updateSession_continue h.keyed hrow ⟨rfl, id, fun _ => .inr hidle⟩)
  | close s closedAt leases hrow hopen =>
      exact hrows _ leases (updateSession_keyed h.keyed fun _ => rfl)
        (updateSession_continue h.keyed hrow ⟨rfl, fun _ => Option.some_ne_none closedAt, nofun⟩)
  | opened s hopen hfresh =>
      refine hrows _ _ ?_ fun r hr => ⟨r, List.mem_append_left _ hr, .refl _ r⟩
      unfold Keyed
      rw [List.map_append, List.nodup_append]
      refine ⟨h.keyed, List.nodup_singleton _, fun id hid id' hid' heq => ?_⟩
      rw [heq, List.mem_singleton.mp hid'] at hid
      exact hfresh hid
  | leases leases => exact hrows _ leases h.keyed (.refl _ _)
  | notices notices hforeign =>
      exact ⟨h.store h.keyed (.refl _ _) fun n hn sessionId hid =>
        .inl (hforeign n hn sessionId hid), .refl _ _⟩

theorem inv_run (hids : Function.Injective noticeId) {w w' : World} {commits : List Commit}
    (hrun : Trace (Step noticeId) w commits w') (h : Inv noticeId w) : Inv noticeId w' :=
  hrun.invariant (fun _ _ _ hinv hstep => (hinv.step hids hstep).1) h

/-! ## At most once -/

def Sweep.rest : Sweep → List (String × Int)
  | .closing _ todo => todo
  | _ => []

def Sweep.begun : Sweep → Bool
  | .closing _ _ => true
  | .done => true
  | _ => false

/-- What a step does to a sweep that has read its sessions, and how one comes to
have sessions left. -/
theorem Step.rest {w w' : World} {c : Commit} (h : Step noticeId w c w') (k : Nat) :
    ((w.sweeps k).begun = true → (w'.sweeps k).begun = true)
    ∧ ((w'.sweeps k).rest ⊆ (w.sweeps k).rest
      ∨ ((w.sweeps k).begun = false ∧ c = .selected k (w'.sweeps k).rest)) := by
  have hset {i : Nat} {sweep : Sweep} (hbegun : (w.sweeps i).begun = true → sweep.begun = true)
      (hrest : sweep.rest ⊆ (w.sweeps i).rest
        ∨ ((w.sweeps i).begun = false ∧ c = .selected i sweep.rest)) :
      ((w.sweeps k).begun = true → ((w.setSweep i sweep).sweeps k).begun = true)
      ∧ (((w.setSweep i sweep).sweeps k).rest ⊆ (w.sweeps k).rest
        ∨ ((w.sweeps k).begun = false ∧ c = .selected k ((w.setSweep i sweep).sweeps k).rest)) := by
    unfold World.setSweep
    dsimp only
    by_cases hk : k = i
    · subst hk
      rw [if_pos rfl]
      exact ⟨hbegun, hrest⟩
    · rw [if_neg hk]
      exact ⟨id, .inl (List.Subset.refl _)⟩
  cases h with
  | start i fellowId limit hphase =>
      refine hset ?_ (.inl (List.nil_subset _))
      rw [hphase]
      nofun
  | select i now fellowId limit observed hphase hobserved =>
      refine hset (fun _ => rfl) (.inr ⟨?_, rfl⟩)
      rw [hphase]
      rfl
  | sweep i now sessionId deadline todo store next hphase hbatch hnext =>
      refine hset ?_ (.inl ?_)
      · rcases hnext with rfl | rfl <;> exact fun _ => rfl
      · rw [hphase]
        rcases hnext with rfl | rfl
        · exact List.subset_cons_self _ _
        · exact List.nil_subset _
  | stop i now todo hphase => exact hset (fun _ => rfl) (.inl (List.nil_subset _))
  | _ => exact ⟨id, .inl (List.Subset.refl _)⟩

/-- Before any sweep; an idle notice is of a session that was closed. -/
structure World.Quiet (noticeId : String → String) (w : World) : Prop where
  keyed : Keyed w.store.sessions
  noticed : ∀ n ∈ w.store.notices, ∀ sessionId, n.id = noticeId sessionId →
    Closed sessionId w.store.sessions
  waiting : ∀ k, w.sweeps k = .waiting

theorem World.Quiet.inv {w : World} (h : w.Quiet noticeId) : Inv noticeId w where
  keyed := h.keyed
  noticed := h.noticed
  selecting := by
    intro k now fellowId limit hphase
    rw [h.waiting k] at hphase
    cases hphase
  closing := by
    intro k now todo hphase
    rw [h.waiting k] at hphase
    cases hphase

def sampleSession : SessionRow := ⟨"S-1", "F-1", "P-1", 0, 0, 5, none⟩

def sampleStart : World := ⟨9, ⟨[sampleSession], [⟨"L-1", "S-1", .active, 0⟩], []⟩, fun _ => .waiting⟩

end Asimposium.Sessions
