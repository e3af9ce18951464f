import Asimposium.Lib.Trace
import Mathlib.Data.List.MinMax

/-!
# The screening posture

Three refusals of a Fellow's writes in a week put every public write of it on
hold until its sponsor or an operator clears the posture. A refusal counts while
it is inside the window and later than the latest clearance. Three statements
evaluate that count, each in its own transaction and each with a window that
ends at a clock reading taken before the commit.

Instants are milliseconds. Minted ids are new.
-/

namespace Asimposium.Posture

/-! ## Rows -/

inductive Outcome where
  | reject
  | quarantine
  deriving DecidableEq, Repr

structure Refusal where
  refusalId : String
  fellowId : String
  sponsorId : String
  problemId : String
  outcome : Outcome
  coarseCategory : String
  inputDigest : String
  createdAt : Int
  deriving DecidableEq

inductive ClearedByClass where
  | sponsor
  | operator
  deriving DecidableEq, Repr

structure Clearance where
  clearanceId : String
  fellowId : String
  clearedByClass : ClearedByClass
  clearedBy : String
  reason : String
  createdAt : Int
  deriving DecidableEq

structure Notice where
  fellowId : String
  problemId : String
  noticeType : String
  title : String
  detail : String
  causedByEventId : String
  targetId : String
  createdAt : Int
  deriving DecidableEq

inductive CaseState where
  | held
  | released
  | rejected
  deriving DecidableEq, Repr

structure ScreeningCase where
  caseId : String
  state : CaseState
  fellowId : String
  sponsorId : String
  problemId : String
  inputDigest : String
  contextDigest : String
  decidedBy : Option String

structure CaseAppeal where
  caseId : String
  state : CaseState
  sponsorId : String
  decidedBy : Option String

structure Db where
  refusals : List Refusal
  clearances : List Clearance
  notices : List Notice
  events : List String
  cases : List ScreeningCase
  appeals : List CaseAppeal
  /-- `enrollment_fellows.sponsor_id`. -/
  sponsorOf : String → Option String
  /-- `sponsors.tombstoned_at IS NULL`. -/
  sponsorStands : String → Bool
  /-- `private_draft_erasures`. -/
  erased : String → Bool

/-! ## The count -/

def postureRefusalThreshold : Nat := 3

def postureWindowMs : Int := 7 * 24 * 60 * 60 * 1000

def windowStart (now : Int) : Int := now - postureWindowMs

/-- `SELECT MAX(c.created_at)`. -/
def Db.latestClearance (db : Db) (fellowId : String) : Option Int :=
  ((db.clearances.filter (·.fellowId == fellowId)).map (·.createdAt)).max?

/-- `COUNTING_SQL` counts a refusal in the window that starts here. -/
def Db.counts (db : Db) (fellowId : String) (since : Int) (r : Refusal) : Bool :=
  r.fellowId == fellowId && since < r.createdAt
    && (db.latestClearance fellowId).all (· < r.createdAt)

def Db.count (db : Db) (fellowId : String) (since : Int) : Nat :=
  db.refusals.countP (db.counts fellowId since)

/-- `postureOf(…).quarantineFirst`. -/
def Db.quarantineFirst (db : Db) (fellowId : String) (now : Int) : Bool :=
  postureRefusalThreshold ≤ db.count fellowId (windowStart now)

/-! ## Recording a refusal -/

structure RefusalInput where
  fellowId : String
  sponsorId : String
  problemId : String
  outcome : Outcome
  coarseCategory : String
  inputDigest : String

def Db.repeated (db : Db) (input : RefusalInput) : Bool :=
  db.refusals.any fun r => r.fellowId == input.fellowId && r.inputDigest == input.inputDigest
    && r.outcome == input.outcome

def RefusalInput.row (input : RefusalInput) (refusalId : String) (now : Int) : Refusal :=
  ⟨refusalId, input.fellowId, input.sponsorId, input.problemId, input.outcome,
    input.coarseCategory, input.inputDigest, now⟩

def Db.withRefusal (db : Db) (r : Refusal) : Db := { db with refusals := db.refusals ++ [r] }

/-- The row, if the posture is not engaged and the bytes are new. -/
def insertRefusal (input : RefusalInput) (refusalId : String) (now : Int) (db : Db) : Db :=
  if postureRefusalThreshold ≤ db.count input.fellowId (windowStart now) || db.repeated input then
    db
  else db.withRefusal (input.row refusalId now)

def engagedNotice (input : RefusalInput) (refusalId : String) (now : Int) : Notice where
  fellowId := input.fellowId
  problemId := input.problemId
  noticeType := "moderation_outcome"
  title := "Your public writes now wait for review"
  detail := "After repeated screening refusals, every public write you make is held for trained "
    ++ "review before it publishes. Nothing is lost: held writes keep their review cases. Your "
    ++ "sponsor can review and clear this posture from the console."
  causedByEventId := refusalId
  targetId := input.fellowId
  createdAt := now

/-- The delivery of a notice for this refusal was recorded before. -/
def Db.delivered (db : Db) (input : RefusalInput) (refusalId : String) : Bool :=
  db.notices.any fun n => n.fellowId == input.fellowId && n.problemId == input.problemId
    && n.noticeType == "moderation_outcome" && n.causedByEventId == refusalId
    && n.targetId == input.fellowId

/-- The notice, if this refusal was inserted and is the one that engages the
posture. -/
def insertNotice (input : RefusalInput) (refusalId : String) (now : Int) (db : Db) : Db :=
  if !db.delivered input refusalId
      && (db.refusals.any fun r => r.refusalId == refusalId && r.fellowId == input.fellowId)
      && db.count input.fellowId (windowStart now) == postureRefusalThreshold then
    { db with notices := db.notices ++ [engagedNotice input refusalId now] }
  else db

/-- The batch of `recordRefusal`. -/
def recordRefusal (input : RefusalInput) (refusalId : String) (now : Int) (db : Db) : Db :=
  insertNotice input refusalId now (insertRefusal input refusalId now db)

/-! ## Clearing the posture -/

structure ClearanceInput where
  fellowId : String
  clearedByClass : ClearedByClass
  clearedBy : String
  reason : String

/-- `clearPosture` with the two readings of its clock; `none` when no row is
inserted. -/
def clearPosture (input : ClearanceInput) (clearanceId : String) (now windowNow : Int) (db : Db) :
    Option Db :=
  if (input.clearedByClass == .operator || db.sponsorOf input.fellowId == some input.clearedBy)
      && postureRefusalThreshold ≤ db.count input.fellowId (windowStart windowNow) then
    some { db with
      clearances := db.clearances ++ [⟨clearanceId, input.fellowId, input.clearedByClass,
        input.clearedBy, input.reason, now + 1⟩] }
  else none

/-! ## Guarded publications -/

structure PublicationInput where
  eventId : String
  problemId : String
  fellowId : String
  inputDigest : String
  contextDigest : String
  reviewCaseId : Option String

/-- `screeningCaseReleasedSql`. -/
def Db.caseReleased (db : Db) (c : ScreeningCase) : Bool :=
  c.state == .released || (c.state == .rejected && db.appeals.any fun a =>
    a.caseId == c.caseId && a.state == .released && a.sponsorId == c.sponsorId
      && db.sponsorOf c.fellowId == some a.sponsorId && db.sponsorStands a.sponsorId
      && a.decidedBy.isSome && c.decidedBy.isSome && a.decidedBy != c.decidedBy
      && a.decidedBy != some a.sponsorId && !db.erased c.problemId)

def Db.exactRelease (db : Db) (input : PublicationInput) (caseId : String) : Bool :=
  db.cases.any fun c => c.caseId == caseId && db.caseReleased c && c.fellowId == input.fellowId
    && c.problemId == input.problemId && c.inputDigest == input.inputDigest
    && c.contextDigest == input.contextDigest

/-- `screeningPostureGuardStatement` for a batch that inserts the event. -/
def Db.postureGuard (db : Db) (input : PublicationInput) (now : Int) : Bool :=
  match input.reviewCaseId with
  | none => db.count input.fellowId (windowStart now) < postureRefusalThreshold
  | some caseId => db.exactRelease input caseId

/-- A guarded publication; `none` when the guard aborts its batch. -/
def publish (input : PublicationInput) (now : Int) (db : Db) : Option Db :=
  if db.postureGuard input now then some { db with events := db.events ++ [input.eventId] } else none

end Asimposium.Posture

/-!
## Calls against one database

Every call reads the clock at a step of its own and commits later, so a window
may end before the commit it is part of. `Prompt` says of a step that its
readings are not too old: a refusal that is the third to count at its reading is
still the third at its commit, and a clearance is later than every refusal that
counts at its commit.
-/

namespace Asimposium.Posture

/-! ## Calls -/

inductive Call where
  | waiting
  /-- `recordRefusal` read a posture that is not engaged. -/
  | checked (input : RefusalInput)
  | refusing (input : RefusalInput) (now : Int)
  | clearing (input : ClearanceInput) (now : Int)
  | publishing (input : PublicationInput) (now : Int)
  | done

structure World where
  now : Int
  db : Db
  calls : Nat → Call

inductive Commit where
  | refused (input : RefusalInput) (now : Int)
  | cleared (input : ClearanceInput) (now : Int)
  | published (input : PublicationInput)
  | other

def World.setCall (w : World) (k : Nat) (call : Call) : World :=
  { w with calls := fun i => if i = k then call else w.calls i }

def World.commit (w : World) (k : Nat) (db : Db) : World := { w.setCall k .done with db := db }

def World.count (w : World) (fellowId : String) : Nat := w.db.count fellowId (windowStart w.now)

/-- What calls beside these may change: cases, appeals, sponsorships, other
events. -/
structure Db.SamePosture (db db' : Db) : Prop where
  refusals : db'.refusals = db.refusals
  clearances : db'.clearances = db.clearances
  notices : db'.notices = db.notices

inductive Step : World → Commit → World → Prop
  | tick (w : World) (later : Int) (hlater : w.now ≤ later) : Step w .other { w with now := later }
  | check (w : World) (k : Nat) (input : RefusalInput) (reading : Int)
      (hphase : w.calls k = .waiting) (hread : reading ≤ w.now)
      (hcategory : input.coarseCategory ≠ "provider-unavailable")
      (hposture : w.db.quarantineFirst input.fellowId reading = false) :
      Step w .other (w.setCall k (.checked input))
  | readClock (w : World) (k : Nat) (input : RefusalInput) (hphase : w.calls k = .checked input) :
      Step w .other (w.setCall k (.refusing input w.now))
  | refuse (w : World) (k : Nat) (input : RefusalInput) (now : Int) (refusalId : String)
      (hphase : w.calls k = .refusing input now)
      (hfresh : refusalId ∉ w.db.refusals.map (·.refusalId))
      (hcause : refusalId ∉ w.db.notices.map (·.causedByEventId)) :
      Step w (.refused input now) (w.commit k (recordRefusal input refusalId now w.db))
  | startClearance (w : World) (k : Nat) (input : ClearanceInput) (hphase : w.calls k = .waiting) :
      Step w .other (w.setCall k (.clearing input w.now))
  | clear (w : World) (k : Nat) (input : ClearanceInput) (now windowNow : Int)
      (clearanceId : String) (db : Db) (hphase : w.calls k = .clearing input now)
      (hread : now ≤ windowNow) (hread' : windowNow ≤ w.now)
      (hcleared : clearPosture input clearanceId now windowNow w.db = some db) :
      Step w (.cleared input now) (w.commit k db)
  | startPublication (w : World) (k : Nat) (input : PublicationInput)
      (hphase : w.calls k = .waiting) :
      Step w .other (w.setCall k (.publishing input w.now))
  | publish (w : World) (k : Nat) (input : PublicationInput) (now : Int) (db : Db)
      (hphase : w.calls k = .publishing input now) (hpublished : publish input now w.db = some db) :
      Step w (.published input) (w.commit k db)
  /-- A batch is aborted, or a call ends without one. -/
  | stop (w : World) (k : Nat) : Step w .other (w.setCall k .done)
  | others (w : World) (db : Db) (hsame : w.db.SamePosture db) : Step w .other { w with db := db }

/-! ## Prompt steps -/

/-- This refusal is the third to count in the window that ends at its reading. -/
def Db.Crosses (db : Db) (input : RefusalInput) (now : Int) : Prop :=
  db.count input.fellowId (windowStart now) + 1 = postureRefusalThreshold
    ∧ db.repeated input = false ∧ (db.latestClearance input.fellowId).all (· < now) = true

/-- The third refusal to count at its reading is the third at its commit. -/
def PromptRefusal (w : World) (input : RefusalInput) (now : Int) : Prop :=
  w.db.Crosses input now →
    w.count input.fellowId + 1 = postureRefusalThreshold ∧ windowStart w.now < now

/-- No refusal that counts at the commit is later than the clearance. -/
def PromptClearance (w : World) (input : ClearanceInput) (now : Int) : Prop :=
  ∀ r ∈ w.db.refusals, w.db.counts input.fellowId (windowStart w.now) r = true →
    r.createdAt ≤ now + 1

def Commit.Prompt (w : World) : Commit → Prop
  | .refused input now => PromptRefusal w input now
  | .cleared input now => PromptClearance w input now
  | _ => True

def PromptStep (w : World) (c : Commit) (w' : World) : Prop := Step w c w' ∧ c.Prompt w

end Asimposium.Posture

/-!
## The posture is sound where calls are prompt

Windows that end earlier count more, so a stale reading refuses what a fresh one
would; that keeps the count within the threshold and holds publications back,
however old the readings are. The notice and the clearance need more: a refusal
may be the third at its reading and not at its commit, and a clearance may come
after a refusal that is later than it.
-/

namespace Asimposium.Posture

/-! ## Counts -/

variable {db : Db} {fellowId : String}

theorem latestClearance_all {x : Int} :
    (db.latestClearance fellowId).all (· < x) = true
      ↔ ∀ c ∈ db.clearances, c.fellowId = fellowId → c.createdAt < x := by
  unfold Db.latestClearance
  cases hmax : ((db.clearances.filter (·.fellowId == fellowId)).map (·.createdAt)).max? with
  | none =>
      have hnone := List.map_eq_nil_iff.mp (List.max?_eq_none_iff.mp hmax)
      refine iff_of_true rfl fun c hc hfellow => ?_
      exact absurd (beq_iff_eq.mpr hfellow) (List.filter_eq_nil_iff.mp hnone c hc)
  | some latest =>
      rw [Option.all_some, decide_eq_true_eq]
      obtain ⟨hmem, hle⟩ := List.max?_eq_some_iff.mp hmax
      constructor
      · intro hlt c hc hfellow
        have hcreated := hle c.createdAt
          (List.mem_map_of_mem (List.mem_filter.mpr ⟨hc, beq_iff_eq.mpr hfellow⟩))
        omega
      · intro hall
        obtain ⟨c, hc, rfl⟩ := List.mem_map.mp hmem
        obtain ⟨hmem, hfellow⟩ := List.mem_filter.mp hc
        exact hall c hmem (beq_iff_eq.mp hfellow)

variable {r : Refusal}

theorem counts_iff {since : Int} :
    db.counts fellowId since r = true
      ↔ r.fellowId = fellowId ∧ since < r.createdAt
        ∧ ∀ c ∈ db.clearances, c.fellowId = fellowId → c.createdAt < r.createdAt := by
  unfold Db.counts
  rw [Bool.and_eq_true, Bool.and_eq_true, beq_iff_eq, decide_eq_true_eq, latestClearance_all,
    and_assoc]

variable {db' : Db}

theorem counts_mono {since since' : Int} (hclearances : db.clearances ⊆ db'.clearances)
    (hsince : since ≤ since') (h : db'.counts fellowId since' r = true) :
    db.counts fellowId since r = true := by
  obtain ⟨hfellow, hwindow, hlater⟩ := counts_iff.mp h
  exact counts_iff.mpr ⟨hfellow, Int.lt_of_le_of_lt hsince hwindow,
    fun c hc => hlater c (hclearances hc)⟩

theorem count_mono {db db' : Db} {fellowId : String} {since since' : Int}
    (hrefusals : db'.refusals = db.refusals) (hclearances : db.clearances ⊆ db'.clearances)
    (hsince : since ≤ since') : db'.count fellowId since' ≤ db.count fellowId since := by
  unfold Db.count
  rw [hrefusals]
  exact List.countP_mono_left fun r _ => counts_mono hclearances hsince

theorem count_append {db db' : Db} {r : Refusal} (hrefusals : db'.refusals = db.refusals ++ [r])
    (hclearances : db'.clearances = db.clearances) (fellowId : String) (since : Int) :
    db'.count fellowId since
      = db.count fellowId since + if db.counts fellowId since r then 1 else 0 := by
  have hcounts : db'.counts fellowId since = db.counts fellowId since := by
    funext x
    unfold Db.counts Db.latestClearance
    rw [hclearances]
  unfold Db.count
  rw [hrefusals, List.countP_append, hcounts, List.countP_singleton]

variable {now : Int}

theorem windowStart_mono {later : Int} (h : now ≤ later) : windowStart now ≤ windowStart later :=
  Int.sub_le_sub_right h _

/-! ## What the statements do -/

theorem recordRefusal_cases {input : RefusalInput} {refusalId : String}
    (hfresh : refusalId ∉ db.refusals.map (·.refusalId))
    (hcause : refusalId ∉ db.notices.map (·.causedByEventId)) :
    recordRefusal input refusalId now db = db
    ∨ (db.count input.fellowId (windowStart now) < postureRefusalThreshold
      ∧ db.repeated input = false
      ∧ (recordRefusal input refusalId now db).refusals
        = db.refusals ++ [input.row refusalId now]
      ∧ (recordRefusal input refusalId now db).clearances = db.clearances
      ∧ ((db.Crosses input now ∧ (recordRefusal input refusalId now db).notices
          = db.notices ++ [engagedNotice input refusalId now])
        ∨ (¬db.Crosses input now
          ∧ (recordRefusal input refusalId now db).notices = db.notices))) := by
  have hdelivered : db.delivered input refusalId = false := by
    unfold Db.delivered
    rw [List.any_eq_false]
    intro n hn hsame
    simp only [Bool.and_eq_true, beq_iff_eq] at hsame
    exact hcause (hsame.1.2 ▸ List.mem_map_of_mem hn)
  have hmissing : (db.refusals.any fun r => r.refusalId == refusalId
      && r.fellowId == input.fellowId) = false := by
    rw [List.any_eq_false]
    intro r hr hsame
    rw [Bool.and_eq_true, beq_iff_eq] at hsame
    exact hfresh (hsame.1 ▸ List.mem_map_of_mem hr)
  unfold recordRefusal insertRefusal
  by_cases hblocked : (decide (postureRefusalThreshold ≤ db.count input.fellowId (windowStart now))
      || db.repeated input) = true
  · refine .inl ?_
    rw [if_pos hblocked]
    unfold insertNotice
    rw [hmissing, Bool.and_false, Bool.false_and]
    rfl
  · rw [if_neg hblocked]
    rw [Bool.or_eq_true, decide_eq_true_eq, not_or, Nat.not_le, Bool.not_eq_true] at hblocked
    obtain ⟨hopen, hrepeated⟩ := hblocked
    refine .inr ⟨hopen, hrepeated, ?_⟩
    have hcount := @count_append db (db.withRefusal (input.row refusalId now)) _ rfl rfl
      input.fellowId (windowStart now)
    have hcounts : db.counts input.fellowId (windowStart now) (input.row refusalId now) = true
        ↔ (db.latestClearance input.fellowId).all (· < now) = true := by
      rw [counts_iff, latestClearance_all]
      have hwindow : windowStart now < now := by
        unfold windowStart postureWindowMs
        omega
      exact ⟨fun h => h.2.2, fun h => ⟨rfl, hwindow, h⟩⟩
    have hcrosses : db.Crosses input now ↔ (db.withRefusal (input.row refusalId now)).count
        input.fellowId (windowStart now) = postureRefusalThreshold := by
      rw [hcount]
      unfold Db.Crosses
      by_cases hlater : (db.latestClearance input.fellowId).all (· < now) = true
      · rw [if_pos (hcounts.mpr hlater)]
        exact ⟨fun h => h.1, fun h => ⟨h, hrepeated, hlater⟩⟩
      · rw [if_neg (fun h => hlater (hcounts.mp h)), Nat.add_zero]
        exact ⟨fun h => absurd h.2.2 hlater, fun h => absurd h (Nat.ne_of_lt hopen)⟩
    have hinserted : ((db.withRefusal (input.row refusalId now)).refusals.any
        fun r => r.refusalId == refusalId && r.fellowId == input.fellowId) = true :=
      List.any_eq_true.mpr ⟨input.row refusalId now,
        List.mem_append_right _ (List.mem_singleton_self _),
        Bool.and_eq_true_iff.mpr ⟨beq_self_eq_true _, beq_self_eq_true _⟩⟩
    have hundelivered : (db.withRefusal (input.row refusalId now)).delivered input refusalId
        = false := hdelivered
    unfold insertNotice
    rw [hundelivered, hinserted]
    by_cases hthird : db.Crosses input now
    · rw [if_pos (by rw [hcrosses.mp hthird]; rfl)]
      exact ⟨rfl, rfl, .inl ⟨hthird, rfl⟩⟩
    · rw [if_neg (fun h => hthird (hcrosses.mpr (beq_iff_eq.mp (Bool.and_eq_true_iff.mp h).2)))]
      exact ⟨rfl, rfl, .inr ⟨hthird, rfl⟩⟩

theorem clearPosture_some {input : ClearanceInput} {clearanceId : String} {windowNow : Int}
    (h : clearPosture input clearanceId now windowNow db = some db') :
    db'.refusals = db.refusals ∧ db'.notices = db.notices
      ∧ db'.clearances = db.clearances ++ [⟨clearanceId, input.fellowId, input.clearedByClass,
        input.clearedBy, input.reason, now + 1⟩] := by
  unfold clearPosture at h
  split at h
  · cases h
    exact ⟨rfl, rfl, rfl⟩
  · cases h

theorem publish_some {input : PublicationInput} (h : publish input now db = some db') :
    db.postureGuard input now = true ∧ db.SamePosture db' := by
  unfold publish at h
  split at h
  · rename_i hguard
    cases h
    exact ⟨hguard, rfl, rfl, rfl⟩
  · cases h

/-! ## The invariant -/

/-- The count is within the threshold, and readings are of the past. -/
structure Inv (w : World) : Prop where
  within : ∀ fellowId, w.count fellowId ≤ postureRefusalThreshold
  refusing : ∀ k input now, w.calls k = .refusing input now → now ≤ w.now
  publishing : ∀ k input now, w.calls k = .publishing input now → now ≤ w.now

variable {w : World}

/-- A step that changes one call, and the posture only so that it counts no
more than the threshold. -/
theorem Inv.setCall (h : Inv w) {k : Nat} {call : Call}
    (hrefusing : ∀ input now, call = .refusing input now → now ≤ w.now)
    (hpublishing : ∀ input now, call = .publishing input now → now ≤ w.now)
    (hwithin : ∀ fellowId, db.count fellowId (windowStart w.now) ≤ postureRefusalThreshold) :
    Inv { w.setCall k call with db := db } where
  within := hwithin
  refusing := by
    intro i input now hphase
    unfold World.setCall at hphase
    dsimp only at hphase
    split at hphase
    · exact hrefusing input now hphase
    · exact h.refusing i input now hphase
  publishing := by
    intro i input now hphase
    unfold World.setCall at hphase
    dsimp only at hphase
    split at hphase
    · exact hpublishing input now hphase
    · exact h.publishing i input now hphase

theorem Inv.commit (h : Inv w) {k : Nat}
    (hwithin : ∀ fellowId, db.count fellowId (windowStart w.now) ≤ postureRefusalThreshold) :
    Inv (w.commit k db) :=
  h.setCall (fun _ _ heq => by cases heq) (fun _ _ heq => by cases heq) hwithin

theorem Db.SamePosture.count_le (h : db.SamePosture db') (fellowId : String) (since : Int) :
    db'.count fellowId since ≤ db.count fellowId since :=
  count_mono h.refusals (h.clearances ▸ List.Subset.refl _) (Int.le_refl _)

theorem Inv.step {w w' : World} {c : Commit} (h : Inv w) (hstep : Step w c w') : Inv w' := by
  cases hstep with
  | tick later hlater =>
      refine ⟨fun fellowId => ?_, fun k input now hphase => ?_, fun k input now hphase => ?_⟩
      · exact Nat.le_trans (count_mono rfl (List.Subset.refl _) (windowStart_mono hlater))
          (h.within fellowId)
      · exact Int.le_trans (h.refusing k input now hphase) hlater
      · exact Int.le_trans (h.publishing k input now hphase) hlater
  | check k input reading hphase hread hcategory hposture =>
      exact h.setCall (fun _ _ heq => by cases heq) (fun _ _ heq => by cases heq) h.within
  | readClock k input hphase =>
      refine h.setCall (fun _ _ heq => ?_) (fun _ _ heq => by cases heq) h.within
      cases heq
      exact Int.le_refl _
  | refuse k input now refusalId hphase hfresh hcause =>
      refine h.commit fun fellowId => ?_
      have hread := h.refusing k input now hphase
      rcases recordRefusal_cases hfresh hcause with hsame | ⟨hopen, -, hrefusals, hclearances, -⟩
      · rw [hsame]
        exact h.within fellowId
      · rw [count_append hrefusals hclearances]
        split
        · rename_i hcounts
          obtain rfl : input.fellowId = fellowId := (counts_iff.mp hcounts).1
          have hstale := Nat.lt_of_le_of_lt
            (@count_mono w.db w.db input.fellowId _ _ rfl (List.Subset.refl _)
              (windowStart_mono hread)) hopen
          omega
        · exact h.within fellowId
  | startClearance k input hphase =>
      exact h.setCall (fun _ _ heq => by cases heq) (fun _ _ heq => by cases heq) h.within
  | clear k input now windowNow clearanceId db hphase hread hread' hcleared =>
      refine h.commit fun fellowId => ?_
      obtain ⟨hrefusals, -, hclearances⟩ := clearPosture_some hcleared
      exact Nat.le_trans (count_mono hrefusals
        (hclearances ▸ List.subset_append_left _ _) (Int.le_refl _)) (h.within fellowId)
  | startPublication k input hphase =>
      refine h.setCall (fun _ _ heq => by cases heq) (fun _ _ heq => ?_) h.within
      cases heq
      exact Int.le_refl _
  | publish k input now db hphase hpublished =>
      refine h.commit fun fellowId => ?_
      exact Nat.le_trans ((publish_some hpublished).2.count_le fellowId _) (h.within fellowId)
  | stop k => exact h.setCall (fun _ _ heq => by cases heq) (fun _ _ heq => by cases heq) h.within
  | others db hsame =>
      exact ⟨fun fellowId => Nat.le_trans (hsame.count_le fellowId _) (h.within fellowId),
        h.refusing, h.publishing⟩

variable {w' : World}

theorem inv_run {commits : List Commit} (hrun : Trace PromptStep w commits w') (h : Inv w) :
    Inv w' :=
  hrun.invariant (fun _ _ _ hinv hstep => hinv.step hstep.1) h

/-! ## What a step changes -/

variable {c : Commit}

/-- A refusal is recorded, or the step leaves refusals and notices and may only
clear and let time pass. -/
theorem Step.cases (h : Step w c w') :
    (w'.db.refusals = w.db.refusals ∧ w'.db.notices = w.db.notices
      ∧ w.db.clearances ⊆ w'.db.clearances ∧ w.now ≤ w'.now)
    ∨ ∃ k input now refusalId, c = .refused input now ∧ w.calls k = .refusing input now
      ∧ refusalId ∉ w.db.refusals.map (·.refusalId)
      ∧ refusalId ∉ w.db.notices.map (·.causedByEventId)
      ∧ w' = w.commit k (recordRefusal input refusalId now w.db) := by
  have hsubset := List.Subset.refl w.db.clearances
  cases h with
  | tick later hlater => exact .inl ⟨rfl, rfl, hsubset, hlater⟩
  | refuse k input now refusalId hphase hfresh hcause =>
      exact .inr ⟨k, input, now, refusalId, rfl, hphase, hfresh, hcause, rfl⟩
  | clear k input now windowNow clearanceId db hphase hread hread' hcleared =>
      obtain ⟨hrefusals, hnotices, hclearances⟩ := clearPosture_some hcleared
      exact .inl ⟨hrefusals, hnotices, hclearances ▸ List.subset_append_left _ _, Int.le_refl _⟩
  | publish k input now db hphase hpublished =>
      have hsame := (publish_some hpublished).2
      exact .inl ⟨hsame.refusals, hsame.notices, hsame.clearances ▸ hsubset, Int.le_refl _⟩
  | others db hsame =>
      exact .inl ⟨hsame.refusals, hsame.notices, hsame.clearances ▸ hsubset, Int.le_refl _⟩
  | _ => exact .inl ⟨rfl, rfl, hsubset, Int.le_refl _⟩

/-! ## The notice -/

def Raised (fellowId : String) (w w' : World) : Prop :=
  w.count fellowId < postureRefusalThreshold ∧ w'.count fellowId = postureRefusalThreshold

def Notified (fellowId : String) (w w' : World) : Prop :=
  ∃ input refusalId now, input.fellowId = fellowId
    ∧ w'.db.notices = w.db.notices ++ [engagedNotice input refusalId now]

theorem not_notified (h : w'.db.notices = w.db.notices) : ¬Notified fellowId w w' := by
  rintro ⟨input, refusalId, now, -, hnotices⟩
  exact List.cons_ne_nil _ _ (List.self_eq_append_right.mp (h.symm.trans hnotices))

theorem raised_iff_notified (hinv : Inv w) (hstep : PromptStep w c w') :
    (∀ fellowId, Raised fellowId w w' ↔ Notified fellowId w w')
      ∧ (w'.db.notices = w.db.notices ∨ ∃ fellowId, Notified fellowId w w') := by
  obtain ⟨hstep, hprompt⟩ := hstep
  rcases hstep.cases with ⟨hrefusals, hnotices, hclearances, hlater⟩
    | ⟨k, input, now, refusalId, rfl, hphase, hfresh, hcause, rfl⟩
  · refine ⟨fun fellowId => iff_of_false ?_ (not_notified hnotices), .inl hnotices⟩
    rintro ⟨hbelow, hreached⟩
    have hle := @count_mono w.db w'.db fellowId _ _ hrefusals hclearances (windowStart_mono hlater)
    unfold World.count at hbelow hreached
    omega
  · have hread := hinv.refusing k input now hphase
    rcases recordRefusal_cases hfresh hcause with hsame
      | ⟨hopen, hrepeated, hrefusals, hclearances, hnotices⟩
    · rw [hsame]
      refine ⟨fun fellowId => iff_of_false ?_ (not_notified rfl), .inl rfl⟩
      rintro ⟨hbelow, hreached⟩
      exact absurd hreached (Nat.ne_of_lt hbelow)
    · have hcount (fellowId : String) :
          (w.commit k (recordRefusal input refusalId now w.db)).count fellowId
            = w.count fellowId
              + if w.db.counts fellowId (windowStart w.now) (input.row refusalId now) then 1 else 0 :=
        count_append hrefusals hclearances fellowId _
      rcases hnotices with ⟨hcrosses, hnotices⟩ | ⟨hcrosses, hnotices⟩
      · have hnotified : Notified input.fellowId w
            (w.commit k (recordRefusal input refusalId now w.db)) :=
          ⟨input, refusalId, now, rfl, hnotices⟩
        refine ⟨fun fellowId => ?_, .inr ⟨input.fellowId, hnotified⟩⟩
        by_cases hfellow : input.fellowId = fellowId
        · subst hfellow
          obtain ⟨hthird, hwindow⟩ := hprompt hcrosses
          have hcounts : w.db.counts input.fellowId (windowStart w.now) (input.row refusalId now)
              = true :=
            counts_iff.mpr ⟨rfl, hwindow, latestClearance_all.mp hcrosses.2.2⟩
          refine iff_of_true ⟨by omega, ?_⟩ hnotified
          rw [hcount, if_pos hcounts, hthird]
        · refine iff_of_false ?_ ?_
          · rintro ⟨hbelow, hreached⟩
            rw [hcount, if_neg fun hcounts => hfellow (counts_iff.mp hcounts).1] at hreached
            omega
          · rintro ⟨input', refusalId', now', hfellow', hnotices'⟩
            have hsame := List.append_cancel_left (hnotices.symm.trans hnotices')
            exact hfellow ((congrArg Notice.fellowId (List.cons.inj hsame).1).trans hfellow')
      · refine ⟨fun fellowId => iff_of_false ?_ (not_notified hnotices), .inl hnotices⟩
        rintro ⟨hbelow, hreached⟩
        rw [hcount] at hreached
        split at hreached
        · rename_i hcounts
          obtain ⟨hfellow, -, hlater⟩ := counts_iff.mp hcounts
          obtain rfl : input.fellowId = fellowId := hfellow
          have hstale := @count_mono w.db w.db input.fellowId _ _ rfl (List.Subset.refl _)
            (windowStart_mono hread)
          refine hcrosses ⟨?_, hrepeated, latestClearance_all.mpr hlater⟩
          unfold World.count at hreached
          omega
        · omega

/-! ## The posture -/

/-- While the count stands at the threshold no refusal is recorded, and no
publication commits but one whose exact case is released. -/
theorem engaged_holds (hinv : Inv w) (hstep : Step w c w')
    (hengaged : w.count fellowId = postureRefusalThreshold) :
    (∀ r ∈ w'.db.refusals, r.fellowId = fellowId → r ∈ w.db.refusals)
    ∧ ∀ input, c = .published input → input.fellowId = fellowId →
      ∃ caseId, input.reviewCaseId = some caseId ∧ w.db.exactRelease input caseId = true := by
  constructor
  · intro r hr hfellow
    rcases hstep.cases with ⟨hrefusals, -, -, -⟩ | ⟨k, input, now, refusalId, rfl, hphase, hfresh,
      hcause, rfl⟩
    · exact hrefusals ▸ hr
    · rcases recordRefusal_cases hfresh hcause with hsame | ⟨hopen, -, hrefusals, -, -⟩
      · have hr : r ∈ (recordRefusal input refusalId now w.db).refusals := hr
        rwa [hsame] at hr
      · have hr : r ∈ (recordRefusal input refusalId now w.db).refusals := hr
        rw [hrefusals] at hr
        rcases List.mem_append.mp hr with hold | hnew
        · exact hold
        · obtain rfl := List.mem_singleton.mp hnew
          obtain rfl : input.fellowId = fellowId := hfellow
          have hstale := @count_mono w.db w.db input.fellowId _ _ rfl (List.Subset.refl _)
            (windowStart_mono (hinv.refusing k input now hphase))
          unfold World.count at hengaged
          omega
  · rintro input rfl rfl
    cases hstep with
    | publish k input now db hphase hpublished =>
        have hguard := (publish_some hpublished).1
        unfold Db.postureGuard at hguard
        split at hguard
        · have hstale := @count_mono w.db w.db input.fellowId _ _ rfl (List.Subset.refl _)
            (windowStart_mono (hinv.publishing k input now hphase))
          have hbelow := of_decide_eq_true hguard
          unfold World.count at hengaged
          omega
        · rename_i caseId hcase
          exact ⟨caseId, hcase, hguard⟩

/-! ## Clearances -/

theorem counts_back (hstep : Step w c w')
    (h : w'.db.counts fellowId (windowStart w'.now) r = true) :
    w.db.counts fellowId (windowStart w.now) r = true := by
  rcases hstep.cases with ⟨-, -, hclearances, hlater⟩ | ⟨k, input, now, refusalId, rfl, hphase,
    hfresh, hcause, rfl⟩
  · exact counts_mono hclearances (windowStart_mono hlater) h
  · have h : (recordRefusal input refusalId now w.db).counts fellowId (windowStart w.now) r = true :=
      h
    refine counts_mono ?_ (Int.le_refl _) h
    rcases recordRefusal_cases hfresh hcause with hsame | ⟨-, -, -, hclearances, -⟩
    · rw [hsame]
      exact List.Subset.refl _
    · rw [hclearances]
      exact List.Subset.refl _

theorem counts_back_run {commits : List Commit} (hrun : Trace PromptStep w commits w')
    (h : w'.db.counts fellowId (windowStart w'.now) r = true) :
    w.db.counts fellowId (windowStart w.now) r = true := by
  induction hrun with
  | nil w => exact h
  | cons hstep hrest ih => exact counts_back hstep.1 (ih h)

theorem cleared_not_counts {input : ClearanceInput} (hstep : PromptStep w (.cleared input now) w')
    (hr : r ∈ w.db.refusals) : w'.db.counts input.fellowId (windowStart w'.now) r = false := by
  by_contra hcounts
  have hcounts := Bool.not_eq_false _ ▸ hcounts
  have hcreated := hstep.2 r hr (counts_back hstep.1 hcounts)
  have hlater := (counts_iff.mp hcounts).2.2
  cases hstep.1 with
  | clear k input now windowNow clearanceId db hphase hread hread' hcleared =>
      obtain ⟨-, -, hclearances⟩ := clearPosture_some hcleared
      have hlater : ∀ c ∈ db.clearances, c.fellowId = input.fellowId → c.createdAt < r.createdAt :=
        hlater
      rw [hclearances] at hlater
      have hlast := hlater _ (List.mem_append_right _ (List.mem_singleton_self _)) rfl
      dsimp only at hlast
      omega

/-! ## Every run -/

structure World.Quiet (w : World) : Prop where
  within : ∀ fellowId, w.count fellowId ≤ postureRefusalThreshold
  waiting : ∀ k, w.calls k = .waiting

theorem World.Quiet.inv (h : w.Quiet) : Inv w where
  within := h.within
  refusing := by
    intro k input now hphase
    rw [h.waiting k] at hphase
    cases hphase
  publishing := by
    intro k input now hphase
    rw [h.waiting k] at hphase
    cases hphase

/-- In every run of prompt steps: the count stays within the threshold; a commit
records the notice exactly if it raises the count to the threshold; while the
count stands there, no refusal is recorded and no publication commits but one
whose exact case is released; and what was refused before a clearance never
counts after it. -/
theorem posture_sound {start w : World} {commits : List Commit} (hstart : start.Quiet)
    (hrun : Trace PromptStep start commits w) :
    (∀ fellowId, w.count fellowId ≤ postureRefusalThreshold)
    ∧ (∀ c w', PromptStep w c w' →
      (∀ fellowId, Raised fellowId w w' ↔ Notified fellowId w w')
      ∧ (w'.db.notices = w.db.notices ∨ ∃ fellowId, Notified fellowId w w')
      ∧ ∀ fellowId, w.count fellowId = postureRefusalThreshold →
        (∀ r ∈ w'.db.refusals, r.fellowId = fellowId → r ∈ w.db.refusals)
        ∧ ∀ input, c = .published input → input.fellowId = fellowId →
          ∃ caseId, input.reviewCaseId = some caseId ∧ w.db.exactRelease input caseId = true)
    ∧ ∀ input now after w', Trace PromptStep w (.cleared input now :: after) w' →
      ∀ r ∈ w.db.refusals, w'.db.counts input.fellowId (windowStart w'.now) r = false := by
  have hinv := inv_run hrun hstart.inv
  refine ⟨hinv.within, fun c w' hstep => ?_, fun input now after w' hrun' r hr => ?_⟩
  · obtain ⟨hraised, hnotices⟩ := raised_iff_notified hinv hstep
    exact ⟨hraised, hnotices, fun fellowId hengaged => engaged_holds hinv hstep.1 hengaged⟩
  · obtain ⟨w₁, hclear, hafter⟩ := Trace.cons_iff.mp hrun'
    by_contra hcounts
    have hback := counts_back_run hafter (Bool.not_eq_false _ ▸ hcounts)
    rw [cleared_not_counts hclear hr] at hback
    cases hback

/-! ## Readings that are too old -/

def sampleRefusal (n : Nat) (createdAt : Int) : Refusal :=
  ⟨toString n, "F-1", "SP-1", "P-1", .reject, "injection", toString n, createdAt⟩

def sampleInput : RefusalInput := ⟨"F-1", "SP-1", "P-1", .reject, "injection", "new bytes"⟩

def sampleClearance : ClearanceInput := ⟨"F-1", .operator, "operator", "Reviewed the refusals."⟩

def sampleDb (refusals : List Refusal) : Db :=
  ⟨refusals, [], [], [], [], [], fun _ => none, fun _ => true, fun _ => false⟩

def sampleWorld (now : Int) (refusals : List Refusal) : World :=
  ⟨now, sampleDb refusals, fun _ => .waiting⟩

theorem sampleWorld_quiet {refusals : List Refusal}
    (hlength : refusals.length ≤ postureRefusalThreshold) :
    (sampleWorld now refusals).Quiet where
  within := fun _ => Nat.le_trans List.countP_le_length hlength
  waiting := fun _ => rfl

/-- The third of three refusals within a second. -/
theorem posture_sound_sample :
    ∃ w, Trace PromptStep (sampleWorld 5 [sampleRefusal 1 0, sampleRefusal 2 1])
        [.other, .other, .refused sampleInput 5] w
      ∧ w.count "F-1" ≤ postureRefusalThreshold := by
  have hrun : Trace PromptStep (sampleWorld 5 [sampleRefusal 1 0, sampleRefusal 2 1])
      [.other, .other, .refused sampleInput 5] _ :=
    .cons ⟨.check _ 0 sampleInput 5 rfl (Int.le_refl 5) (by decide) (by decide), trivial⟩
      (.cons ⟨.readClock _ 0 sampleInput rfl, trivial⟩
        (.cons ⟨.refuse _ 0 sampleInput 5 "SR-3" rfl (by decide) (by decide),
          fun _ => ⟨by decide, by decide⟩⟩ (.nil _)))
  exact ⟨_, hrun, (posture_sound (sampleWorld_quiet (by decide)) hrun).1 "F-1"⟩

theorem clearance_behind :
    ∃ commits w w', Trace Step (sampleWorld (postureWindowMs - 5)
        [sampleRefusal 1 0, sampleRefusal 2 1, sampleRefusal 3 2]) commits w
      ∧ Step w (.cleared sampleClearance (postureWindowMs - 5)) w'
      ∧ ∃ r ∈ w.db.refusals, w'.db.counts "F-1" (windowStart w'.now) r = true :=
  ⟨_, _, _,
    .cons (.startClearance _ 0 sampleClearance rfl)
      (.cons (.tick _ (postureWindowMs + 1) (by decide))
        (.cons (.check _ 1 sampleInput (postureWindowMs + 1) rfl (Int.le_refl _) (by decide)
            (by decide))
          (.cons (.readClock _ 1 sampleInput rfl)
            (.cons (.refuse _ 1 sampleInput (postureWindowMs + 1) "SR-4" rfl (by decide) (by decide))
              (.nil _))))),
    .clear _ 0 sampleClearance (postureWindowMs - 5) (postureWindowMs - 5) "PC-1" _ rfl
      (Int.le_refl _) (by decide) rfl,
    sampleInput.row "SR-4" (postureWindowMs + 1), by decide, by decide⟩

theorem notice_behind :
    ∃ commits w w', Trace Step (sampleWorld (postureWindowMs - 1)
        [sampleRefusal 1 0, sampleRefusal 2 1]) commits w
      ∧ Step w (.refused sampleInput (postureWindowMs - 1)) w'
      ∧ Notified "F-1" w w' ∧ w'.count "F-1" = 1 :=
  ⟨_, _, _,
    .cons (.check _ 0 sampleInput (postureWindowMs - 1) rfl (Int.le_refl _) (by decide) (by decide))
      (.cons (.readClock _ 0 sampleInput rfl)
        (.cons (.tick _ (postureWindowMs + 5) (by decide)) (.nil _))),
    .refuse _ 0 sampleInput (postureWindowMs - 1) "SR-3" rfl (by decide) (by decide),
    ⟨sampleInput, "SR-3", postureWindowMs - 1, rfl, rfl⟩, by decide⟩

/-- With readings that are too old, a refusal counts after a clearance that
committed after it, and a notice comes with a count below the threshold. -/
theorem posture_unsound :
    (∃ start commits w w' input now, start.Quiet ∧ Trace Step start commits w
      ∧ Step w (.cleared input now) w'
      ∧ ∃ r ∈ w.db.refusals, w'.db.counts input.fellowId (windowStart w'.now) r = true)
    ∧ ∃ start commits w w' input now, start.Quiet ∧ Trace Step start commits w
      ∧ Step w (.refused input now) w' ∧ Notified input.fellowId w w'
      ∧ ¬Raised input.fellowId w w' := by
  constructor
  · obtain ⟨commits, w, w', hrun, hstep, hcounts⟩ := clearance_behind
    exact ⟨_, commits, w, w', sampleClearance, _, sampleWorld_quiet (by decide), hrun, hstep, hcounts⟩
  · obtain ⟨commits, w, w', hrun, hstep, hnotified, hcount⟩ := notice_behind
    refine ⟨_, commits, w, w', sampleInput, _, sampleWorld_quiet (by decide), hrun, hstep, hnotified,
      fun hraised => ?_⟩
    exact absurd (hcount.symm.trans hraised.2) (by decide)

end Asimposium.Posture
