import Asimposium.Envelopes.Envelope
import Asimposium.Lib.ExceptRun
import Mathlib.Data.Real.Basic
import Mathlib.Tactic.Linarith

/-!
# Presentations against one nonce table

Isolates verify envelopes side by side and share one nonce table. Each
reads its own clock, which is never further from true time than the
configured skew. A call reads the clock once, before it reads the body;
its cleanup and its claim then reach the table at instants of their own,
and between them anything may happen: other calls, the scheduled sweep,
a lost response.
-/

namespace Asimposium.Envelopes

open Krater

/-! ## The parties -/

structure Clocks (Isolate : Type) (skew : Int) where
  read : Isolate → ℝ → Int
  close : ∀ isolate time, |(read isolate time : ℝ) - time| ≤ skew

theorem Clocks.read_le {Isolate : Type} {skew : Int} (clocks : Clocks Isolate skew)
    (isolate : Isolate) (time : ℝ) : (clocks.read isolate time : ℝ) ≤ time + skew := by
  have hclose := (abs_le.mp (clocks.close isolate time)).2
  linarith

/-- One presentation: the clock is read at `readAt`, before the body is. -/
structure Presentation (Isolate : Type) where
  isolate : Isolate
  readAt : ℝ
  options : VerifyOptions
  envelope : JsonValue

structure AttributedPrincipal where
  type : String
  id : String
  action : String
  kid : String

structure EnvelopeVerification where
  principal : AttributedPrincipal
  claims : ServiceEnvelopeClaims

def accepted (claims : ServiceEnvelopeClaims) : EnvelopeVerification :=
  ⟨⟨claims.principalType, claims.principalId, claims.action, claims.kid⟩, claims⟩

/-- Where one call of `verifyServiceEnvelope` stands. -/
inductive Phase (Isolate : Type) where
  | waiting
  /-- Verified, before the cleanup batch of its claim. -/
  | cleaning (p : Presentation Isolate) (envelope : ServiceEnvelope)
  /-- Before the upsert. -/
  | claiming (p : Presentation Isolate) (envelope : ServiceEnvelope)
  | answered (p : Presentation Isolate)
      (answer : Except EnvelopeRefusalReason EnvelopeVerification)

structure World (Isolate : Type) where
  time : ℝ
  nonces : List NonceRow
  calls : Nat → Phase Isolate

variable {Isolate : Type} {crypto : Crypto} {skew : Int} {clocks : Clocks Isolate skew}

def World.move (w : World Isolate) (k : Nat) (phase : Phase Isolate) (rows : List NonceRow) :
    World Isolate where
  time := w.time
  nonces := rows
  calls := fun i => if i = k then phase else w.calls i

/-- What a call has decided when it first turns to the nonce table. -/
def present (crypto : Crypto) (p : Presentation Isolate) : Phase Isolate :=
  match verifyClaims crypto p.options p.envelope with
  | .error reason => .answered p (.error reason)
  | .ok envelope =>
      if claimableWindow (nonceExpiresAt envelope.claims p.options.skew) p.options.now then
        .cleaning p envelope
      else .answered p (.error .storeUnavailable)

def nonceHash (crypto : Crypto) (claims : ServiceEnvelopeClaims) : String :=
  crypto.sha256Hex claims.nonce.toUTF8

def upsert (crypto : Crypto) (p : Presentation Isolate) (envelope : ServiceEnvelope)
    (rows : List NonceRow) : Option (List NonceRow × Bool) :=
  claimNonce (nonceHash crypto envelope.claims) (nonceExpiresAt envelope.claims p.options.skew)
    p.options.now rows

def claimAnswer (envelope : ServiceEnvelope) (changed : Bool) :
    Except EnvelopeRefusalReason EnvelopeVerification :=
  if changed then .ok (accepted envelope.claims) else .error .replayed

/-! ## Steps -/

/-- One step of the deployment. `allowed` says at which states a call may
run the upsert for these claims. -/
inductive Step (crypto : Crypto) (clocks : Clocks Isolate skew)
    (allowed : World Isolate → ServiceEnvelopeClaims → Prop) : World Isolate → World Isolate → Prop
  | tick (w : World Isolate) (time : ℝ) (hlater : w.time ≤ time) :
      Step crypto clocks allowed w { w with time := time }
  | present (w : World Isolate) (k : Nat) (p : Presentation Isolate)
      (hwaiting : w.calls k = .waiting) (hread : p.readAt ≤ w.time)
      (hnow : p.options.now = clocks.read p.isolate p.readAt) (hskew : p.options.skew = skew) :
      Step crypto clocks allowed w (w.move k (present crypto p) w.nonces)
  | cleanup (w : World Isolate) (k : Nat) (p : Presentation Isolate) (envelope : ServiceEnvelope)
      (hphase : w.calls k = .cleaning p envelope) :
      Step crypto clocks allowed w
        (w.move k (.claiming p envelope) (p.options.nonces.cleanupExpired p.options.now w.nonces))
  | claim (w : World Isolate) (k : Nat) (p : Presentation Isolate) (envelope : ServiceEnvelope)
      (rows : List NonceRow) (changed : Bool) (hphase : w.calls k = .claiming p envelope)
      (hallowed : allowed w envelope.claims)
      (hupsert : upsert crypto p envelope w.nonces = some (rows, changed)) :
      Step crypto clocks allowed w (w.move k (.answered p (claimAnswer envelope changed)) rows)
  /-- The store throws, and nothing was changed. -/
  | fail (w : World Isolate) (k : Nat) (p : Presentation Isolate) (envelope : ServiceEnvelope)
      (hphase : w.calls k = .cleaning p envelope ∨ w.calls k = .claiming p envelope) :
      Step crypto clocks allowed w (w.move k (.answered p (.error .storeUnavailable)) w.nonces)
  /-- The cleanup batch ran, and its response was lost. -/
  | cleanupLost (w : World Isolate) (k : Nat) (p : Presentation Isolate)
      (envelope : ServiceEnvelope) (hphase : w.calls k = .cleaning p envelope) :
      Step crypto clocks allowed w
        (w.move k (.answered p (.error .storeUnavailable))
          (p.options.nonces.cleanupExpired p.options.now w.nonces))
  /-- The upsert ran, and its response was lost. -/
  | claimLost (w : World Isolate) (k : Nat) (p : Presentation Isolate) (envelope : ServiceEnvelope)
      (rows : List NonceRow) (changed : Bool) (hphase : w.calls k = .claiming p envelope)
      (hupsert : upsert crypto p envelope w.nonces = some (rows, changed)) :
      Step crypto clocks allowed w (w.move k (.answered p (.error .storeUnavailable)) rows)
  | sweep (w : World Isolate) (isolate : Isolate) (readAt : ℝ) (nowMs : Int)
      (hread : readAt ≤ w.time) (hnow : nowMs / 1000 = clocks.read isolate readAt) :
      Step crypto clocks allowed w { w with nonces := expireSecurityRecords nowMs w.nonces }

/-- The states of a run that begins with no call and no nonce. -/
inductive Reachable (crypto : Crypto) (clocks : Clocks Isolate skew)
    (allowed : World Isolate → ServiceEnvelopeClaims → Prop) : World Isolate → Prop
  | start (time : ℝ) : Reachable crypto clocks allowed ⟨time, [], fun _ => .waiting⟩
  | step {w w' : World Isolate} (hrun : Reachable crypto clocks allowed w)
      (hstep : Step crypto clocks allowed w w') : Reachable crypto clocks allowed w'

/-! ## What is promised -/

/-- Call `k` accepted an envelope with these claims. -/
def Accepted (w : World Isolate) (k : Nat) (claims : ServiceEnvelopeClaims) : Prop :=
  ∃ p, w.calls k = .answered p (.ok (accepted claims))

def AcceptedOnce (w : World Isolate) : Prop :=
  ∀ i j claims claims', Accepted w i claims → Accepted w j claims' → claims.nonce = claims'.nonce →
    i = j

/-- Shape and claim bounds, signature, body digest and principal type hold of
what was presented. -/
structure Verified (crypto : Crypto) (p : Presentation Isolate) (envelope : ServiceEnvelope) :
    Prop where
  parsed : parseEnvelope p.envelope = some envelope
  checked : checkClaims p.options envelope.claims = .ok ()
  signed : ∃ key signature,
    lookupKey crypto p.options.keyring envelope.claims.kid envelope.claims.iat = .ok key
      ∧ fromHex envelope.signature.toList = some signature
      ∧ crypto.verify key signature (canonicalBytes envelope.claims) = some true
  digest : crypto.sha256Hex p.options.body = envelope.claims.payloadSha256
  principal : envelope.claims.principalType = p.options.expectedPrincipalType.getD "sponsor"

/-- Call `k` has verified its envelope and turned to the nonce table. -/
def InFlight (w : World Isolate) (k : Nat) (p : Presentation Isolate) (envelope : ServiceEnvelope) :
    Prop :=
  w.calls k = .cleaning p envelope ∨ w.calls k = .claiming p envelope

/-- Only verified calls come to the table, and every row of it was written
by one, for the nonce of its own envelope. -/
structure Recorded (crypto : Crypto) (w : World Isolate) : Prop where
  calls : ∀ k p envelope, InFlight w k p envelope → Verified crypto p envelope
  rows : ∀ r ∈ w.nonces, ∃ k p envelope answer, w.calls k = .answered p answer
    ∧ Verified crypto p envelope
    ∧ r = ⟨nonceHash crypto envelope.claims, nonceExpiresAt envelope.claims p.options.skew,
        p.options.now⟩

/-- Of every envelope accepted under this nonce, the latest instant at which
a clock within the skew could still accept it has not passed by a second. -/
def Timely (skew : Int) (w : World Isolate) (claims : ServiceEnvelopeClaims) : Prop :=
  ∀ k claims', Accepted w k claims' → claims'.nonce = claims.nonce →
    w.time < claims'.exp + 2 * skew + 1

/-! ## One call moves -/

@[simp] theorem World.move_time (w : World Isolate) (k : Nat) (phase : Phase Isolate)
    (rows : List NonceRow) : (w.move k phase rows).time = w.time := rfl

@[simp] theorem World.move_nonces (w : World Isolate) (k : Nat) (phase : Phase Isolate)
    (rows : List NonceRow) : (w.move k phase rows).nonces = rows := rfl

theorem World.move_calls_self (w : World Isolate) (k : Nat) (phase : Phase Isolate)
    (rows : List NonceRow) : (w.move k phase rows).calls k = phase := if_pos rfl

theorem World.move_calls_other (w : World Isolate) {k i : Nat} (phase : Phase Isolate)
    (rows : List NonceRow) (h : i ≠ k) : (w.move k phase rows).calls i = w.calls i := if_neg h

theorem accepted_move {w : World Isolate} {k i : Nat} {phase : Phase Isolate}
    {rows : List NonceRow} {claims : ServiceEnvelopeClaims}
    (h : Accepted (w.move k phase rows) i claims) :
    (i ≠ k ∧ Accepted w i claims) ∨ (i = k ∧ ∃ p, phase = .answered p (.ok (accepted claims))) := by
  obtain ⟨p, hp⟩ := h
  by_cases hi : i = k
  · subst hi
    rw [World.move_calls_self] at hp
    exact .inr ⟨rfl, p, hp⟩
  · rw [World.move_calls_other w phase rows hi] at hp
    exact .inl ⟨hi, p, hp⟩

theorem answered_move {w : World Isolate} {k i : Nat} {phase : Phase Isolate}
    {rows : List NonceRow} {p : Presentation Isolate}
    {answer : Except EnvelopeRefusalReason EnvelopeVerification}
    (hopen : ∀ q answer, w.calls k ≠ .answered q answer) (h : w.calls i = .answered p answer) :
    (w.move k phase rows).calls i = .answered p answer := by
  have hother : i ≠ k := by
    rintro rfl
    exact hopen p answer h
  rw [World.move_calls_other w phase rows hother, h]

/-! ## What one call verifies -/

theorem checkSignature_ok {options : VerifyOptions} {envelope : ServiceEnvelope} :
    checkSignature crypto options envelope = .ok () ↔ ∃ key signature,
      lookupKey crypto options.keyring envelope.claims.kid envelope.claims.iat = .ok key
        ∧ fromHex envelope.signature.toList = some signature
        ∧ crypto.verify key signature (canonicalBytes envelope.claims) = some true := by
  unfold checkSignature
  rw [ExceptRun.bind_ok]
  constructor
  · rintro ⟨key, hkey, h⟩
    split at h
    · cases h
    rename_i signature hsignature
    split at h
    · rename_i hverify
      exact ⟨key, signature, hkey, hsignature, hverify⟩
    · cases h
  · rintro ⟨key, signature, hkey, hsignature, hverify⟩
    refine ⟨key, hkey, ?_⟩
    rw [hsignature]
    exact if_pos hverify

theorem verifyClaims_ok {p : Presentation Isolate} {envelope : ServiceEnvelope}
    (h : verifyClaims crypto p.options p.envelope = .ok envelope) : Verified crypto p envelope := by
  unfold verifyClaims at h
  split at h
  · cases h
  rename_i parsed hparsed
  obtain ⟨hchecked, h⟩ := ExceptRun.bind_unit_ok.mp h
  obtain ⟨hsigned, h⟩ := ExceptRun.bind_unit_ok.mp h
  split at h
  · cases h
  rename_i hdigest
  split at h
  · cases h
  rename_i hprincipal
  split at h
  · cases h
  obtain rfl := Except.ok.inj h
  rw [Bool.not_eq_true, Bool.not_eq_false'] at hdigest
  exact ⟨hparsed, hchecked, checkSignature_ok.mp hsigned, constantTimeEqual_iff.mp hdigest,
    not_not.mp hprincipal⟩

theorem present_cases (crypto : Crypto) (p : Presentation Isolate) :
    (∃ reason, present crypto p = .answered p (.error reason))
    ∨ ∃ envelope, present crypto p = .cleaning p envelope ∧ Verified crypto p envelope := by
  unfold present
  split
  · rename_i reason _
    exact .inl ⟨reason, rfl⟩
  · rename_i envelope hverified
    split
    · exact .inr ⟨envelope, rfl, verifyClaims_ok hverified⟩
    · exact .inl ⟨_, rfl⟩

/-! ## What the table keeps -/

/-- Every row that is live at `now` stays. -/
def Keeps (now : Int) (rows rows' : List NonceRow) : Prop :=
  ∀ r ∈ rows, now < r.expiresAt → r ∈ rows'

theorem upsert_keyed {p : Presentation Isolate} {envelope : ServiceEnvelope}
    {rows rows' : List NonceRow} {changed : Bool} (hkeyed : Keyed rows)
    (h : upsert crypto p envelope rows = some (rows', changed)) : Keyed rows' := by
  rcases claimNonce_cases h with ⟨rfl, -, hfresh⟩ | ⟨rfl, -, -⟩ | ⟨rfl, -, -⟩
  · unfold Keyed
    rw [List.map_append, List.nodup_append]
    refine ⟨hkeyed, List.nodup_singleton _, fun a ha b hb => ?_⟩
    obtain ⟨r, hr, rfl⟩ := List.mem_map.mp ha
    rw [List.mem_singleton.mp hb]
    exact hfresh r hr
  · unfold Keyed
    rw [List.map_map]
    have hsame : ∀ r ∈ rows, (NonceRow.nonceHash ∘ fun r =>
        if r.nonceHash == nonceHash crypto envelope.claims then
          ⟨nonceHash crypto envelope.claims, nonceExpiresAt envelope.claims p.options.skew,
            p.options.now⟩
        else r) r = r.nonceHash := by
      intro r _
      rw [Function.comp_apply]
      split
      · rename_i heq
        exact (beq_iff_eq.mp heq).symm
      · rfl
    rw [List.map_congr_left hsame]
    exact hkeyed
  · exact hkeyed

theorem upsert_keeps {p : Presentation Isolate} {envelope : ServiceEnvelope}
    {rows rows' : List NonceRow} {changed : Bool} (hkeyed : Keyed rows)
    (h : upsert crypto p envelope rows = some (rows', changed)) :
    Keeps p.options.now rows rows' := by
  intro r hr hlive
  rcases claimNonce_cases h with ⟨rfl, -, -⟩ | ⟨rfl, -, q, hq, hhash, hexpired⟩ | ⟨rfl, -, -⟩
  · exact List.mem_append_left _ hr
  · refine List.mem_map.mpr ⟨r, hr, if_neg ?_⟩
    rw [beq_iff_eq]
    intro heq
    rw [hkeyed.eq hr hq (heq.trans hhash.symm)] at hlive
    omega
  · exact hr

theorem upsert_rows {p : Presentation Isolate} {envelope : ServiceEnvelope}
    {rows rows' : List NonceRow} {changed : Bool}
    (h : upsert crypto p envelope rows = some (rows', changed)) {r : NonceRow} (hr : r ∈ rows') :
    r ∈ rows ∨ r = ⟨nonceHash crypto envelope.claims,
      nonceExpiresAt envelope.claims p.options.skew, p.options.now⟩ := by
  rcases claimNonce_cases h with ⟨rfl, -, -⟩ | ⟨rfl, -, -⟩ | ⟨rfl, -, -⟩
  · rcases List.mem_append.mp hr with hold | hnew
    · exact .inl hold
    · exact .inr (List.mem_singleton.mp hnew)
  · obtain ⟨q, hq, rfl⟩ := List.mem_map.mp hr
    split
    · exact .inr rfl
    · exact .inl hq
  · exact .inl hr

theorem upsert_remembers {p : Presentation Isolate} {envelope : ServiceEnvelope}
    {rows rows' : List NonceRow} (h : upsert crypto p envelope rows = some (rows', true)) :
    Remembered rows' (nonceHash crypto envelope.claims)
      (nonceExpiresAt envelope.claims p.options.skew) := by
  refine ⟨⟨nonceHash crypto envelope.claims, nonceExpiresAt envelope.claims p.options.skew,
    p.options.now⟩, ?_, rfl, le_rfl⟩
  rcases claimNonce_cases h with ⟨rfl, -, -⟩ | ⟨rfl, -, q, hq, hhash, -⟩ | ⟨-, hfalse, -⟩
  · exact List.mem_append_right _ (List.mem_singleton.mpr rfl)
  · exact List.mem_map.mpr ⟨q, hq, if_pos (beq_iff_eq.mpr hhash)⟩
  · cases hfalse

/-! ## The invariant -/

/-- An accepted nonce is in the table, or its envelope is past acceptance
on every clock within the skew. -/
def Kept (crypto : Crypto) (skew : Int) (w : World Isolate) : Prop :=
  ∀ k claims, Accepted w k claims →
    Remembered w.nonces (nonceHash crypto claims) (nonceExpiresAt claims skew)
      ∨ (claims.exp : ℝ) + 2 * skew + 1 ≤ w.time

structure Inv (crypto : Crypto) (skew : Int) (w : World Isolate) : Prop where
  keyed : Keyed w.nonces
  recorded : Recorded crypto w
  readings : ∀ k p envelope, InFlight w k p envelope →
    (p.options.now : ℝ) ≤ w.time + skew ∧ p.options.skew = skew
  kept : Kept crypto skew w

theorem Remembered.keeps {rows rows' : List NonceRow} {hash : String} {exp now : Int} {time : ℝ}
    (hkeeps : Keeps now rows rows') (hnow : (now : ℝ) ≤ time + skew)
    (h : Remembered rows hash (exp + 3 * skew + 1)) :
    Remembered rows' hash (exp + 3 * skew + 1) ∨ (exp : ℝ) + 2 * skew + 1 ≤ time := by
  obtain ⟨r, hr, hhash, hlasts⟩ := h
  by_cases hlive : now < r.expiresAt
  · exact .inl ⟨r, hkeeps r hr hlive, hhash, hlasts⟩
  · right
    have hexpired : exp + 3 * skew + 1 ≤ now := by omega
    have hreal : ((exp + 3 * skew + 1 : Int) : ℝ) ≤ now := Int.cast_le.mpr hexpired
    push_cast at hreal
    linarith

theorem Kept.rows {w : World Isolate} (w' : World Isolate) {now : Int} (h : Kept crypto skew w)
    (htime : w.time ≤ w'.time) (hkeeps : Keeps now w.nonces w'.nonces)
    (hnow : (now : ℝ) ≤ w.time + skew) {k : Nat} {claims : ServiceEnvelopeClaims}
    (haccepted : Accepted w k claims) :
    Remembered w'.nonces (nonceHash crypto claims) (nonceExpiresAt claims skew)
      ∨ (claims.exp : ℝ) + 2 * skew + 1 ≤ w'.time := by
  rcases h k claims haccepted with hremembered | hpast
  · rcases hremembered.keeps hkeeps hnow with hstill | hpast
    · exact .inl hstill
    · exact .inr (hpast.trans htime)
  · exact .inr (hpast.trans htime)

/-- What a call may do when it moves: the table keeps what is live at a
reading of a clock, new rows and an acceptance are the call's own. -/
structure Moves (crypto : Crypto) (skew : Int) (w : World Isolate) (k : Nat) (phase : Phase Isolate)
    (rows : List NonceRow) (now : Int) : Prop where
  unanswered : ∀ q answer, w.calls k ≠ .answered q answer
  keyed : Keyed rows
  keeps : Keeps now w.nonces rows
  reading : (now : ℝ) ≤ w.time + skew
  written : ∀ r ∈ rows, r ∈ w.nonces ∨ ∃ p envelope answer, phase = .answered p answer
    ∧ Verified crypto p envelope
    ∧ r = ⟨nonceHash crypto envelope.claims, nonceExpiresAt envelope.claims p.options.skew,
        p.options.now⟩
  flight : ∀ p envelope, phase = .cleaning p envelope ∨ phase = .claiming p envelope →
    Verified crypto p envelope ∧ (p.options.now : ℝ) ≤ w.time + skew ∧ p.options.skew = skew
  accepts : ∀ p claims, phase = .answered p (.ok (accepted claims)) →
    Remembered rows (nonceHash crypto claims) (nonceExpiresAt claims skew)

theorem inFlight_move {w : World Isolate} {k i : Nat} {phase : Phase Isolate}
    {rows : List NonceRow} {p : Presentation Isolate} {envelope : ServiceEnvelope}
    (h : InFlight (w.move k phase rows) i p envelope) :
    InFlight w i p envelope ∨ phase = .cleaning p envelope ∨ phase = .claiming p envelope := by
  unfold InFlight at h
  by_cases hi : i = k
  · subst hi
    rw [World.move_calls_self] at h
    exact .inr h
  · rw [World.move_calls_other w phase rows hi] at h
    exact .inl h

theorem Inv.move {w : World Isolate} {k : Nat} {phase : Phase Isolate} {rows : List NonceRow}
    {now : Int} (h : Inv crypto skew w) (hmoves : Moves crypto skew w k phase rows now) :
    Inv crypto skew (w.move k phase rows) where
  keyed := hmoves.keyed
  recorded := by
    constructor
    · intro i p envelope hflight
      rcases inFlight_move hflight with hold | hnew
      · exact h.recorded.calls i p envelope hold
      · exact (hmoves.flight p envelope hnew).1
    · intro r hr
      rcases hmoves.written r hr with hold | ⟨p, envelope, answer, rfl, hverified, hrow⟩
      · obtain ⟨i, p, envelope, answer, hanswered, hrow⟩ := h.recorded.rows r hold
        exact ⟨i, p, envelope, answer, answered_move hmoves.unanswered hanswered, hrow⟩
      · exact ⟨k, p, envelope, answer, w.move_calls_self k _ rows, hverified, hrow⟩
  readings := by
    intro i p envelope hflight
    rcases inFlight_move hflight with hold | hnew
    · exact h.readings i p envelope hold
    · exact (hmoves.flight p envelope hnew).2
  kept := by
    intro i claims haccepted
    rcases accepted_move haccepted with ⟨-, hold⟩ | ⟨-, p, hnew⟩
    · exact h.kept.rows (w.move k phase rows) le_rfl hmoves.keeps hmoves.reading hold
    · exact .inl (hmoves.accepts p claims hnew)

/-! ## Each step -/

theorem keeps_refl (now : Int) (rows : List NonceRow) : Keeps now rows rows := fun _ hr _ => hr

theorem D1NonceStore.keeps_cleanupExpired (store : D1NonceStore) (now : Int)
    {rows : List NonceRow} (hkeyed : Keyed rows) : Keeps now rows (store.cleanupExpired now rows) :=
  fun _ hr hlive => D1NonceStore.mem_cleanupExpired hkeyed hr hlive

theorem claimAnswer_ok {envelope : ServiceEnvelope} {changed : Bool}
    {claims : ServiceEnvelopeClaims}
    (h : claimAnswer envelope changed = .ok (accepted claims)) :
    changed = true ∧ envelope.claims = claims := by
  unfold claimAnswer at h
  split at h
  · rename_i hchanged
    exact ⟨hchanged, congrArg EnvelopeVerification.claims (Except.ok.inj h)⟩
  · cases h

theorem moves_present {w : World Isolate} {k : Nat} {p : Presentation Isolate}
    (h : Inv crypto skew w) (hwaiting : w.calls k = .waiting) (hread : p.readAt ≤ w.time)
    (hnow : p.options.now = clocks.read p.isolate p.readAt) (hskew : p.options.skew = skew) :
    Moves crypto skew w k (present crypto p) w.nonces p.options.now := by
  have hreading : (p.options.now : ℝ) ≤ w.time + skew := by
    have hclock := clocks.read_le p.isolate p.readAt
    rw [hnow]
    linarith
  refine ⟨fun q answer hanswered => ?_, h.keyed, keeps_refl _ _, hreading, fun r hr => .inl hr,
    fun q envelope hphase => ?_, fun q claims hphase => ?_⟩
  · rw [hwaiting] at hanswered
    cases hanswered
  · rcases present_cases crypto p with ⟨reason, hpresent⟩ | ⟨envelope', hpresent, hverified⟩
    · rw [hpresent] at hphase
      rcases hphase with hphase | hphase <;> cases hphase
    · rw [hpresent] at hphase
      rcases hphase with hphase | hphase
      · cases hphase
        exact ⟨hverified, hreading, hskew⟩
      · cases hphase
  · rcases present_cases crypto p with ⟨reason, hpresent⟩ | ⟨envelope', hpresent, -⟩
    · rw [hpresent] at hphase
      cases hphase
    · rw [hpresent] at hphase
      cases hphase

theorem unanswered_of_inFlight {w : World Isolate} {k : Nat} {p : Presentation Isolate}
    {envelope : ServiceEnvelope} (h : InFlight w k p envelope)
    (q : Presentation Isolate) (answer : Except EnvelopeRefusalReason EnvelopeVerification) :
    w.calls k ≠ .answered q answer := by
  intro hanswered
  rcases h with h | h
  · rw [h] at hanswered
    cases hanswered
  · rw [h] at hanswered
    cases hanswered

theorem moves_cleanup {w : World Isolate} {k : Nat} {p : Presentation Isolate}
    {envelope : ServiceEnvelope} (h : Inv crypto skew w)
    (hphase : w.calls k = .cleaning p envelope) :
    Moves crypto skew w k (.claiming p envelope)
      (p.options.nonces.cleanupExpired p.options.now w.nonces) p.options.now := by
  have hflight : InFlight w k p envelope := .inl hphase
  refine ⟨unanswered_of_inFlight hflight,
    h.keyed.sublist (D1NonceStore.cleanupExpired_sublist _ _ _),
    D1NonceStore.keeps_cleanupExpired _ _ h.keyed, (h.readings k p envelope hflight).1,
    fun r hr => .inl ((D1NonceStore.cleanupExpired_sublist _ _ _).subset hr),
    fun q envelope' hnew => ?_, fun q claims hnew => by cases hnew⟩
  rcases hnew with hnew | hnew
  · cases hnew
  · cases hnew
    exact ⟨h.recorded.calls k p envelope hflight, h.readings k p envelope hflight⟩

theorem moves_refused {w : World Isolate} {k : Nat} {p : Presentation Isolate}
    {envelope : ServiceEnvelope} {reason : EnvelopeRefusalReason} {rows : List NonceRow}
    (h : Inv crypto skew w) (hflight : InFlight w k p envelope) (hkeyed : Keyed rows)
    (hkeeps : Keeps p.options.now w.nonces rows)
    (hrows : ∀ r ∈ rows, r ∈ w.nonces ∨ r = ⟨nonceHash crypto envelope.claims,
      nonceExpiresAt envelope.claims p.options.skew, p.options.now⟩) :
    Moves crypto skew w k (.answered p (.error reason)) rows p.options.now := by
  refine ⟨unanswered_of_inFlight hflight, hkeyed, hkeeps, (h.readings k p envelope hflight).1,
    fun r hr => ?_, fun q envelope' hnew => ?_, fun q claims hnew => by cases hnew⟩
  · rcases hrows r hr with hold | hnew
    · exact .inl hold
    · exact .inr ⟨p, envelope, _, rfl, h.recorded.calls k p envelope hflight, hnew⟩
  · rcases hnew with hnew | hnew <;> cases hnew

theorem moves_claim {w : World Isolate} {k : Nat} {p : Presentation Isolate}
    {envelope : ServiceEnvelope} {rows : List NonceRow} {changed : Bool} (h : Inv crypto skew w)
    (hphase : w.calls k = .claiming p envelope)
    (hupsert : upsert crypto p envelope w.nonces = some (rows, changed)) :
    Moves crypto skew w k (.answered p (claimAnswer envelope changed)) rows p.options.now := by
  have hflight : InFlight w k p envelope := .inr hphase
  refine ⟨unanswered_of_inFlight hflight, upsert_keyed h.keyed hupsert,
    upsert_keeps h.keyed hupsert, (h.readings k p envelope hflight).1, fun r hr => ?_,
    fun q envelope' hnew => ?_, fun q claims hnew => ?_⟩
  · rcases upsert_rows hupsert hr with hold | hnew
    · exact .inl hold
    · exact .inr ⟨p, envelope, _, rfl, h.recorded.calls k p envelope hflight, hnew⟩
  · rcases hnew with hnew | hnew <;> cases hnew
  · obtain ⟨rfl, hanswer⟩ := Phase.answered.inj hnew
    obtain ⟨rfl, rfl⟩ := claimAnswer_ok hanswer
    have hremembers := upsert_remembers hupsert
    rwa [(h.readings k p envelope hflight).2] at hremembers

end Asimposium.Envelopes
