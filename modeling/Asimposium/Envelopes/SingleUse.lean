import Mathlib
import Asimposium.Envelopes.Runs

/-!
# Single use

Every row of the nonce table comes from a verified call, in every run. A
second envelope with the nonce of an accepted one is refused, as long as
its upsert runs before the latest instant at which a clock within the
skew would still accept the first. A call keeps the reading of the clock
it began with, though: one that stalls between that reading and its
upsert comes to a table from which the nonce may be gone, and the
envelope is accepted again.
-/

namespace Asimposium.Envelopes

open Krater

variable {Isolate : Type} {crypto : Crypto} {skew : Int} {clocks : Clocks Isolate skew}
  {allowed : World Isolate → ServiceEnvelopeClaims → Prop}

/-! ## Runs keep the invariant -/

theorem inv_start (time : ℝ) :
    Inv crypto skew (⟨time, [], fun _ => .waiting⟩ : World Isolate) where
  keyed := List.nodup_nil
  recorded := by
    constructor
    · rintro k p envelope (h | h) <;> cases h
    · intro r hr
      cases hr
  readings := by rintro k p envelope (h | h) <;> cases h
  kept := by
    rintro k claims ⟨p, h⟩
    cases h

theorem Inv.tick {w : World Isolate} (h : Inv crypto skew w) {time : ℝ} (hlater : w.time ≤ time) :
    Inv crypto skew { w with time := time } where
  keyed := h.keyed
  recorded := ⟨h.recorded.calls, h.recorded.rows⟩
  readings := by
    intro k p envelope hflight
    obtain ⟨hnow, hskew⟩ := h.readings k p envelope hflight
    have hlast : w.time + skew ≤ time + skew := by linarith
    exact ⟨hnow.trans hlast, hskew⟩
  kept := by
    intro k claims haccepted
    rcases h.kept k claims haccepted with hremembered | hpast
    · exact .inl hremembered
    · exact .inr (hpast.trans hlater)

theorem Inv.sweep {w : World Isolate} (h : Inv crypto skew w) {isolate : Isolate} {readAt : ℝ}
    {nowMs : Int} (hread : readAt ≤ w.time) (hnow : nowMs / 1000 = clocks.read isolate readAt) :
    Inv crypto skew { w with nonces := expireSecurityRecords nowMs w.nonces } where
  keyed := h.keyed.sublist (expireSecurityRecords_sublist nowMs w.nonces)
  recorded := ⟨h.recorded.calls, fun r hr =>
    h.recorded.rows r ((expireSecurityRecords_sublist nowMs w.nonces).subset hr)⟩
  readings := h.readings
  kept := by
    have hreading : ((nowMs / 1000 : Int) : ℝ) ≤ w.time + skew := by
      have hclock := clocks.read_le isolate readAt
      rw [hnow]
      linarith
    intro k claims haccepted
    exact h.kept.rows { w with nonces := expireSecurityRecords nowMs w.nonces } le_rfl
      (fun r hr hlive => mem_expireSecurityRecords hr hlive) hreading haccepted

theorem inv_step {w w' : World Isolate} (h : Inv crypto skew w)
    (hstep : Step crypto clocks allowed w w') : Inv crypto skew w' := by
  cases hstep with
  | tick time hlater => exact h.tick hlater
  | present k p hwaiting hread hnow hskew =>
      exact h.move (moves_present h hwaiting hread hnow hskew)
  | cleanup k p envelope hphase => exact h.move (moves_cleanup h hphase)
  | claim k p envelope rows changed hphase hallowed hupsert =>
      exact h.move (moves_claim h hphase hupsert)
  | fail k p envelope hphase =>
      exact h.move (moves_refused h hphase h.keyed (keeps_refl _ _) fun r hr => .inl hr)
  | cleanupLost k p envelope hphase =>
      refine h.move (moves_refused h (.inl hphase)
        (h.keyed.sublist (D1NonceStore.cleanupExpired_sublist _ _ _))
        (D1NonceStore.keeps_cleanupExpired _ _ h.keyed) fun r hr => ?_)
      exact .inl ((D1NonceStore.cleanupExpired_sublist _ _ _).subset hr)
  | claimLost k p envelope rows changed hphase hupsert =>
      exact h.move (moves_refused h (.inr hphase) (upsert_keyed h.keyed hupsert)
        (upsert_keeps h.keyed hupsert) fun r hr => upsert_rows hupsert hr)
  | sweep isolate readAt nowMs hread hnow => exact h.sweep hread hnow

theorem reachable_inv {w : World Isolate} (hrun : Reachable crypto clocks allowed w) :
    Inv crypto skew w := by
  induction hrun with
  | start time => exact inv_start time
  | step _ hstep ih => exact inv_step ih hstep

/-! ## No second acceptance -/

theorem AcceptedOnce.move {w : World Isolate} (h : AcceptedOnce w) {k : Nat}
    {phase : Phase Isolate} {rows : List NonceRow}
    (hphase : ∀ p claims, phase ≠ .answered p (.ok (accepted claims))) :
    AcceptedOnce (w.move k phase rows) := by
  intro i j claims claims' hi hj hnonce
  rcases accepted_move hi with ⟨-, hi⟩ | ⟨-, p, hnew⟩
  · rcases accepted_move hj with ⟨-, hj⟩ | ⟨-, p, hnew⟩
    · exact h i j claims claims' hi hj hnonce
    · exact absurd hnew (hphase p claims')
  · exact absurd hnew (hphase p claims)

theorem AcceptedOnce.move_fresh {w : World Isolate} (h : AcceptedOnce w) {k : Nat}
    {p : Presentation Isolate} {claims : ServiceEnvelopeClaims} {rows : List NonceRow}
    (hfresh : ∀ i claims', Accepted w i claims' → claims'.nonce ≠ claims.nonce) :
    AcceptedOnce (w.move k (.answered p (.ok (accepted claims))) rows) := by
  have hclaims : ∀ q claims', Phase.answered p (.ok (accepted claims))
      = .answered q (.ok (accepted claims')) → claims' = claims := by
    intro q claims' heq
    obtain ⟨-, hanswer⟩ := Phase.answered.inj heq
    exact congrArg EnvelopeVerification.claims (Except.ok.inj hanswer).symm
  intro i j claims₁ claims₂ hi hj hnonce
  rcases accepted_move hi with ⟨-, hi⟩ | ⟨rfl, q, hnew⟩
  · rcases accepted_move hj with ⟨-, hj⟩ | ⟨-, q, hnew⟩
    · exact h i j claims₁ claims₂ hi hj hnonce
    · rw [hclaims q claims₂ hnew] at hnonce
      exact absurd hnonce (hfresh i claims₁ hi)
  · rcases accepted_move hj with ⟨-, hj⟩ | ⟨rfl, q', hnew'⟩
    · rw [hclaims q claims₁ hnew] at hnonce
      exact absurd hnonce.symm (hfresh j claims₂ hj)
    · rfl

theorem timely_refused {w : World Isolate} (h : Inv crypto skew w) {k i : Nat}
    {p : Presentation Isolate} {envelope : ServiceEnvelope} {claims : ServiceEnvelopeClaims}
    {rows : List NonceRow} {changed : Bool} (hphase : w.calls k = .claiming p envelope)
    (htimely : Timely skew w envelope.claims)
    (hupsert : upsert crypto p envelope w.nonces = some (rows, changed))
    (haccepted : Accepted w i claims) (hnonce : claims.nonce = envelope.claims.nonce) :
    changed = false := by
  have htime := htimely i claims haccepted hnonce
  obtain ⟨hnow, -⟩ := h.readings k p envelope (.inr hphase)
  refine (claimNonce_changed h.keyed hupsert).mpr ?_
  rcases h.kept i claims haccepted with ⟨r, hr, hhash, hlasts⟩ | hpast
  · have hhash' : r.nonceHash = nonceHash crypto envelope.claims := by
      rw [hhash]
      unfold nonceHash
      rw [hnonce]
    have hlive : (p.options.now : ℝ) < r.expiresAt := by
      have hreal : ((nonceExpiresAt claims skew : Int) : ℝ) ≤ r.expiresAt := Int.cast_le.mpr hlasts
      unfold nonceExpiresAt at hreal
      push_cast at hreal
      linarith
    exact ⟨r, hr, hhash', Int.cast_lt.mp hlive⟩
  · exact absurd hpast (not_le.mpr htime)

theorem once_step {w w' : World Isolate} (h : Inv crypto skew w) (honce : AcceptedOnce w)
    (hstep : Step crypto clocks (Timely skew) w w') : AcceptedOnce w' := by
  cases hstep with
  | tick time hlater => exact honce
  | present k p hwaiting hread hnow hskew =>
      refine honce.move fun q claims hnew => ?_
      rcases present_cases crypto p with ⟨reason, hpresent⟩ | ⟨envelope, hpresent, -⟩
      · rw [hpresent] at hnew
        cases hnew
      · rw [hpresent] at hnew
        cases hnew
  | cleanup k p envelope hphase => exact honce.move fun q claims hnew => by cases hnew
  | claim k p envelope rows changed hphase htimely hupsert =>
      cases changed with
      | false => exact honce.move fun q claims hnew => by cases hnew
      | true =>
          refine honce.move_fresh fun i claims haccepted hnonce => ?_
          cases timely_refused h hphase htimely hupsert haccepted hnonce
  | fail k p envelope hphase => exact honce.move fun q claims hnew => by cases hnew
  | cleanupLost k p envelope hphase => exact honce.move fun q claims hnew => by cases hnew
  | claimLost k p envelope rows changed hphase hupsert =>
      exact honce.move fun q claims hnew => by cases hnew
  | sweep isolate readAt nowMs hread hnow => exact honce

theorem once_start (time : ℝ) :
    AcceptedOnce (⟨time, [], fun _ => .waiting⟩ : World Isolate) := by
  rintro i j claims claims' ⟨p, h⟩
  cases h

theorem reachable_once {w : World Isolate}
    (hrun : Reachable crypto clocks (Timely skew) w) : AcceptedOnce w := by
  induction hrun with
  | start time => exact once_start time
  | step hrun hstep ih => exact once_step (reachable_inv hrun) ih hstep

/-- In every run the nonce table holds verified calls only, and in every run
whose upserts are timely no nonce is accepted twice. -/
theorem envelope_single_use (crypto : Crypto) (clocks : Clocks Isolate skew) (w : World Isolate) :
    (Reachable crypto clocks (fun _ _ => True) w → Recorded crypto w)
    ∧ (Reachable crypto clocks (Timely skew) w → Recorded crypto w ∧ AcceptedOnce w) :=
  ⟨fun hrun => (reachable_inv hrun).recorded,
    fun hrun => ⟨(reachable_inv hrun).recorded, reachable_once hrun⟩⟩

/-! ## A stalled call

Both calls present the same envelope. The second reads the clock at the
last second it may, and comes to the table when the nonce has been swept.
-/

def stalledClaims : ServiceEnvelopeClaims where
  v := "asimp-env-1"
  kid := "agora-1"
  alg := "Ed25519"
  iss := "agora"
  aud := "stoa"
  iat := 1000
  exp := 1120
  nonce := "9f2c41d07ab85e36c1f4802d6be93a57"
  method := "POST"
  route := "/v1/sponsor/fellows"
  action := "fellow.create"
  principalType := "sponsor"
  principalId := "usr_1"
  payloadSha256 := "44136fa355b3678a1146ad16f7e8649e94fb4fc21fe77e8310c060f61caaff8a"

def stalledSignature : String :=
  "69b537cdf988267acb73a8213dc5dcec5169f2269d6c42819423a10b095d1a1d751a2288a16dd25ac2d92e23b8545a2e86726025f6f6354923c6d8292fe5fc09"

def stalledValue : JsonValue :=
  .object [("claims", .object [("v", .text "asimp-env-1"), ("kid", .text "agora-1"),
      ("alg", .text "Ed25519"), ("iss", .text "agora"), ("aud", .text "stoa"),
      ("iat", .number 1000), ("exp", .number 1120),
      ("nonce", .text "9f2c41d07ab85e36c1f4802d6be93a57"), ("method", .text "POST"),
      ("route", .text "/v1/sponsor/fellows"), ("action", .text "fellow.create"),
      ("principal_type", .text "sponsor"), ("principal_id", .text "usr_1"),
      ("payload_sha256",
        .text "44136fa355b3678a1146ad16f7e8649e94fb4fc21fe77e8310c060f61caaff8a")]),
    ("signature", .text stalledSignature)]

def stalledKey : VerificationKeyRecord where
  kid := "agora-1"
  publicKeyHex := "5b49f560f3bfa46e11af114fead6f6cedf25ef2ad2b5552a0db294ce6f5d5ba3"
  notBefore := 0
  notAfter := none

def stalledSha256 (bytes : ByteArray) : String :=
  if bytes = "{}".toUTF8 then stalledClaims.payloadSha256
  else "3e598405d1a3ecca76ccb45ce10e119a10a3e3559b0395c24c38e3642f5267e7"

/-- What the platform answers on the one envelope presented. -/
def stalledCrypto : Crypto where
  importable _ := true
  verify key signature message := some <| decide (key = stalledKey.publicKeyHex
    ∧ fromHex stalledSignature.toList = some signature ∧ message = canonicalBytes stalledClaims)
  sha256Hex := stalledSha256

def stalledOptions (now : Int) : VerifyOptions where
  keyring := [stalledKey]
  nonces := ⟨100, by decide⟩
  now := now
  issuer := "agora"
  audience := "stoa"
  body := "{}".toUTF8
  method := "POST"
  route := "/v1/sponsor/fellows"
  clockSkewSeconds := none
  maxLifetimeSeconds := none
  permittedActions := ["fellow.create"]
  expectedPrincipalType := none

theorem stalled_parsed :
    parseEnvelope stalledValue = some ⟨stalledClaims, stalledSignature⟩ := by
  decide +kernel

theorem stalled_checked {now : Int} (hissued : 1120 ≤ now) (hunexpired : now ≤ 1180) :
    checkClaims (stalledOptions now) stalledClaims = .ok () := by
  have hpast : ¬ now + 60 < 1000 := by omega
  simp [checkClaims, stalledOptions, stalledClaims, VerifyOptions.skew, VerifyOptions.maxLifetime,
    serviceEnvelopeClockSkewSeconds, defaultMaxLifetimeSeconds, isSafeInteger, maxSafeInteger,
    envelopeVersion, hpast, hunexpired]

theorem stalled_signed (now : Int) : checkSignature stalledCrypto (stalledOptions now)
    ⟨stalledClaims, stalledSignature⟩ = .ok () := by
  have hhex : (fromHex stalledSignature.toList).isSome := by decide +kernel
  obtain ⟨signature, hsignature⟩ := Option.isSome_iff_exists.mp hhex
  have hkey : lookupKey stalledCrypto [stalledKey] stalledClaims.kid stalledClaims.iat
      = .ok stalledKey.publicKeyHex := by
    simp [lookupKey, stalledKey, stalledClaims, stalledCrypto, isSafeInteger, maxSafeInteger]
  refine checkSignature_ok.mpr ⟨stalledKey.publicKeyHex, signature, hkey, hsignature, ?_⟩
  exact congrArg some (decide_eq_true ⟨rfl, hsignature, rfl⟩)

theorem stalled_verified {now : Int} (hissued : 1120 ≤ now) (hunexpired : now ≤ 1180) :
    verifyClaims stalledCrypto (stalledOptions now) stalledValue
      = .ok ⟨stalledClaims, stalledSignature⟩ := by
  have hdigest : stalledCrypto.sha256Hex (stalledOptions now).body
      = stalledClaims.payloadSha256 := by
    show stalledSha256 "{}".toUTF8 = _
    exact if_pos rfl
  unfold verifyClaims
  rw [stalled_parsed]
  refine ExceptRun.bind_unit_ok.mpr ⟨stalled_checked hissued hunexpired, ?_⟩
  refine ExceptRun.bind_unit_ok.mpr ⟨stalled_signed now, ?_⟩
  rw [constantTimeEqual_iff.mpr hdigest]
  rfl

def stalledPresentation (now : Int) : Presentation Unit := ⟨(), now, stalledOptions now, stalledValue⟩

def stalledEnvelope : ServiceEnvelope := ⟨stalledClaims, stalledSignature⟩

noncomputable def stalledClocks : Clocks Unit 60 where
  read _ time := ⌊time⌋
  close := by
    intro _ time
    have hle := Int.floor_le time
    have hlt := Int.lt_floor_add_one time
    rw [abs_le]
    push_cast
    constructor <;> linarith

def stalledRow (now : Int) : NonceRow :=
  ⟨"3e598405d1a3ecca76ccb45ce10e119a10a3e3559b0395c24c38e3642f5267e7", 1301, now⟩

theorem stalled_upsert {now : Int} (hunexpired : now ≤ 1180) :
    upsert stalledCrypto (stalledPresentation now) stalledEnvelope []
      = some ([stalledRow now], true) := by
  have hhash : nonceHash stalledCrypto stalledEnvelope.claims = (stalledRow now).nonceHash := by
    show stalledSha256 stalledClaims.nonce.toUTF8 = _
    exact if_neg (by decide +kernel)
  have hdigest : isSha256Hex (stalledRow now).nonceHash = true := by
    show isSha256Hex "3e598405d1a3ecca76ccb45ce10e119a10a3e3559b0395c24c38e3642f5267e7" = true
    decide +kernel
  have hopen : now < 1301 := by omega
  unfold upsert claimNonce
  rw [hhash, hdigest]
  show (if !(true && decide (now < 1301)) then none else some ([stalledRow now], true)) = _
  rw [decide_eq_true hopen]
  rfl

section Stalled

variable {w : World Unit} {allowed : World Unit → ServiceEnvelopeClaims → Prop}

theorem stalled_presents (k : Nat) (now : Int)
    (hrun : Reachable stalledCrypto stalledClocks allowed w)
    (hwaiting : w.calls k = .waiting) (hissued : 1120 ≤ now) (hunexpired : now ≤ 1180)
    (hread : (now : ℝ) ≤ w.time) : Reachable stalledCrypto stalledClocks allowed
      (w.move k (.cleaning (stalledPresentation now) stalledEnvelope) w.nonces) := by
  have hpresent : present stalledCrypto (stalledPresentation now)
      = .cleaning (stalledPresentation now) stalledEnvelope := by
    unfold present
    rw [show verifyClaims stalledCrypto (stalledPresentation now).options
      (stalledPresentation now).envelope = .ok stalledEnvelope from
        stalled_verified hissued hunexpired]
    refine if_pos ?_
    show (isSafeInteger now && decide (0 ≤ now) && validEpochSecond 1301 && decide (now < 1301))
      = true
    have hsafe : isSafeInteger now = true := by
      unfold isSafeInteger maxSafeInteger
      rw [decide_eq_true_eq]
      omega
    rw [hsafe, decide_eq_true (show 0 ≤ now by omega), decide_eq_true (show now < 1301 by omega)]
    rfl
  have hstep : Step stalledCrypto stalledClocks allowed w _ :=
    .present w k (stalledPresentation now) hwaiting hread (Int.floor_intCast now).symm rfl
  rw [hpresent] at hstep
  exact hrun.step hstep

theorem stalled_claims (k : Nat) (now : Int)
    (hrun : Reachable stalledCrypto stalledClocks allowed w)
    (hphase : w.calls k = .cleaning (stalledPresentation now) stalledEnvelope)
    (hempty : w.nonces = []) (hunexpired : now ≤ 1180)
    (hallowed : ∀ w', w'.time = w.time → (∀ i claims, Accepted w' i claims → Accepted w i claims) →
      allowed w' stalledClaims) :
    ∃ w', Reachable stalledCrypto stalledClocks allowed w' ∧ Accepted w' k stalledClaims
      ∧ w'.time = w.time ∧ w'.nonces = [stalledRow now]
      ∧ ∀ i, i ≠ k → w'.calls i = w.calls i := by
  have hcleaned := hrun.step (Step.cleanup w k _ _ hphase)
  rw [hempty] at hcleaned
  have hclaimed := hcleaned.step (Step.claim _ k (stalledPresentation now) stalledEnvelope
    [stalledRow now] true (World.move_calls_self w k _ _) (hallowed _ rfl ?_)
    (stalled_upsert hunexpired))
  · refine ⟨_, hclaimed, ⟨_, World.move_calls_self _ k _ _⟩, rfl, rfl, fun i hi => ?_⟩
    rw [World.move_calls_other _ _ _ hi, World.move_calls_other _ _ _ hi]
  · intro i claims haccepted
    rcases accepted_move haccepted with ⟨-, hold⟩ | ⟨-, p, hnew⟩
    · exact hold
    · cases hnew

end Stalled

/-- The envelope is accepted at its expiry, and again by a call that read the
clock a minute later and reached the table after the sweep. -/
theorem stalled_call_accepts_again :
    ∃ w : World Unit, Reachable stalledCrypto stalledClocks (fun _ _ => True) w
      ∧ Accepted w 0 stalledClaims ∧ Accepted w 1 stalledClaims ∧ ¬AcceptedOnce w := by
  have hstart : Reachable stalledCrypto stalledClocks (fun _ _ => True) _ := .start 1120
  have hfirst := stalled_presents 0 1120 hstart rfl le_rfl (by omega) (by norm_num)
  obtain ⟨w₁, hrun₁, haccepted₁, htime₁, hrows₁, hothers₁⟩ :=
    stalled_claims 0 1120 hfirst (World.move_calls_self _ _ _ _) rfl (by omega) fun _ _ _ => trivial
  -- The second call reads the clock, and stalls.
  have hlater := hrun₁.step (Step.tick w₁ 1180 (by rw [htime₁]; norm_num))
  have hsecond := stalled_presents 1 1180 hlater
    (hothers₁ 1 (by decide)) (by omega) le_rfl (by norm_num)
  have hstalled := hsecond.step (Step.tick _ 1301 (by norm_num))
  have hswept := hstalled.step (Step.sweep _ () 1301 1301000 le_rfl
    (by norm_num [stalledClocks]))
  have hempty : expireSecurityRecords 1301000 w₁.nonces = [] := by
    rw [hrows₁]
    rfl
  have hphase : (if (1 : Nat) = 1 then .cleaning (stalledPresentation 1180) stalledEnvelope
      else w₁.calls 1) = Phase.cleaning (stalledPresentation 1180) stalledEnvelope := if_pos rfl
  obtain ⟨w₂, hrun₂, haccepted₂, -, -, hothers₂⟩ :=
    stalled_claims 1 1180 hswept hphase hempty le_rfl fun _ _ _ => trivial
  have hkept : Accepted w₂ 0 stalledClaims := by
    obtain ⟨p, hp⟩ := haccepted₁
    refine ⟨p, ?_⟩
    rw [hothers₂ 0 (by decide)]
    exact hp
  refine ⟨w₂, hrun₂, hkept, haccepted₂, fun honce => ?_⟩
  cases honce 0 1 stalledClaims stalledClaims hkept haccepted₂ rfl

/-- The first of the two calls alone. -/
theorem single_use_first_call :
    ∃ w : World Unit, Accepted w 0 stalledClaims ∧ Recorded stalledCrypto w ∧ AcceptedOnce w := by
  have hstart : Reachable stalledCrypto stalledClocks (Timely 60) _ := .start 1120
  have hfirst := stalled_presents 0 1120 hstart rfl le_rfl (by omega) (by norm_num)
  have hnone : ∀ i claims, ¬Accepted (World.move (⟨1120, [], fun _ => .waiting⟩ : World Unit) 0
      (.cleaning (stalledPresentation 1120) stalledEnvelope) []) i claims := by
    intro i claims haccepted
    rcases accepted_move haccepted with ⟨-, p, hold⟩ | ⟨-, p, hnew⟩
    · cases hold
    · cases hnew
  obtain ⟨w, hrun, haccepted, -, -, -⟩ :=
    stalled_claims 0 1120 hfirst (World.move_calls_self _ _ _ _) rfl (by omega)
      fun w' _ hold i claims haccepted => absurd (hold i claims haccepted) (hnone i claims)
  exact ⟨w, haccepted, (envelope_single_use stalledCrypto stalledClocks w).2 hrun⟩

end Asimposium.Envelopes
