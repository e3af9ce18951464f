import Asimposium.Lib.Related
import Asimposium.Screening.AggregateLaws

/-!
# The verdict fails closed

An observation is made worse when the provider fails on it, or when a correct
decision becomes a wrong one. Then no failure of the run goes away.
-/

namespace Asimposium.Screening

open ExceptRun

variable {F : Type} {numerics : Numerics F} {containsCredentialShape : Text → Bool}
  {identity : ScreeningRunIdentity} {thresholds : ScreeningThresholds F}

/-! ## Worse observations -/

/-- The decision is the one the truth of the example asks for. -/
def isCorrect (e : ScreeningCorpusExample) (o : ScreeningObservation F) : Bool :=
  sentinelDecisionMatches (expectedOutcomeFor e.groundTruth) o.decision

/-- A correct decision has become a wrong one, of the same screen. -/
structure WrongDecision (e : ScreeningCorpusExample) (o o' : ScreeningObservation F) : Prop where
  answered : o.providerStatus = .ok
  answers : o'.providerStatus = .ok
  correct : isCorrect e o = true
  wrong : isCorrect e o' = false
  modelVersion : o'.modelVersion = o.modelVersion
  policyVersion : o'.policyVersion = o.policyVersion
  configurationDigest : o'.configurationDigest = o.configurationDigest

def Worse (e : ScreeningCorpusExample) (o o' : ScreeningObservation F) : Prop :=
  o'.providerStatus ≠ .ok ∨ WrongDecision e o o'

def SentinelAgrees (e : ScreeningCorpusExample) : Prop :=
  ∀ kind, e.sentinel = some kind → kind.definition.expectedOutcome = expectedOutcomeFor e.groundTruth

theorem sentinelAgrees_of_check {e : ScreeningCorpusExample}
    (h : checkExample containsCredentialShape e = .ok ()) : SentinelAgrees e := by
  intro kind hkind
  obtain ⟨-, h⟩ := bind_unit_ok.mp h
  obtain ⟨-, h⟩ := bind_unit_ok.mp h
  obtain ⟨-, h⟩ := bind_unit_ok.mp h
  obtain ⟨hsentinel, -⟩ := bind_unit_ok.mp h
  rw [refuse_ok, hkind, Option.any_some, Bool.or_eq_false_iff, bne_eq_false_iff_eq] at hsentinel
  rw [← hsentinel.1]
  cases kind <;> rfl

/-- What a pair may be after its observation was made worse. -/
structure Degraded (p p' : ScreeningPair F) : Prop where
  same : p'.1 = p.1
  agrees : SentinelAgrees p.1
  observation : p'.2 = p.2 ∨ WrongDecision p.1 p.2 p'.2

/-! ## A correct decision has no fault -/

theorem correct_no_fault {p : ScreeningPair F} (h : isCorrect p.1 p.2 = true) :
    isFalsePositive p = false ∧ isFalseNegative p = false ∧ isQuarantinePublish p = false
      ∧ isQuarantineOverRefusal p = false := by
  unfold isCorrect at h
  unfold isFalsePositive isFalseNegative isQuarantinePublish isQuarantineOverRefusal
  generalize p.1.groundTruth = truth at h ⊢
  generalize p.2.decision = decision at h ⊢
  revert h
  cases truth <;> cases decision <;> decide

theorem correct_no_sentinelFailure {p : ScreeningPair F} (hagrees : SentinelAgrees p.1)
    (h : isCorrect p.1 p.2 = true) : sentinelFailure p = none := by
  unfold sentinelFailure
  split
  · rfl
  · rename_i kind hkind
    rw [hagrees kind hkind, if_pos (by rw [show sentinelDecisionMatches _ _ = true from h,
      Bool.or_true])]

namespace Degraded

variable {p p' : ScreeningPair F}

theorem providerOk_eq (h : Degraded p p') : providerOk p = providerOk p' := by
  rcases h.observation with heq | hwrong
  · rw [providerOk, providerOk, heq]
  · rw [providerOk, providerOk, hwrong.answered, hwrong.answers]

theorem hasTruth_eq (h : Degraded p p') (truth : GroundTruth) :
    hasTruth truth p = hasTruth truth p' := by rw [hasTruth, hasTruth, h.same]

theorem measured_eq (h : Degraded p p') (truth : GroundTruth) :
    measured truth p = measured truth p' := by
  rw [measured, measured, h.providerOk_eq, h.hasTruth_eq]

theorem pair_eq (h : Degraded p p') (heq : p'.2 = p.2) : p' = p := Prod.ext h.same heq

theorem faulty_of (h : Degraded p p') {truth : GroundTruth} {fault : ScreeningPair F → Bool}
    (hfault : isCorrect p.1 p.2 = true → fault p = false) (hfaulty : faulty truth fault p = true) :
    faulty truth fault p' = true := by
  rcases h.observation with heq | hwrong
  · rw [h.pair_eq heq]
    exact hfaulty
  · rw [faulty, hfault hwrong.correct] at hfaulty
    cases hfaulty

theorem sentinelFailure_of (h : Degraded p p') (hsome : (sentinelFailure p).isSome = true) :
    (sentinelFailure p').isSome = true := by
  rcases h.observation with heq | hwrong
  · rw [h.pair_eq heq]
    exact hsome
  · rw [correct_no_sentinelFailure h.agrees hwrong.correct] at hsome
    cases hsome

theorem version_eq (h : Degraded p p') : p.2.modelVersion = p'.2.modelVersion
    ∧ p.2.policyVersion = p'.2.policyVersion
    ∧ p.2.configurationDigest = p'.2.configurationDigest := by
  rcases h.observation with heq | hwrong
  · rw [heq]
    exact ⟨rfl, rfl, rfl⟩
  · exact ⟨hwrong.modelVersion.symm, hwrong.policyVersion.symm, hwrong.configurationDigest.symm⟩

end Degraded

/-! ## No failure goes away -/

theorem pushed_subset {failed failed' : Bool} (h : failed = true → failed' = true)
    (failure : RunFailure) : pushed failed failure ⊆ pushed failed' failure := by
  intro f hf
  rw [mem_pushed] at hf ⊢
  exact ⟨h hf.1, hf.2⟩

theorem append_subset_append {l₁ l₁' l₂ l₂' : List RunFailure} (h₁ : l₁ ⊆ l₁') (h₂ : l₂ ⊆ l₂') :
    l₁ ++ l₂ ⊆ l₁' ++ l₂' :=
  List.append_subset.mpr ⟨fun _ h => List.mem_append_left _ (h₁ h),
    fun _ h => List.mem_append_right _ (h₂ h)⟩

section Degraded

variable {pairs pairs' : List (ScreeningPair F)} (h : List.Forall₂ Degraded pairs pairs')

include h

theorem providerFailureCount_eq : providerFailureCount pairs = providerFailureCount pairs' := by
  rw [providerFailureCount, providerFailureCount, ← List.countP_eq_length_filter,
    ← List.countP_eq_length_filter]
  exact Related.countP_eq h fun p p' hp => by rw [hp.providerOk_eq]

theorem length_hasTruth_eq (truth : GroundTruth) :
    (pairs.filter (hasTruth truth)).length = (pairs'.filter (hasTruth truth)).length := by
  rw [← List.countP_eq_length_filter, ← List.countP_eq_length_filter]
  exact Related.countP_eq h fun p p' hp => hp.hasTruth_eq truth

variable (numerics) in
theorem rateOf_mono (truth : GroundTruth) {fault : ScreeningPair F → Bool}
    (hfault : ∀ p : ScreeningPair F, isCorrect p.1 p.2 = true → fault p = false) :
    (rateOf numerics truth fault pairs).numerator
        ≤ (rateOf numerics truth fault pairs').numerator
      ∧ (rateOf numerics truth fault pairs).denominator
        = (rateOf numerics truth fault pairs').denominator := by
  rw [rateOf_numerator, rateOf_numerator, rateOf_denominator, rateOf_denominator]
  exact ⟨Related.countP_le h fun p p' hp => hp.faulty_of (hfault p),
    Related.countP_eq h fun p p' hp => hp.measured_eq truth⟩

theorem exceeds_mono {truth : GroundTruth} {fault : ScreeningPair F → Bool} {bar : F}
    (hfault : ∀ p : ScreeningPair F, isCorrect p.1 p.2 = true → fault p = false)
    (hexceeds : exceedsExclusiveMax numerics (rateOf numerics truth fault pairs) bar = true) :
    exceedsExclusiveMax numerics (rateOf numerics truth fault pairs') bar = true := by
  obtain ⟨hle, heq⟩ := rateOf_mono numerics h truth hfault
  rw [exceedsExclusiveMax, heq, Bool.and_eq_true] at hexceeds
  rw [exceedsExclusiveMax, Bool.and_eq_true]
  exact ⟨hexceeds.1, numerics.quotientReaches_mono hle hexceeds.2⟩

theorem above_mono {truth : GroundTruth} {fault : ScreeningPair F → Bool} {bar : F}
    (hfault : ∀ p : ScreeningPair F, isCorrect p.1 p.2 = true → fault p = false)
    (habove : numerics.above (rateOf numerics truth fault pairs).numerator bar = true) :
    numerics.above (rateOf numerics truth fault pairs').numerator bar = true :=
  numerics.above_mono (rateOf_mono numerics h _ hfault).1 habove

theorem failuresOf_subset : failuresOf numerics identity thresholds pairs
    ⊆ failuresOf numerics identity thresholds pairs' := by
  have hdeclared (kind : SentinelKind) : sentinelDeclared pairs kind = sentinelDeclared pairs' kind := by
    rw [sentinelDeclared, sentinelDeclared, ← List.countP_eq_length_filter,
      ← List.countP_eq_length_filter]
    exact Related.countP_eq h fun p p' hp => by rw [hp.same]
  have hsentinels : (sentinelFailures pairs).length ≤ (sentinelFailures pairs').length := by
    rw [sentinelFailures, sentinelFailures, List.length_insertionSort, List.length_insertionSort,
      List.length_filterMap_eq_countP, List.length_filterMap_eq_countP]
    exact Related.countP_le h fun p p' hp => hp.sentinelFailure_of
  have hmodel : modelVersions pairs = modelVersions pairs' := by
    rw [modelVersions, modelVersions, Related.map_eq h fun p p' hp => hp.version_eq.1]
  have hpolicy : policyVersions pairs = policyVersions pairs' := by
    rw [policyVersions, policyVersions, Related.map_eq h fun p p' hp => hp.version_eq.2.1]
  have hdigest : configurationDigests pairs = configurationDigests pairs' := by
    rw [configurationDigests, configurationDigests,
      Related.map_eq h fun p p' hp => hp.version_eq.2.2]
  have heligible : (eligible .legitimate pairs).length = (eligible .legitimate pairs').length := by
    rw [length_eligible, length_eligible]
    exact Related.countP_eq h fun p p' hp => hp.measured_eq _
  simp only [failuresOf, length_hasTruth_eq h, hdeclared, providerFailureCount_eq h, hmodel, hpolicy,
    hdigest, heligible]
  refine append_subset_append (append_subset_append (append_subset_append (append_subset_append
    (append_subset_append (append_subset_append (append_subset_append (append_subset_append
    (append_subset_append (append_subset_append (append_subset_append (append_subset_append
    (List.Subset.refl _) (List.Subset.refl _)) (List.Subset.refl _)) (List.Subset.refl _)) ?_) ?_)
    ?_) ?_) ?_) (List.Subset.refl _)) (List.Subset.refl _)) (List.Subset.refl _))
    (List.Subset.refl _)
  · refine pushed_subset (fun hfailed => ?_) _
    rw [Bool.and_eq_true] at hfailed ⊢
    exact ⟨hfailed.1, exceeds_mono h (fun p hp => (correct_no_fault hp).2.2.2) hfailed.2⟩
  · exact pushed_subset (above_mono h fun p hp => (correct_no_fault hp).2.2.1) _
  · refine pushed_subset (fun hfailed => ?_) _
    rw [Bool.and_eq_true] at hfailed ⊢
    exact ⟨hfailed.1, exceeds_mono h (fun p hp => (correct_no_fault hp).1) hfailed.2⟩
  · exact pushed_subset (above_mono h fun p hp => (correct_no_fault hp).2.1) _
  · refine pushed_subset (fun hfailed => ?_) _
    rw [decide_eq_true_eq] at hfailed ⊢
    exact hfailed.trans_le hsentinels

theorem verdict_mono
    (hpass : verdictOf (failuresOf numerics identity thresholds pairs')
      (providerFailureCount pairs') = .pass) :
    verdictOf (failuresOf numerics identity thresholds pairs) (providerFailureCount pairs) = .pass := by
  obtain ⟨hcount, hprovider⟩ := verdictOf_pass hpass
  rw [providerFailureCount_eq h, hcount]
  exact verdictOf_of_provider fun f hf => hprovider f (failuresOf_subset h hf)

end Degraded

/-! ## One observation is replaced -/

theorem find?_replaced (before after : List (ScreeningObservation F)) {o o' : ScreeningObservation F}
    (hid : o'.exampleId = o.exampleId) (k : Text) :
    Option.Rel (fun x y => y = x ∨ (x = o ∧ y = o'))
      ((before ++ o :: after).find? (·.exampleId == k))
      ((before ++ o' :: after).find? (·.exampleId == k)) := by
  have hrefl (x : Option (ScreeningObservation F)) :
      Option.Rel (fun x y => y = x ∨ (x = o ∧ y = o')) x x := by
    cases x with
    | none => exact .none
    | some x => exact .some (.inl rfl)
  rw [List.find?_append, List.find?_append]
  cases before.find? (·.exampleId == k) with
  | some x => exact .some (.inl rfl)
  | none =>
      rw [Option.none_or, Option.none_or, List.find?_cons, List.find?_cons, hid]
      cases o.exampleId == k with
      | true => exact .some (.inr ⟨rfl, rfl⟩)
      | false => exact hrefl _

theorem pairs_degraded {corpus : List ScreeningCorpusExample}
    {before after : List (ScreeningObservation F)} {o o' : ScreeningObservation F}
    {e : ScreeningCorpusExample}
    (h : Complete numerics containsCredentialShape corpus (before ++ o :: after))
    (he : e ∈ corpus) (hid : e.id = o.exampleId) (hid' : o'.exampleId = o.exampleId)
    (hwrong : WrongDecision e o o') :
    List.Forall₂ Degraded (pairsOf corpus (before ++ o :: after))
      (pairsOf corpus (before ++ o' :: after)) := by
  refine Related.filterMap fun d hd => ?_
  have hd := (List.mem_insertionSort _).mp hd
  have hagrees := sentinelAgrees_of_check (h.examples d hd)
  have hrel := find?_replaced before after hid' d.id
  have hlookup := fun x => UniqueKey.find?_eq_some
    (f := fun o : ScreeningObservation F => o.exampleId) (k := d.id) (a := x) h.exampleIds
  generalize (before ++ o :: after).find? (·.exampleId == d.id) = x at hrel hlookup ⊢
  generalize (before ++ o' :: after).find? (·.exampleId == d.id) = y at hrel ⊢
  cases hrel with
  | none => exact .none
  | @some x y hxy =>
      refine .some ⟨rfl, hagrees, ?_⟩
      rcases hxy with heq | ⟨rfl, rfl⟩
      · exact .inl heq
      · -- the example of the observation is the one of its identifier
        have hkey : x.exampleId = d.id := ((hlookup x).mp rfl).2
        have hsame : d = e :=
          List.inj_on_of_nodup_map h.ids hd he (hkey.symm.trans hid.symm)
        exact .inr (hsame ▸ hwrong)

theorem worse_not_pass {corpus : List ScreeningCorpusExample}
    {before after : List (ScreeningObservation F)} {o o' : ScreeningObservation F}
    {e : ScreeningCorpusExample} {report report' : ScreeningAggregateReport F}
    (h : aggregateScreeningRun numerics containsCredentialShape corpus (before ++ o :: after)
      identity thresholds = .ok report)
    (h' : aggregateScreeningRun numerics containsCredentialShape corpus (before ++ o' :: after)
      identity thresholds = .ok report')
    (he : e ∈ corpus) (hid : e.id = o.exampleId) (hid' : o'.exampleId = o.exampleId)
    (hworse : Worse e o o') (hverdict : report.verdict ≠ .pass) : report'.verdict ≠ .pass := by
  obtain ⟨-, hcomplete, hreport⟩ := aggregateScreeningRun_ok.mp h
  obtain ⟨-, hcomplete', hreport'⟩ := aggregateScreeningRun_ok.mp h'
  obtain ⟨aggregated, rfl⟩ := reportOf_ok hreport
  obtain ⟨aggregated', rfl⟩ := reportOf_ok hreport'
  rw [reportWith_verdict] at hverdict ⊢
  intro hpass
  obtain ⟨d, hpair⟩ :=
    hcomplete'.paired (o := o') (List.mem_append_right _ List.mem_cons_self)
  rcases hworse with hfailed | hwrong
  · exact hfailed (pass_closed hpass (d, o') hpair).1
  · exact hverdict (verdict_mono (pairs_degraded hcomplete he hid hid' hwrong) hpass)

/-- The report of a complete run: the same in every order of its inputs,
partitioned by category and by stratum, closed to a provider's failure and to
another identity, and not turned green by an observation made worse. -/
theorem aggregateScreeningRun_laws {corpus : List ScreeningCorpusExample}
    {observations : List (ScreeningObservation F)} {report : ScreeningAggregateReport F}
    (h : aggregateScreeningRun numerics containsCredentialShape corpus observations identity
      thresholds = .ok report) :
    (∀ corpus' observations', corpus.Perm corpus' → observations.Perm observations' →
      aggregateScreeningRun numerics containsCredentialShape corpus' observations' identity
        thresholds = .ok report)
    ∧ Grouped numerics report (pairsOf corpus observations) (·.policyCategory.label)
      report.byPolicyCategory
    ∧ Grouped numerics report (pairsOf corpus observations) (·.stratum) report.byStratum
    ∧ ((∃ o ∈ observations, o.providerStatus ≠ .ok ∨ ¬Identified identity o) →
      report.verdict ≠ .pass)
    ∧ (report.verdict ≠ .pass → ∀ before o after o' e report',
      observations = before ++ o :: after → e ∈ corpus → e.id = o.exampleId →
      o'.exampleId = o.exampleId → Worse e o o' →
      aggregateScreeningRun numerics containsCredentialShape corpus (before ++ o' :: after)
        identity thresholds = .ok report' → report'.verdict ≠ .pass) := by
  obtain ⟨hidentity, hcomplete, hreport⟩ := aggregateScreeningRun_ok.mp h
  obtain ⟨aggregated, hbuilt⟩ := reportOf_ok hreport
  refine ⟨fun corpus' observations' hcorpus hobservations => ?_, ?_, ?_, ?_, ?_⟩
  · refine aggregateScreeningRun_ok.mpr ⟨hidentity, hcomplete.perm hcorpus hobservations, ?_⟩
    rw [← pairsOf_perm hcorpus hobservations hcomplete.ids hcomplete.exampleIds]
    exact hreport
  · rw [hbuilt]
    exact reportWith_grouped _ aggregated _
  · rw [hbuilt]
    exact reportWith_grouped _ aggregated _
  · rintro ⟨o, ho, hnot⟩ hpass
    obtain ⟨e, hpair⟩ := hcomplete.paired ho
    rw [hbuilt, reportWith_verdict] at hpass
    obtain ⟨hok, hidentified⟩ := pass_closed hpass (e, o) hpair
    exact hnot.elim (fun h => h hok) fun h => h hidentified
  · rintro hverdict before o after o' e report' rfl he hid hid' hworse h'
    exact worse_not_pass h h' he hid hid' hworse hverdict

/-! ## A run -/

/-- Numbers in millionths; the intervals are those of one observation. -/
def millionths : Numerics Nat where
  published := fun numerator denominator =>
    (2 * numerator * 1000000 + denominator) / (2 * denominator)
  wilson95 := fun numerator _ => if numerator = 0 then ⟨0, 793451⟩ else ⟨206549, 1000000⟩
  quotientReaches := fun numerator denominator bar => bar * denominator ≤ numerator * 1000000
  below := fun count bar => count * 1000000 < bar
  above := fun count bar => bar < count * 1000000
  reaches := fun count bar => bar ≤ count * 1000000
  validLatency := fun latency => latency ≤ 60000 * 1000000
  zero := 0
  add := Nat.add
  quotientReaches_mono := fun hle h =>
    decide_eq_true ((of_decide_eq_true h).trans (Nat.mul_le_mul_right _ hle))
  above_mono := fun hle h =>
    decide_eq_true ((of_decide_eq_true h).trans_le (Nat.mul_le_mul_right _ hle))

def sampleDigest : Text := text "sha256:" ++ List.replicate 64 (unit 'a')

def sampleExample (id : String) (truth : GroundTruth) : ScreeningCorpusExample :=
  ⟨text id, some sampleDigest, true, truth, expectedOutcomeFor truth, .benignContext,
    text "analysis", none, none, none⟩

def sampleObservation (id : String) (decision : ScreeningDecision) : ScreeningObservation Nat :=
  ⟨text id, sampleDigest, decision, .benignContext, text "m1", text "p1", sampleDigest, .ok,
    .provider, .screened, 5, 0⟩

def sampleCorpus : List ScreeningCorpusExample :=
  [sampleExample "a1" .legitimate, sampleExample "b1" .hardReject]

def sampleIdentity : ScreeningRunIdentity :=
  ⟨text "c1", sampleDigest, text "m1", text "p1", sampleDigest⟩

def sampleThresholds : ScreeningThresholds Nat :=
  ⟨50000, 0, 1000000, 1000000, 0, 50000, 0, fun _ => 0⟩

/-- A run that lets a hard reject through does not pass once the legitimate
example is refused as well. -/
theorem aggregateScreeningRun_laws_sample :
    (aggregateScreeningRun millionths (fun _ => false) sampleCorpus
      [sampleObservation "a1" .reject, sampleObservation "b1" .pass] sampleIdentity
      sampleThresholds).toOption.any (fun report => report.verdict == .pass) = false := by
  have hok : (aggregateScreeningRun millionths (fun _ => false) sampleCorpus
      [sampleObservation "a1" .pass, sampleObservation "b1" .pass] sampleIdentity
      sampleThresholds).toOption.any (fun report => report.verdict == .fail) = true := by
    decide +kernel
  obtain ⟨report, hreport, hfail⟩ := (Option.any_eq_true _ _).mp hok
  have hrun : aggregateScreeningRun millionths (fun _ => false) sampleCorpus
      [sampleObservation "a1" .pass, sampleObservation "b1" .pass] sampleIdentity
      sampleThresholds = .ok report := by
    unfold Except.toOption at hreport
    split at hreport
    · cases hreport
      assumption
    · cases hreport
  cases hrejected : aggregateScreeningRun millionths (fun _ => false) sampleCorpus
      [sampleObservation "a1" .reject, sampleObservation "b1" .pass] sampleIdentity
      sampleThresholds with
  | error _ => rfl
  | ok report' =>
      have hpass : report'.verdict ≠ .pass := by
        refine (aggregateScreeningRun_laws hrun).2.2.2.2 ?_ [] (sampleObservation "a1" .pass)
          [sampleObservation "b1" .pass] (sampleObservation "a1" .reject)
          (sampleExample "a1" .legitimate) report' rfl List.mem_cons_self rfl rfl ?_ hrejected
        · rw [beq_iff_eq.mp hfail]
          exact Verdict.noConfusion
        · exact .inr ⟨rfl, rfl, rfl, rfl, rfl, rfl, rfl⟩
      exact beq_eq_false_iff_ne.mpr hpass

end Asimposium.Screening
