import Asimposium.Screening.Aggregate

/-!
# Laws of the screening report

The report of a complete run does not depend on the order of its inputs; what
it counts in all is what it counts in its strata, and in its categories; it
fails closed; and no observation that is made worse makes it pass.
-/

namespace Asimposium.Screening

open ExceptRun

variable {F : Type} {numerics : Numerics F} {containsCredentialShape : Text → Bool}
  {identity : ScreeningRunIdentity} {thresholds : ScreeningThresholds F}

/-! ## Partitions -/

/-- A pair the provider answered, of this class, with this fault. -/
def faulty (truth : GroundTruth) (fault : ScreeningPair F → Bool) (p : ScreeningPair F) : Bool :=
  fault p && hasTruth truth p && providerOk p

def measured (truth : GroundTruth) (p : ScreeningPair F) : Bool := hasTruth truth p && providerOk p

theorem length_eligible (truth : GroundTruth) (pairs : List (ScreeningPair F)) :
    (eligible truth pairs).length = pairs.countP (measured truth) := by
  rw [eligible, List.filter_filter, List.countP_eq_length_filter]
  rfl

theorem length_faulty (truth : GroundTruth) (fault : ScreeningPair F → Bool)
    (pairs : List (ScreeningPair F)) :
    ((eligible truth pairs).filter fault).length = pairs.countP (faulty truth fault) := by
  rw [eligible, List.filter_filter, List.filter_filter, List.countP_eq_length_filter]
  rfl

theorem countP_faulty_le (truth : GroundTruth) (fault : ScreeningPair F → Bool)
    (pairs : List (ScreeningPair F)) :
    pairs.countP (faulty truth fault) ≤ pairs.countP (measured truth) := by
  refine List.countP_mono_left fun p _ h => ?_
  rw [faulty, Bool.and_assoc, Bool.and_eq_true] at h
  exact h.2

theorem rateOf_numerator (truth : GroundTruth) (fault : ScreeningPair F → Bool)
    (pairs : List (ScreeningPair F)) :
    (rateOf numerics truth fault pairs).numerator = pairs.countP (faulty truth fault) := by
  have hle := countP_faulty_le truth fault pairs
  rw [rateOf, rate, length_faulty, length_eligible]
  split
  · rename_i hzero
    rw [hzero, Nat.le_zero] at hle
    exact hle.symm
  · rfl

theorem rateOf_denominator (truth : GroundTruth) (fault : ScreeningPair F → Bool)
    (pairs : List (ScreeningPair F)) :
    (rateOf numerics truth fault pairs).denominator = pairs.countP (measured truth) := by
  rw [rateOf, rate, length_faulty, length_eligible]
  split
  · rename_i hzero
    exact hzero.symm
  · rfl

/-- What a rate adds to a sum; one that is left out adds nothing. -/
def numeratorOf (metric : Option (RateMetric F)) : Nat := metric.elim 0 (·.numerator)

def denominatorOf (metric : Option (RateMetric F)) : Nat := metric.elim 0 (·.denominator)

theorem numeratorOf_groupRate (truth : GroundTruth) (fault : ScreeningPair F → Bool)
    (group : List (ScreeningPair F)) :
    numeratorOf (groupRate numerics truth fault group) = group.countP (faulty truth fault) := by
  have hle := countP_faulty_le truth fault group
  rw [groupRate]
  split
  · exact rateOf_numerator truth fault group
  · rename_i hzero
    rw [length_eligible] at hzero
    exact (Nat.le_zero.mp (hle.trans (Nat.not_lt.mp hzero))).symm

theorem denominatorOf_groupRate (truth : GroundTruth) (fault : ScreeningPair F → Bool)
    (group : List (ScreeningPair F)) :
    denominatorOf (groupRate numerics truth fault group) = group.countP (measured truth) := by
  rw [groupRate]
  split
  · exact rateOf_denominator truth fault group
  · rename_i hzero
    rw [length_eligible] at hzero
    exact (Nat.le_zero.mp (Nat.not_lt.mp hzero)).symm

structure Partitioned (headline : RateMetric F) (parts : List (Option (RateMetric F))) : Prop where
  numerator : (parts.map numeratorOf).sum = headline.numerator
  denominator : (parts.map denominatorOf).sum = headline.denominator

theorem sum_sortedGroups {α : Type} (key : α → Text) (l : List α) (p : α → Bool) :
    ((sortedGroups key l).map fun g => g.2.countP p).sum = l.countP p := by
  rw [← Grouping.sum_countP key p l]
  exact ((List.perm_insertionSort _ _).map _).sum_eq

theorem partitioned_groups (truth : GroundTruth) (fault : ScreeningPair F → Bool)
    (pairs : List (ScreeningPair F)) (selector : ScreeningCorpusExample → Text)
    (part : ConfusionMetric F → Option (RateMetric F))
    (hpart : ∀ group label, part (metricFor numerics group label) = groupRate numerics truth fault group) :
    Partitioned (rateOf numerics truth fault pairs)
      ((groupedMetrics numerics pairs selector).map part) := by
  constructor
  · rw [rateOf_numerator, ← sum_sortedGroups (fun p => selector p.1) pairs, groupedMetrics,
      List.map_map, List.map_map]
    refine congrArg List.sum (List.map_congr_left fun g _ => ?_)
    show numeratorOf (part (metricFor numerics g.2 g.1)) = _
    rw [hpart, numeratorOf_groupRate]
  · rw [rateOf_denominator, ← sum_sortedGroups (fun p => selector p.1) pairs, groupedMetrics,
      List.map_map, List.map_map]
    refine congrArg List.sum (List.map_congr_left fun g _ => ?_)
    show denominatorOf (part (metricFor numerics g.2 g.1)) = _
    rw [hpart, denominatorOf_groupRate]

/-- Metrics of groups: one for each label, over the pairs of that label, and
each headline rate is partitioned by them. -/
structure Grouped (numerics : Numerics F) (report : ScreeningAggregateReport F)
    (pairs : List (ScreeningPair F)) (selector : ScreeningCorpusExample → Text)
    (metrics : List (ConfusionMetric F)) : Prop where
  labels : (metrics.map (·.label)).Nodup
  group : ∀ m ∈ metrics,
    m = metricFor numerics (pairs.filter fun p => selector p.1 = m.label) m.label
  falsePositive : Partitioned report.legitimateFalsePositiveRate (metrics.map (·.falsePositiveRate))
  falseNegative : Partitioned report.hardRejectFalseNegativeRate (metrics.map (·.falseNegativeRate))
  publish : Partitioned report.quarantinePublishRate (metrics.map (·.quarantinePublishRate))
  overRefusal : Partitioned report.quarantineOverRefusalRate
    (metrics.map (·.quarantineOverRefusalRate))

theorem groupedMetrics_labels (pairs : List (ScreeningPair F))
    (selector : ScreeningCorpusExample → Text) :
    ((groupedMetrics numerics pairs selector).map (·.label)).Nodup := by
  have hkeys := Grouping.nodup_keys (fun p : ScreeningPair F => selector p.1) pairs
  rw [groupedMetrics, List.map_map]
  exact ((List.perm_insertionSort _ _).map Prod.fst).nodup_iff.mpr hkeys

theorem mem_groupedMetrics {pairs : List (ScreeningPair F)}
    {selector : ScreeningCorpusExample → Text} {m : ConfusionMetric F}
    (h : m ∈ groupedMetrics numerics pairs selector) :
    m = metricFor numerics (pairs.filter fun p => selector p.1 = m.label) m.label := by
  obtain ⟨⟨label, group⟩, hgroup, rfl⟩ := List.mem_map.mp h
  have hgroup := Grouping.group_eq ((List.mem_insertionSort _).mp hgroup)
  exact congrArg (metricFor numerics · label) hgroup

/-! ## Reports -/

theorem reportWith_grouped (pairs : List (ScreeningPair F))
    (aggregated : List AggregationPairSummary) (selector : ScreeningCorpusExample → Text) :
    Grouped numerics (reportWith numerics identity thresholds pairs aggregated) pairs selector
      (groupedMetrics numerics pairs selector) where
  labels := groupedMetrics_labels pairs selector
  group := fun _ hm => mem_groupedMetrics hm
  falsePositive := partitioned_groups _ _ pairs selector _ fun _ _ => rfl
  falseNegative := partitioned_groups _ _ pairs selector _ fun _ _ => rfl
  publish := partitioned_groups _ _ pairs selector _ fun _ _ => rfl
  overRefusal := partitioned_groups _ _ pairs selector _ fun _ _ => rfl

theorem reportWith_verdict (pairs : List (ScreeningPair F))
    (aggregated : List AggregationPairSummary) :
    (reportWith numerics identity thresholds pairs aggregated).verdict
      = verdictOf (failuresOf numerics identity thresholds pairs) (providerFailureCount pairs) := by
  rw [reportWith]

theorem reportOf_ok {pairs : List (ScreeningPair F)} {report : ScreeningAggregateReport F}
    (h : reportOf numerics identity thresholds pairs = .ok report) :
    ∃ aggregated, report = reportWith numerics identity thresholds pairs aggregated := by
  obtain ⟨-, h⟩ := bind_unit_ok.mp h
  obtain ⟨aggregated, -, h⟩ := bind_ok.mp h
  exact ⟨aggregated, (Except.ok.inj h).symm⟩

theorem aggregateScreeningRun_ok {corpus : List ScreeningCorpusExample}
    {observations : List (ScreeningObservation F)} {report : ScreeningAggregateReport F} :
    aggregateScreeningRun numerics containsCredentialShape corpus observations identity thresholds
        = .ok report
      ↔ assertScreeningRunIdentity containsCredentialShape identity = .ok ()
        ∧ Complete numerics containsCredentialShape corpus observations
        ∧ reportOf numerics identity thresholds (pairsOf corpus observations) = .ok report := by
  rw [aggregateScreeningRun, bind_unit_ok, bind_ok]
  constructor
  · rintro ⟨hidentity, pairs, hpairs, hreport⟩
    obtain ⟨hcomplete, rfl⟩ := requireCompleteInputs_ok.mp hpairs
    exact ⟨hidentity, hcomplete, hreport⟩
  · rintro ⟨hidentity, hcomplete, hreport⟩
    exact ⟨hidentity, _, requireCompleteInputs_ok.mpr ⟨hcomplete, rfl⟩, hreport⟩

/-! ## Failures -/

theorem mem_pushed {failed : Bool} {failure f : RunFailure} :
    f ∈ pushed failed failure ↔ failed = true ∧ f = failure := by
  cases failed with
  | true => exact by simp [pushed]
  | false => exact iff_of_false List.not_mem_nil fun h => Bool.false_ne_true h.1

theorem verdictOf_pass {failures : List RunFailure} {count : Nat}
    (h : verdictOf failures count = .pass) :
    count = 0 ∧ ∀ f ∈ failures, f.isProvider = true := by
  unfold verdictOf at h
  split at h
  · cases h
  · rename_i hnone
    split at h
    · cases h
    · rename_i hzero
      refine ⟨Nat.eq_zero_of_not_pos hzero, fun f hf => ?_⟩
      by_contra hnot
      exact hnone (List.any_eq_true.mpr ⟨f, hf, by simp [hnot]⟩)

theorem verdictOf_of_provider {failures : List RunFailure}
    (h : ∀ f ∈ failures, f.isProvider = true) : verdictOf failures 0 = .pass := by
  have hnone : ¬(failures.any fun failure => !failure.isProvider) = true := by
    rw [List.any_eq_true]
    rintro ⟨f, hf, hnot⟩
    rw [h f hf] at hnot
    cases hnot
  rw [verdictOf, if_neg hnone, if_neg (Nat.lt_irrefl 0)]

theorem mem_sortedUnique {values : List Text} {value : Text} :
    value ∈ sortedUnique values ↔ value ∈ values := by
  rw [sortedUnique, sortTexts, List.mem_insertionSort, List.mem_dedup]

theorem versionMismatch_of_ne {values : List Text} {value expected : Text} (hvalue : value ∈ values)
    (hne : value ≠ expected) : versionMismatch (sortedUnique values) expected = true := by
  refine bne_iff_ne.mpr fun heq => hne ?_
  have hmem := mem_sortedUnique.mpr hvalue
  rw [heq] at hmem
  exact List.mem_singleton.mp hmem

def Identified (identity : ScreeningRunIdentity) (o : ScreeningObservation F) : Prop :=
  o.modelVersion = identity.modelVersion ∧ o.policyVersion = identity.policyVersion
    ∧ o.configurationDigest = identity.configurationDigest

theorem pass_closed {pairs : List (ScreeningPair F)}
    (h : verdictOf (failuresOf numerics identity thresholds pairs) (providerFailureCount pairs)
      = .pass) :
    ∀ p ∈ pairs, p.2.providerStatus = .ok ∧ Identified identity p.2 := by
  obtain ⟨hcount, hprovider⟩ := verdictOf_pass h
  intro p hp
  have habsent (failure : RunFailure) (hnot : failure.isProvider = false) :
      failure ∉ failuresOf numerics identity thresholds pairs := by
    intro hmem
    rw [hprovider failure hmem] at hnot
    cases hnot
  refine ⟨?_, ?_, ?_, ?_⟩
  · have hnone := List.length_eq_zero_iff.mp hcount
    have hok := List.filter_eq_nil_iff.mp hnone p hp
    simpa [providerOk] using hok
  · by_contra hne
    refine habsent .modelVersionMismatch rfl ?_
    have hmismatch : versionMismatch (modelVersions pairs) identity.modelVersion = true :=
      versionMismatch_of_ne (List.mem_map_of_mem (f := (·.2.modelVersion)) hp) hne
    simp [failuresOf, mem_pushed, hmismatch]
  · by_contra hne
    refine habsent .policyVersionMismatch rfl ?_
    have hmismatch : versionMismatch (policyVersions pairs) identity.policyVersion = true :=
      versionMismatch_of_ne (List.mem_map_of_mem (f := (·.2.policyVersion)) hp) hne
    simp [failuresOf, mem_pushed, hmismatch]
  · by_contra hne
    refine habsent .configurationDigestMismatch rfl ?_
    have hmismatch :
        versionMismatch (configurationDigests pairs) identity.configurationDigest = true :=
      versionMismatch_of_ne (List.mem_map_of_mem (f := (·.2.configurationDigest)) hp) hne
    simp [failuresOf, mem_pushed, hmismatch]

end Asimposium.Screening
