import Asimposium.Ledger.CeilingLaws
import Asimposium.Ledger.ClosureCircularity
import Asimposium.Ledger.DependencyAssessment
import Asimposium.Ledger.DispositionAbsorbing

/-!
# Premise assessment fails closed

A complete chain is a sound graph of the recorded pins: everything in
reach of the target over them was folded from verified rows, is current,
live and uncontested, and no ceiling is above one of theirs
(`ceilingOf_complete`). The listed dependencies only leave out pins
where they leave out all of them, so a walk along the recorded pins is a
walk of the sound graph.

Monotonicity needs a graph that fits its limit whatever the standings
are. A closure of `composeDependencyClosure` is one: an available edge
leads to a listed node, and there are at most as many nodes as rows were
admitted (`composed_admitted`).
-/

namespace Asimposium

open BreadthFirst ExceptRun

/-! ## Standings -/

structure PremiseStanding.StandsUp (target : String) (standing : PremiseStanding) : Prop where
  complete : standing.complete = true
  fresh : standing.stale = false
  current : standing.latestVersion = some (targetVersion target : Int)
  active : ∃ disposition, standing.disposition = some disposition
    ∧ isInactive disposition = false ∧ disposition.isAdverse = false
  uncontested : standing.reviewState ≠ some .contested
  graded : standing.ownCeiling.isSome = true

/-- The second standing is no better: it stands up only where the first
does, and then on no higher grade. -/
structure PremiseStanding.NoBetter (target : String) (standing worse : PremiseStanding) :
    Prop where
  stands : worse.StandsUp target → standing.StandsUp target
  grade : worse.StandsUp target → ∀ grade', worse.ownCeiling = some grade' →
    ∃ grade, standing.ownCeiling = some grade ∧ grade'.rank ≤ grade.rank

theorem isInactive_adverse (disposition : ClaimDisposition) :
    isInactive disposition = false ∧ disposition ≠ .disputed ↔
      isInactive disposition = false ∧ disposition.isAdverse = false := by
  cases disposition <;> decide

theorem usable_iff {node : CeilingNode} :
    node.Usable ↔ node.standing.StandsUp node.target ∧ exactTarget node.target = true
      ∧ ∃ dependencies, node.dependencies = some dependencies
        ∧ dependencies.length ≤ maxGraphNodes
        ∧ ∀ target ∈ dependencies, exactTarget target = true := by
  constructor
  · intro h
    obtain ⟨disposition, hdisposition, hlive⟩ := h.active
    exact ⟨⟨h.complete, h.fresh, h.current,
      ⟨disposition, hdisposition, (isInactive_adverse disposition).mp hlive⟩, h.uncontested,
      h.graded⟩, h.exact, h.known⟩
  · rintro ⟨h, hexact, hknown⟩
    obtain ⟨disposition, hdisposition, hlive⟩ := h.active
    exact ⟨h.complete, h.fresh, hexact,
      ⟨disposition, hdisposition, (isInactive_adverse disposition).mpr hlive⟩, h.uncontested,
      h.graded, h.current, hknown⟩

/-! ## What a complete standing was made of -/

/-- The standing was folded from rows that were all read and verified, and
agree with the pinned publication. -/
structure PremiseVerified (reader : ScientificReader) (problem : String) (cursor : Int)
    (sources : List DependencyScientificRow) (row : DependencyClosureRow)
    (standing : PremiseStanding) : Prop where
  scanned : ∀ source ∈ sources, source.scanComplete = true
  read : ∀ source ∈ premiseRows sources row, source.problemId = problem ∧ source.seq ≤ cursor
    ∧ ∃ json, source.payloadJson = some json ∧ reader.sha256 json = source.payloadSha256
  publication : ∃ publication ∈ premiseRows sources row, publication.eventId = row.eventId
    ∧ publication.payloadSha256 = row.payloadSha256
    ∧ publication.contentDigest = row.contentDigest
    ∧ standing.latestVersion = some publication.latestVersion
  folded : ∃ scan folded,
    foldScientificRows reader ((premiseRows sources row).map (SourceScan.timelineRow scan))
      = .ok folded
    ∧ folded.stale = false ∧ folded.fold.currentVersion = some row.version
    ∧ standing.disposition = some folded.disposition

section Standing

variable {reader : PayloadReader} {problem claimId : String} {cursor : Int}

theorem readSource_ok {scan scan' : SourceScan} {source : DependencyScientificRow}
    (h : scan.readSource reader problem cursor claimId source = .ok scan') :
    source.problemId = problem ∧ source.seq ≤ cursor
      ∧ ∃ json, source.payloadJson = some json ∧ reader.sha256 json = source.payloadSha256 := by
  unfold SourceScan.readSource at h
  cases hjson : source.payloadJson with
  | none => rw [hjson] at h; cases h
  | some json =>
      rw [hjson] at h
      dsimp only at h
      split at h
      · cases h
      · rename_i hsnapshot
        simp only [Bool.or_eq_true, decide_eq_true_eq, not_or, not_not, not_lt] at hsnapshot
        obtain ⟨⟨⟨⟨hproblem, -⟩, -⟩, hseq⟩, -⟩ := hsnapshot
        refine ⟨hproblem, hseq, json, rfl, ?_⟩
        split at h
        · cases h
        · obtain ⟨payload, hpayload, -⟩ := bind_ok.mp h
          unfold checkedScientificPayload at hpayload
          by_contra hdigest
          rw [if_pos hdigest] at hpayload
          cases hpayload

theorem readSources_ok {rows : List DependencyScientificRow} {scan scan' : SourceScan}
    (h : rows.foldlM (SourceScan.readSource reader problem cursor claimId) scan = .ok scan') :
    ∀ source ∈ rows, source.problemId = problem ∧ source.seq ≤ cursor
      ∧ ∃ json, source.payloadJson = some json ∧ reader.sha256 json = source.payloadSha256 := by
  induction rows generalizing scan with
  | nil => exact List.forall_mem_nil _
  | cons source rows ih =>
      obtain ⟨next, hsource, hrows⟩ := run_cons_ok.mp h
      exact List.forall_mem_cons.mpr ⟨readSource_ok hsource, ih hrows⟩

theorem readPremise_ok {sources : List DependencyScientificRow} {row : DependencyClosureRow}
    {scan : SourceScan} {publication : DependencyScientificRow}
    (h : readPremise reader problem cursor sources row = .ok (scan, publication)) :
    (∀ source ∈ sources, source.scanComplete = true)
      ∧ (premiseRows sources row).foldlM
          (SourceScan.readSource reader problem cursor row.claimId) {} = .ok scan
      ∧ publication ∈ premiseRows sources row ∧ publication.eventId = row.eventId
      ∧ publication.payloadSha256 = row.payloadSha256
      ∧ publication.contentDigest = row.contentDigest := by
  unfold readPremise at h
  dsimp only at h
  split at h
  · cases h
  · rename_i hscanned
    simp only [Bool.or_eq_true, decide_eq_true_eq, not_or, List.any_eq_true, Bool.not_eq_true',
      not_exists, not_and, Bool.not_eq_false] at hscanned
    obtain ⟨next, hscan, h⟩ := bind_ok.mp h
    split at h
    · cases h
    · rename_i found hfound
      split at h
      · cases h
      · rename_i hpinned
        simp only [Bool.or_eq_true, decide_eq_true_eq, not_or, not_not] at hpinned
        cases h
        exact ⟨hscanned.2, hscan, List.mem_of_find?_eq_some hfound,
          by simpa using List.find?_some hfound, hpinned.1.1, hpinned.1.2⟩

end Standing

theorem premiseStanding_complete {reader : ScientificReader} {problem : String} {cursor : Int}
    {sources : List DependencyScientificRow} {row : DependencyClosureRow}
    {standing : PremiseStanding}
    (h : premiseStanding reader problem cursor sources row = .ok standing)
    (hcomplete : standing.complete = true) :
    PremiseVerified reader problem cursor sources row standing := by
  unfold premiseStanding at h
  cases hread : readPremise reader.toPayloadReader problem cursor sources row with
  | error _ =>
      rw [hread] at h
      cases h
      cases hcomplete
  | ok premise =>
      obtain ⟨scan, publication⟩ := premise
      rw [hread] at h
      obtain ⟨folded, hfolded, h⟩ := map_ok.mp h
      split at h
      · cases h
        cases hcomplete
      · rename_i found hstanding
        cases h
        obtain ⟨hscanned, hscan, hmem, hevent, hdigest, hcontent⟩ := readPremise_ok hread
        unfold standingOf at hstanding
        split at hstanding
        · cases hstanding
        · rename_i hfresh
          simp only [Bool.or_eq_true, decide_eq_true_eq, not_or, Bool.not_eq_true, not_not]
            at hfresh
          obtain ⟨own, -, hstanding⟩ := bind_ok.mp hstanding
          cases hstanding
          exact ⟨hscanned, readSources_ok hscan, ⟨publication, hmem, hevent, hdigest, hcontent, rfl⟩,
            ⟨scan, folded, hfolded, hfresh.1, hfresh.2, rfl⟩⟩

/-! ## The inputs of the chains -/

/-- The publications that are assessed: the root, once its payload has been
checked, and the nodes of the closure. -/
def publishedNodes (reader : PayloadReader) (publications : List DependencyClosureRow)
    (closure : DependencyClosure) (target : String) : List PremiseNode :=
  match publications.head? with
  | none => []
  | some root =>
      match checkedScientificPayload reader root.payloadSha256 (root.payloadJson.getD "") with
      | .error _ => []
      | .ok rootPayload => premiseNodes root rootPayload closure target

def recordedPremises (nodes : List PremiseNode) (target : String) : List String :=
  (((nodes.filter (·.target == target)).getLast?.bind (·.pins)).getD []).map (·.target)

/-- The node the chains are computed with for a publication. -/
structure InputOf (reader : ScientificReader) (closure : DependencyClosure)
    (sources : List DependencyScientificRow) (problem target : String) (cursor : Int)
    (node : PremiseNode) (input : CeilingNode) : Prop where
  dependencies : input.dependencies = chainDependencies closure target node
  target : input.target = node.target
  standing : premiseStanding reader problem cursor sources node.row = .ok input.standing

section Inputs

variable {reader : ScientificReader} {publications : List DependencyClosureRow}
  {closure : DependencyClosure} {sources : List DependencyScientificRow}
  {problem target : String} {cursor : Int} {nodes : List PremiseNode} {inputs : List CeilingNode}

theorem assessmentInputs_ok
    (h : assessmentInputs reader closure sources problem target cursor nodes = .ok inputs) :
    List.Forall₂ (InputOf reader closure sources problem target cursor) nodes inputs := by
  refine (mapM_ok.mp h).imp fun node input hinput => ?_
  obtain ⟨standing, hstanding, rfl⟩ := map_ok.mp hinput
  exact ⟨rfl, rfl, hstanding⟩

/-- The first publication is the available root of the closure. -/
def Opens (publications : List DependencyClosureRow) (closure : DependencyClosure)
    (target : String) : Prop :=
  closure.rootAvailable = true ∧ ∃ root, publications.head? = some root
    ∧ exactVersion root.claimId root.version = target

theorem composed_inputs {assessed : List PremiseAssessment}
    (h : composeDependencyAssessment reader publications closure sources problem target cursor
      = .ok assessed) :
    ¬Opens publications closure target ∧ assessed = []
      ∨ Opens publications closure target ∧ ∃ inputs,
        List.Forall₂ (InputOf reader closure sources problem target cursor)
          (publishedNodes reader.toPayloadReader publications closure target) inputs
        ∧ assessed = assessments problem cursor inputs := by
  unfold composeDependencyAssessment at h
  unfold publishedNodes Opens
  cases hroot : publications.head? with
  | none =>
      rw [hroot] at h
      cases h
      exact .inl ⟨by simp, rfl⟩
  | some root =>
      rw [hroot] at h
      simp only [Option.some.injEq, exists_eq_left']
      dsimp only at h
      split at h
      · rename_i hclosed
        cases h
        refine .inl ⟨fun hopens => ?_, rfl⟩
        simp [hopens.1, hopens.2] at hclosed
      · rename_i hopens
        simp only [Bool.or_eq_true, decide_eq_true_eq, not_or, not_not, Bool.not_eq_true',
          Bool.not_eq_false] at hopens
        split at h
        · cases h
        · rename_i rootPayload hpayload
          split at h
          · cases h
          · rename_i inputs hinputs
            cases h
            refine .inr ⟨hopens, inputs, ?_, rfl⟩
            simpa only [hpayload] using assessmentInputs_ok hinputs

theorem assessmentOf_assessments (problem : String) (cursor : Int) (inputs : List CeilingNode)
    (t : String) :
    assessmentOf (assessments problem cursor inputs) t
      = (byTarget inputs t).map fun node =>
        { problem, target := node.target, through := cursor, standing := node.standing
          chain := (ceilingOf inputs node.target).getD
            (unknown node.target .sourceUnavailable) } := by
  rw [assessmentOf, assessments, List.filter_map, List.getLast?_map]
  rfl

theorem ceilingOf_listed {input : CeilingNode} (h : input ∈ inputs) :
    ∃ out, ceilingOf inputs input.target = some out := by
  cases hgraph : graphTargets inputs with
  | none =>
      have hmem : input.target ∈ listedTargets inputs :=
        mem_sortTargets.mpr (List.mem_map_of_mem h)
      rw [ceilingOf, computeDependencyCeilings, hgraph, lookup_map_pair, if_pos hmem]
      exact ⟨_, rfl⟩
  | some targets =>
      rw [ceilingOf_eq hgraph, if_pos ((graphTargets_closed hgraph).1 input h)]
      exact ⟨_, rfl⟩

theorem assessmentOf_some {t : String} {premise : PremiseAssessment}
    (h : assessmentOf (assessments problem cursor inputs) t = some premise) :
    ∃ input, byTarget inputs t = some input ∧ ceilingOf inputs t = some premise.chain
      ∧ premise.standing = input.standing := by
  rw [assessmentOf_assessments, Option.map_eq_some_iff] at h
  obtain ⟨input, hinput, rfl⟩ := h
  obtain ⟨out, hout⟩ := ceilingOf_listed (byTarget_mem hinput)
  rw [byTarget_target hinput] at hout
  refine ⟨input, hinput, ?_, rfl⟩
  rw [byTarget_target hinput, hout]
  rfl

theorem assessmentOf_listed (problem : String) (cursor : Int) {t : String} {input : CeilingNode}
    (h : byTarget inputs t = some input) :
    ∃ premise, assessmentOf (assessments problem cursor inputs) t = some premise
      ∧ premise.standing = input.standing := by
  rw [assessmentOf_assessments, h]
  exact ⟨_, rfl, rfl⟩

theorem inputs_filter
    (hinputs : List.Forall₂ (InputOf reader closure sources problem target cursor) nodes inputs)
    (t : String) :
    List.Forall₂ (InputOf reader closure sources problem target cursor)
      (nodes.filter (·.target == t)) (inputs.filter (·.target == t)) := by
  refine List.rel_filter (fun node input hinput => ?_) hinputs
  dsimp only
  rw [hinput.target]

theorem LocallyComplete.node
    (hinputs : List.Forall₂ (InputOf reader closure sources problem target cursor) nodes inputs)
    {t : String} (h : LocallyComplete inputs t) :
    ∃ node input, node ∈ nodes ∧ nodes.filter (·.target == t) = [node]
      ∧ inputs.filter (·.target == t) = [input]
      ∧ InputOf reader closure sources problem target cursor node input ∧ input.Usable := by
  obtain ⟨input, hfilter, husable⟩ := h
  have hfiltered := inputs_filter hinputs t
  rw [hfilter] at hfiltered
  obtain ⟨node, hinput, hnodes⟩ : ∃ node,
      InputOf reader closure sources problem target cursor node input
      ∧ nodes.filter (·.target == t) = [node] := by
    generalize nodes.filter (·.target == t) = filtered at hfiltered ⊢
    cases hfiltered with
    | cons hinput htail => cases htail; exact ⟨_, hinput, rfl⟩
  refine ⟨node, input, ?_, hnodes, hfilter, hinput, husable⟩
  exact (List.mem_filter.mp (hnodes ▸ List.mem_singleton_self node)).1

theorem LocallyComplete.recorded
    (hinputs : List.Forall₂ (InputOf reader closure sources problem target cursor) nodes inputs)
    {t : String} (h : LocallyComplete inputs t) :
    recordedPremises nodes t = declared inputs t := by
  obtain ⟨node, input, -, hnodes, hfilter, hinput, husable⟩ := h.node hinputs
  obtain ⟨dependencies, hdependencies, -⟩ := husable.known
  rw [recordedPremises, declared, byTarget, hnodes, hfilter]
  dsimp only [List.getLast?_singleton, Option.bind_some]
  rw [hdependencies]
  rw [hinput.dependencies, chainDependencies] at hdependencies
  split at hdependencies
  · cases hdependencies
  · split at hdependencies
    · cases hdependencies
    · rename_i pins hpins _
      cases hdependencies
      rw [hpins]
      rfl

end Inputs

section Composed

variable {reader : PayloadReader} {problem target : String}
  {publications : List DependencyClosureRow} {root : DependencyClosureRow} {claim : VerifiedClaim}

theorem verifyRows_mem {bytes : Nat} {rows : List DependencyClosureRow} {claim : VerifiedClaim}
    (h : claim ∈ verifyRows reader problem bytes rows) :
    claim.row ∈ rows ∧ ∃ json payload, claim.row.payloadJson = some json
      ∧ reader.parse json = some payload
      ∧ claim.pins = payload.dependencyPins.toOption.filter fun pins =>
        !pins.any (·.claimId == claim.row.claimId) := by
  obtain ⟨hrow, -, json, payload, hjson, -, hparse, hverified⟩ := verifyRows_inv h
  refine ⟨hrow, json, payload, hjson, hparse, ?_⟩
  unfold verifyPayload at hverified
  split_ifs at hverified
  exact (congrArg VerifiedClaim.pins (Option.some.inj hverified)).symm

theorem verifyRows_length (bytes : Nat) (rows : List DependencyClosureRow) :
    (verifyRows reader problem bytes rows).length ≤ rows.length := by
  induction rows generalizing bytes with
  | nil => exact Nat.le_refl 0
  | cons row rows ih =>
      rw [verifyRows, List.length_append, List.length_cons]
      have hone : (verifyRow reader problem bytes row).2.toList.length ≤ 1 := by
        cases (verifyRow reader problem bytes row).2 <;> simp
      have hrest := ih (verifyRow reader problem bytes row).1
      omega

theorem verifiedClaims_length :
    (verifiedClaims reader problem publications).length ≤ maxGraphNodes := by
  refine (List.length_filter_le _ _).trans ((verifyRows_length _ _).trans ?_)
  exact List.length_take_le _ _

theorem verified_root (hhead : publications.head? = some root)
    (hclaim : verifiedGet (verifiedClaims reader problem publications) root.eventId = some claim)
    {payload : Payload}
    (hpayload : checkedScientificPayload reader root.payloadSha256 (root.payloadJson.getD "")
      = .ok payload) :
    claim.pins = payload.dependencyPins.toOption.filter fun pins =>
      !pins.any (·.claimId == claim.row.claimId) := by
  have hevent := verifiedGet_eventId hclaim
  obtain ⟨hmem, hone⟩ := List.mem_filter.mp (verifiedGet_mem hclaim)
  obtain ⟨hrow, json, parsed, hjson, hparse, hpins⟩ := verifyRows_mem hmem
  have hroot : root ∈ publications.take dependencyClosureLimit := by
    cases publications with
    | nil => cases hhead
    | cons first rest =>
        cases hhead
        exact List.mem_cons_self ..
  have hsame : claim.row = root := by
    obtain ⟨only, honly⟩ := List.length_eq_one_iff.mp (by simpa using hone)
    have hleft : claim.row ∈ [only] :=
      honly ▸ List.mem_filter.mpr ⟨hrow, by simp [VerifiedClaim.eventId]⟩
    have hright : root ∈ [only] := honly ▸ List.mem_filter.mpr ⟨hroot, by simp [hevent]⟩
    rw [List.mem_singleton.mp hleft, List.mem_singleton.mp hright]
  rw [hsame] at hjson
  rw [hjson] at hpayload
  unfold checkedScientificPayload at hpayload
  split at hpayload
  · cases hpayload
  · rw [Option.getD_some, hparse] at hpayload
    cases hpayload
    exact hpins

variable {verified : List VerifiedClaim}

theorem Allowed.listed {start : String} (hroot : verifiedGet verified start = some claim)
    (htarget : claim.target = target) (withinLimit : Bool)
    {entry : String × List String} {found : VerifiedClaim} {pin : ClaimDependencyPin}
    (hentry : entry ∈ queueOf verified start) (hfound : verifiedGet verified entry.1 = some found)
    (hpin : pin ∈ found.pins.getD []) (h : Allowed verified entry found pin) :
    pin.target = target
      ∨ pin.target ∈ (closureOf verified withinLimit (some start) target).nodes.map (·.target) := by
  have hguarded := queueOf_guarded hroot
  obtain ⟨hnamed, hlabel, -⟩ := isSound_target h.1
  have hchild : pin.eventId ∈ soundPins verified entry.1 :=
    mem_soundPins.mpr ⟨found, hfound, pin, hpin, h.1, rfl⟩
  obtain ⟨reached, hreached, hsame, -⟩ :=
    hguarded.closed entry hentry pin.eventId hchild (by rw [hlabel]; exact h.2)
  rw [List.append_nil] at hreached
  rcases hguarded.parents reached (by rwa [List.append_nil]) with hstart | ⟨parent, hparent, hpath, -⟩
  · left
    rw [← hnamed, ← hsame, hstart, targetOf_get hroot, htarget]
  · right
    obtain ⟨nodes, hmatches, -⟩ := closureOf_walk hroot htarget withinLimit
    obtain ⟨node, -, hmatch⟩ := Related.mem_left hmatches hparent
    have hdepth := hmatch.depth
    refine (member_iff hroot htarget withinLimit _).mpr ⟨reached, hreached, ?_, ?_⟩
    · rw [hpath, List.length_append, List.length_singleton]
      omega
    · rw [hsame, hnamed]

theorem closureOf_length {start : String} (hroot : verifiedGet verified start = some claim)
    (htarget : claim.target = target) (withinLimit : Bool) :
    (closureOf verified withinLimit (some start) target).nodes.length < verified.length := by
  have hguarded := queueOf_guarded hroot
  obtain ⟨nodes, hmatches, hout⟩ := closureOf_walk hroot htarget withinLimit
  have hstart := hguarded.start
  have hnodup := hguarded.nodup
  rw [List.append_nil] at hstart hnodup
  have hsubset : (queueOf verified start).map (·.1) ⊆ verified.map (·.eventId) := by
    intro eventId hmem
    obtain ⟨entry, hentry, rfl⟩ := List.mem_map.mp hmem
    obtain ⟨found, hfound⟩ := queueOf_get hroot hentry
    exact List.mem_map.mpr ⟨found, verifiedGet_mem hfound, verifiedGet_eventId hfound⟩
  have hqueue : nodes.length ≤ verified.length := by
    have hle := (hnodup.subperm hsubset).length_le
    rwa [List.length_map, List.length_map, hmatches.length_eq] at hle
  obtain ⟨node, hnode, hmatch⟩ := Related.mem_left hmatches hstart
  have hdepth := hmatch.depth
  have hfewer : (nodes.filter (0 < ·.depth)).length < nodes.length := by
    refine List.length_filter_lt_length_iff_exists.mpr ⟨node, hnode, ?_⟩
    rw [List.length_singleton] at hdepth
    simp only [decide_eq_true_eq]
    omega
  rw [hout]
  dsimp only
  omega

theorem composed_root {closure : DependencyClosure}
    (hclosure : closure = composeDependencyClosure reader publications problem target)
    (hroot : closure.rootAvailable = true) (hhead : publications.head? = some root) :
    ∃ claim, verifiedGet (verifiedClaims reader problem publications) root.eventId = some claim
      ∧ claim.target = target
      ∧ closure = closureOf (verifiedClaims reader problem publications)
          (publications.length ≤ dependencyClosureLimit) (some root.eventId) target := by
  rw [composeDependencyClosure, hhead, Option.map_some] at hclosure
  by_contra hnone
  have hunverified : ∀ claim,
      verifiedGet (verifiedClaims reader problem publications) root.eventId = some claim →
        claim.target ≠ target :=
    fun claim hclaim htarget => hnone ⟨claim, hclaim, htarget, hclosure⟩
  rw [hclosure, closureOf_none _ hunverified] at hroot
  cases hroot

theorem chainDependencies_listed {closure : DependencyClosure}
    (hclosure : closure = composeDependencyClosure reader publications problem target)
    (hroot : closure.rootAvailable = true) (hhead : publications.head? = some root)
    {payload : Payload}
    (hpayload : checkedScientificPayload reader root.payloadSha256 (root.payloadJson.getD "")
      = .ok payload)
    {node : PremiseNode} (hnode : node ∈ premiseNodes root payload closure target)
    {dependencies : List String}
    (hdependencies : chainDependencies closure target node = some dependencies) :
    ∀ t ∈ dependencies, t ∈ (premiseNodes root payload closure target).map (·.target) := by
  obtain ⟨claim, hclaim, htarget, hout⟩ := composed_root hclosure hroot hhead
  generalize hwithin : decide (publications.length ≤ dependencyClosureLimit) = withinLimit at hout
  have hlist : ∀ t, t = target
      ∨ t ∈ (closureOf (verifiedClaims reader problem publications) withinLimit
          (some root.eventId) target).nodes.map (·.target) →
      t ∈ (premiseNodes root payload closure target).map (·.target) := by
    intro t ht
    rw [premiseNodes, List.map_cons, List.map_map, List.mem_cons, hout]
    exact ht
  unfold chainDependencies at hdependencies
  split at hdependencies
  · cases hdependencies
  split at hdependencies
  · cases hdependencies
  rename_i pins hpins hfollowed
  cases hdependencies
  simp only [Bool.or_eq_true, Bool.and_eq_true, not_or, List.any_eq_true, beq_iff_eq,
    Bool.not_eq_true', not_exists, not_and, Bool.not_eq_false] at hfollowed
  obtain ⟨hunbroken, hcomplete⟩ := hfollowed
  intro t ht
  obtain ⟨pin, hpin, rfl⟩ := List.mem_map.mp ht
  refine hlist _ ?_
  rcases List.mem_cons.mp hnode with rfl | hnode
  · -- the root follows its pins only in a complete closure
    have hall := ((complete_iff hclaim htarget withinLimit).mp (hout ▸ hcomplete rfl)).2
      (root.eventId, [root.eventId]) (by simpa using (queueOf_guarded hclaim).start) claim hclaim
    obtain ⟨verifiedPins, hverified, hallowed⟩ := hall
    have hsame : verifiedPins = pins := by
      have hroot := verified_root hhead hclaim hpayload
      rw [hverified] at hroot
      have hsome := (Option.filter_eq_some_iff.mp hroot.symm).1
      exact Option.some.inj (hsome.symm.trans hpins)
    subst hsame
    exact Allowed.listed hclaim htarget withinLimit
      (by simpa using (queueOf_guarded hclaim).start) hclaim (by rw [hverified]; exact hpin)
      (hallowed pin hpin)
  · obtain ⟨closureNode, hmem, rfl⟩ := List.mem_map.mp hnode
    obtain ⟨queue, hmatches, hqueue⟩ := closureOf_walk hclaim htarget withinLimit
    rw [hout, hqueue] at hmem
    obtain ⟨entry, hentry, hmatch⟩ := Related.mem_right hmatches (List.mem_filter.mp hmem).1
    have hrecorded : closureNode.pins = some pins := hpins
    have hpinned : pin ∈ closureNode.pins.getD [] := by
      rw [hrecorded]
      exact hpin
    refine Allowed.listed hclaim htarget withinLimit hentry hmatch.claim hpinned ?_
    by_contra hbroken
    have hedge : ({ source := closureNode.target, target := pin.target, available := false } :
        DependencyEdge) ∈ closure.edges := by
      rw [hout]
      exact (edge_iff hclaim htarget withinLimit _).mpr ⟨entry, hentry, _, hmatch.claim, pin,
        hpinned, rfl, rfl, ⟨Bool.noConfusion, fun h => (hbroken h).elim⟩⟩
    exact Bool.false_ne_true (hunbroken _ hedge rfl)

end Composed

theorem composed_admitted {reader : ScientificReader} {publications : List DependencyClosureRow}
    {closure : DependencyClosure} {sources : List DependencyScientificRow}
    {problem target : String} {cursor : Int} {inputs : List CeilingNode}
    (hclosure : closure = composeDependencyClosure reader.toPayloadReader publications problem target)
    (hroot : closure.rootAvailable = true)
    (hinputs : List.Forall₂ (InputOf reader closure sources problem target cursor)
      (publishedNodes reader.toPayloadReader publications closure target) inputs) :
    Admitted inputs := by
  unfold publishedNodes at hinputs
  cases hhead : publications.head? with
  | none =>
      rw [hhead] at hinputs
      cases hinputs
      decide
  | some root =>
      rw [hhead] at hinputs
      dsimp only at hinputs
      cases hpayload : checkedScientificPayload reader.toPayloadReader root.payloadSha256
          (root.payloadJson.getD "") with
      | error _ =>
          rw [hpayload] at hinputs
          cases hinputs
          decide
      | ok payload =>
          rw [hpayload] at hinputs
          dsimp only at hinputs
          have htargets : inputs.map (·.target)
              = (premiseNodes root payload closure target).map (·.target) := by
            refine List.forall₂_eq_eq_eq ▸ List.forall₂_map_right_iff.mpr
              (List.forall₂_map_left_iff.mpr (hinputs.flip.imp fun _ _ h => h.target))
          have hlength : (inputs.map (·.target)).length ≤ maxGraphNodes := by
            obtain ⟨claim, hclaim, htarget, hout⟩ := composed_root hclosure hroot hhead
            have hfewer := closureOf_length hclaim htarget
              (decide (publications.length ≤ dependencyClosureLimit))
            have hverified := @verifiedClaims_length reader.toPayloadReader problem publications
            rw [htargets, premiseNodes, List.map_cons, List.length_cons, List.map_map,
              List.length_map, hout]
            omega
          refine ⟨by rwa [List.length_map] at hlength, ?_⟩
          refine le_trans (Finset.card_le_card ?_) ((List.toFinset_card_le _).trans hlength)
          intro t ht
          rw [List.mem_toFinset] at ht ⊢
          rcases List.mem_append.mp ht with ht | ht
          · exact mem_sortTargets.mp ht
          · obtain ⟨parent, -, hedge⟩ := List.mem_flatMap.mp ht
            unfold edgesOf at hedge
            split at hedge
            · rename_i input hinput
              split at hedge
              · obtain ⟨node, hnode, hrelated⟩ := Related.mem_right hinputs (byTarget_mem hinput)
                have hmem := mem_sortTargets.mp hedge
                cases hdependencies : input.dependencies with
                | none => rw [hdependencies] at hmem; cases hmem
                | some dependencies =>
                    rw [hdependencies] at hmem
                    rw [htargets]
                    exact chainDependencies_listed hclosure hroot hhead hpayload hnode
                      (hrelated.dependencies ▸ hdependencies) t hmem
              · cases hedge
            · cases hedge

section FailsClosed

variable {reader : ScientificReader} {publications : List DependencyClosureRow}
  {closure : DependencyClosure} {sources sources' : List DependencyScientificRow}
  {problem target t : String} {cursor : Int} {assessed assessed' : List PremiseAssessment}
  {premise premise' : PremiseAssessment}

theorem assessed_sound
    (h : composeDependencyAssessment reader publications closure sources problem target cursor
      = .ok assessed)
    (hpremise : assessmentOf assessed t = some premise) (hcomplete : premise.chain.complete = true) :
    ∃ inputs, List.Forall₂ (InputOf reader closure sources problem target cursor)
        (publishedNodes reader.toPayloadReader publications closure target) inputs
      ∧ assessed = assessments problem cursor inputs ∧ Sound inputs t
      ∧ Exact inputs t premise.chain := by
  rcases composed_inputs h with ⟨-, rfl⟩ | ⟨-, inputs, hinputs, rfl⟩
  · cases hpremise
  · obtain ⟨input, -, hchain, -⟩ := assessmentOf_some hpremise
    obtain ⟨hexact, hsound⟩ := ceilingOf_complete hchain hcomplete
    exact ⟨inputs, hinputs, rfl, hsound, hexact⟩

theorem assessed_graded
    (h : composeDependencyAssessment reader publications closure sources problem target cursor
      = .ok assessed)
    (hpremise : assessmentOf assessed t = some premise) {grade : EvidenceClass}
    (hgrade : premise.chain.ceiling = some grade) : premise.chain.complete = true := by
  rcases composed_inputs h with ⟨-, rfl⟩ | ⟨-, inputs, -, rfl⟩
  · cases hpremise
  · obtain ⟨input, -, hchain, -⟩ := assessmentOf_some hpremise
    exact ceilingOf_graded hchain hgrade

theorem assessed_root
    (h : composeDependencyAssessment reader publications closure sources problem target cursor
      = .ok assessed)
    (hpremise : assessmentOf assessed target = some premise)
    (hcomplete : premise.chain.complete = true) : closure.complete = true := by
  obtain ⟨inputs, hinputs, -, hsound, -⟩ := assessed_sound h hpremise hcomplete
  obtain ⟨node, input, -, hnodes, -, hinput, husable⟩ :=
    (hsound target (.refl _ _)).1.node hinputs
  obtain ⟨dependencies, hdependencies, -⟩ := husable.known
  have htarget : node.target = target := by
    have hmem : node ∈ (publishedNodes reader.toPayloadReader publications closure target).filter
        (·.target == target) := hnodes ▸ List.mem_singleton_self node
    simpa using (List.mem_filter.mp hmem).2
  rw [hinput.dependencies, chainDependencies] at hdependencies
  split at hdependencies
  · cases hdependencies
  · split at hdependencies
    · cases hdependencies
    · rename_i hfollowed
      simp only [htarget, beq_self_eq_true, Bool.true_and, Bool.or_eq_true, not_or,
        Bool.not_eq_true', Bool.not_eq_false] at hfollowed
      exact hfollowed.2

/-- Everything a complete chain rests on over the recorded pins is
verified and stands up, and no grade of the chain is above its own. -/
theorem assessed_reach
    (h : composeDependencyAssessment reader publications closure sources problem target cursor
      = .ok assessed)
    (hpremise : assessmentOf assessed t = some premise) (hcomplete : premise.chain.complete = true)
    {u : String}
    (hreach : Reach (recordedPremises
      (publishedNodes reader.toPayloadReader publications closure target)) t u) :
    ∃ other, assessmentOf assessed u = some other ∧ other.standing.StandsUp u
      ∧ (∃ node ∈ publishedNodes reader.toPayloadReader publications closure target,
        node.target = u
          ∧ PremiseVerified reader problem cursor sources node.row other.standing)
      ∧ ∀ grade, premise.chain.ceiling = some grade →
        ∃ own, other.standing.ownCeiling = some own ∧ grade.rank ≤ own.rank := by
  obtain ⟨inputs, hinputs, rfl, hsound, hexact⟩ := assessed_sound h hpremise hcomplete
  obtain ⟨p, hwalk⟩ := hreach
  have hdeclared : Reach (declared inputs) t u :=
    ⟨p, hsound.walk (fun _ hlocal => by rw [hlocal.recorded hinputs]; exact fun _ => id) hwalk⟩
  obtain ⟨node, input, hnode, -, hfilter, hinput, husable⟩ := (hsound u hdeclared).1.node hinputs
  have hget : byTarget inputs u = some input := by
    rw [byTarget, hfilter]
    rfl
  have htarget := byTarget_target hget
  have hstands := (usable_iff.mp husable).1
  rw [htarget] at hstands
  obtain ⟨other, hother, hsame⟩ := assessmentOf_listed problem cursor hget
  refine ⟨other, hother, hsame ▸ hstands, ⟨node, hnode, ?_, ?_⟩, fun grade hgrade => ?_⟩
  · rw [← hinput.target, htarget]
  · rw [hsame]
    exact premiseStanding_complete hinput.standing hstands.complete
  · obtain ⟨own, hown⟩ := Option.isSome_iff_exists.mp hstands.graded
    obtain ⟨least, hleast, hmin, -⟩ := hexact.minimum hcomplete
    rw [hgrade] at hleast
    cases hleast
    refine ⟨own, by rw [hsame, hown], hmin u own hdeclared ?_⟩
    rw [ownCeiling, hget]
    exact hown

theorem weaker_inputs {nodes : List PremiseNode} {inputs inputs' : List CeilingNode}
    (hinputs : List.Forall₂ (InputOf reader closure sources problem target cursor) nodes inputs)
    (hinputs' : List.Forall₂ (InputOf reader closure sources' problem target cursor) nodes inputs')
    (hworse : ∀ u input input', byTarget inputs u = some input → byTarget inputs' u = some input' →
      input.standing.NoBetter u input'.standing) :
    Weaker inputs inputs' := by
  intro t hlocal'
  obtain ⟨node, input', -, hnodes, hfilter', hinput', husable'⟩ := hlocal'.node hinputs'
  obtain ⟨input, hinput, hfilter⟩ : ∃ input,
      InputOf reader closure sources problem target cursor node input
      ∧ inputs.filter (·.target == t) = [input] := by
    have hfiltered := inputs_filter hinputs t
    rw [hnodes] at hfiltered
    generalize inputs.filter (·.target == t) = filtered at hfiltered ⊢
    cases hfiltered with
    | cons hinput htail => cases htail; exact ⟨_, hinput, rfl⟩
  have hget : byTarget inputs t = some input := by rw [byTarget, hfilter]; rfl
  have hget' : byTarget inputs' t = some input' := by rw [byTarget, hfilter']; rfl
  have hsame : input.dependencies = input'.dependencies := by
    rw [hinput.dependencies, hinput'.dependencies]
  have hbetter := hworse t input input' hget hget'
  obtain ⟨hstands', hexact', hknown'⟩ := usable_iff.mp husable'
  rw [byTarget_target hget'] at hstands' hexact'
  have husable : input.Usable := by
    rw [usable_iff, byTarget_target hget, hsame]
    exact ⟨hbetter.stands hstands', hexact', hknown'⟩
  refine ⟨⟨input, hfilter, husable⟩, ?_, fun grade' hgrade' => ?_⟩
  · rw [declared, declared, hget, hget', Option.bind_some, Option.bind_some, hsame]
    exact fun _ => id
  · rw [ownCeiling, hget'] at hgrade'
    rw [ownCeiling, hget]
    exact hbetter.grade hstands' grade' hgrade'

theorem assessed_mono
    (hclosure : closure
      = composeDependencyClosure reader.toPayloadReader publications problem target)
    (h : composeDependencyAssessment reader publications closure sources problem target cursor
      = .ok assessed)
    (h' : composeDependencyAssessment reader publications closure sources' problem target cursor
      = .ok assessed')
    (hworse : ∀ u other other', assessmentOf assessed u = some other →
      assessmentOf assessed' u = some other' → other.standing.NoBetter u other'.standing)
    (hpremise' : assessmentOf assessed' t = some premise')
    (hcomplete' : premise'.chain.complete = true) :
    ∃ premise grade grade', assessmentOf assessed t = some premise
      ∧ premise.chain.complete = true ∧ premise.chain.ceiling = some grade
      ∧ premise'.chain.ceiling = some grade' ∧ grade'.rank ≤ grade.rank := by
  rcases composed_inputs h' with ⟨-, rfl⟩ | ⟨hopens, inputs', hinputs', rfl⟩
  · cases hpremise'
  rcases composed_inputs h with ⟨hclosed, -⟩ | ⟨-, inputs, hinputs, rfl⟩
  · exact (hclosed hopens).elim
  have hadmitted := composed_admitted hclosure hopens.1 hinputs
  have hweaker : Weaker inputs inputs' := by
    refine weaker_inputs hinputs hinputs' fun u input input' hget hget' => ?_
    obtain ⟨other, hother, hsame⟩ := assessmentOf_listed problem cursor hget
    obtain ⟨other', hother', hsame'⟩ := assessmentOf_listed problem cursor hget'
    rw [← hsame, ← hsame']
    exact hworse u other other' hother hother'
  obtain ⟨-, -, hchain', -⟩ := assessmentOf_some hpremise'
  obtain ⟨out, grade, grade', hout, hcomplete, hgrade, hgrade', hle⟩ :=
    ceiling_mono hadmitted hweaker hchain' hcomplete'
  obtain ⟨-, hsound⟩ := ceilingOf_complete hout hcomplete
  obtain ⟨input, hfilter, -⟩ := (hsound t (.refl _ _)).1
  have hget : byTarget inputs t = some input := by rw [byTarget, hfilter]; rfl
  obtain ⟨premise, hpremise, -⟩ := assessmentOf_listed problem cursor hget
  obtain ⟨-, -, hchain, -⟩ := assessmentOf_some hpremise
  rw [hout] at hchain
  cases hchain
  exact ⟨premise, grade, grade', hpremise, hcomplete, hgrade, hgrade', hle⟩

theorem withPremiseStaleness_fresh {folded : ScientificDisposition}
    {pins : List ClaimDependencyPin} {complete : Bool} (hpins : pins ≠ [])
    (h : (withPremiseStaleness folded (some pins) assessed complete).stale = false) :
    complete = true ∧ ∀ pin ∈ pins, ∃ premise, assessmentOf assessed pin.target = some premise
      ∧ premise.chain.complete = true := by
  unfold withPremiseStaleness at h
  dsimp only at h
  split at h
  · rename_i hleft
    simp only [Bool.or_eq_true, List.isEmpty_iff, hpins, or_false] at hleft
    rw [hleft] at h
    cases h
  · split at h
    · cases h
    · rename_i hcomplete
      simp only [Bool.or_eq_true, Bool.not_eq_true', not_or, Bool.not_eq_false, List.any_eq_true,
        not_exists, not_and] at hcomplete
      refine ⟨hcomplete.1, fun pin hpin => ?_⟩
      cases hpremise : assessmentOf assessed pin.target with
      | none => exact absurd (hcomplete.2 pin hpin) (by simp [hpremise])
      | some premise =>
          refine ⟨premise, rfl, ?_⟩
          have hchain := hcomplete.2 pin hpin
          rw [hpremise] at hchain
          simpa using hchain

end FailsClosed

/-- Premise assessment fails closed. The root's chain is complete only
over a complete closure; whatever a complete chain rests on over the
recorded pins is verified, current, live, uncontested and fresh; no
grade is above that of anything it rests on; sources that make no
premise of the closure better make no chain more complete and no grade
higher; and a fold with premises stays fresh only when all of their
chains are complete. -/
theorem premise_assessment_fails_closed (reader : ScientificReader)
    (publications : List DependencyClosureRow) (closure : DependencyClosure)
    (sources : List DependencyScientificRow) (problem target : String) (cursor : Int)
    {assessed : List PremiseAssessment}
    (h : composeDependencyAssessment reader publications closure sources problem target cursor
      = .ok assessed) :
    (∀ premise, assessmentOf assessed target = some premise → premise.chain.complete = true →
        closure.complete = true)
      ∧ (∀ t premise u, assessmentOf assessed t = some premise → premise.chain.complete = true →
        Reach (recordedPremises
          (publishedNodes reader.toPayloadReader publications closure target)) t u →
        ∃ other, assessmentOf assessed u = some other ∧ other.standing.StandsUp u
          ∧ ∃ node ∈ publishedNodes reader.toPayloadReader publications closure target,
            node.target = u
              ∧ PremiseVerified reader problem cursor sources node.row other.standing)
      ∧ (∀ t premise grade u, assessmentOf assessed t = some premise →
        premise.chain.ceiling = some grade →
        Reach (recordedPremises
          (publishedNodes reader.toPayloadReader publications closure target)) t u →
        ∃ other own, assessmentOf assessed u = some other
          ∧ other.standing.ownCeiling = some own ∧ grade.rank ≤ own.rank)
      ∧ (closure = composeDependencyClosure reader.toPayloadReader publications problem target →
        ∀ sources' assessed',
          composeDependencyAssessment reader publications closure sources' problem target cursor
            = .ok assessed' →
          (∀ u other other', assessmentOf assessed u = some other →
            assessmentOf assessed' u = some other' →
            other.standing.NoBetter u other'.standing) →
          ∀ t premise', assessmentOf assessed' t = some premise' →
            premise'.chain.complete = true →
            ∃ premise grade grade', assessmentOf assessed t = some premise
              ∧ premise.chain.complete = true ∧ premise.chain.ceiling = some grade
              ∧ premise'.chain.ceiling = some grade' ∧ grade'.rank ≤ grade.rank)
      ∧ ∀ folded pins, pins ≠ [] →
        (withPremiseStaleness folded (some pins) assessed closure.complete).stale = false →
        closure.complete = true ∧ ∀ pin ∈ pins,
          ∃ premise, assessmentOf assessed pin.target = some premise
            ∧ premise.chain.complete = true := by
  refine ⟨fun premise => assessed_root h, ?_, ?_, ?_, fun folded pins hpins hfresh =>
    withPremiseStaleness_fresh hpins hfresh⟩
  · intro t premise u hpremise hcomplete hreach
    obtain ⟨other, hother, hstands, hverified, -⟩ := assessed_reach h hpremise hcomplete hreach
    exact ⟨other, hother, hstands, hverified⟩
  · intro t premise grade u hpremise hgrade hreach
    have hcomplete := assessed_graded h hpremise hgrade
    obtain ⟨other, hother, -, -, hleast⟩ := assessed_reach h hpremise hcomplete hreach
    obtain ⟨own, hown, hle⟩ := hleast grade hgrade
    exact ⟨other, own, hother, hown, hle⟩
  · intro hclosure sources' assessed' h' hworse t premise' hpremise' hcomplete'
    exact assessed_mono hclosure h h' hworse hpremise' hcomplete'

/-! ## One premise -/

def pinnedReader : ScientificReader where
  sha256 text := if text.utf8ByteSize = 55 then digestB1 else digestX
  parse text := if text.utf8ByteSize = 55 then some publicationB1.2 else some publicationX.2
  localeLe left right := decide (left ≤ right)

/-- The scientific row of a publication without a successor. -/
def publicationSource (row : DependencyClosureRow) : DependencyScientificRow where
  claimId := row.claimId
  eventId := row.eventId
  seq := row.seq
  type := row.type
  objectId := row.claimId
  objectVersion := row.version
  targetVersion := row.version
  payloadSha256 := row.payloadSha256
  payloadJson := row.payloadJson
  fellowId := "F-1"
  sponsorId := "S-1"
  contentDigest := row.contentDigest
  problemId := row.problemId
  latestVersion := row.version
  scanComplete := true

theorem pinnedReader_root {text : String} (h : text.utf8ByteSize ≠ 55) :
    pinnedReader.sha256 text = digestX ∧ pinnedReader.parse text = some publicationX.2 :=
  ⟨if_neg h, if_neg h⟩

theorem pinnedReader_premise {text : String} (h : text.utf8ByteSize = 55) :
    pinnedReader.sha256 text = digestB1 ∧ pinnedReader.parse text = some publicationB1.2 :=
  ⟨if_pos h, if_pos h⟩

def pinnedClosure : DependencyClosure :=
  composeDependencyClosure pinnedReader.toPayloadReader [rowX, rowB1] "P-1" "C-4@1"

theorem pinnedClosure_eq : pinnedClosure = closureOf
    [{ row := rowX, statement := "xx", falsifier := none, kind := none, pins := some [pinB1] },
      { row := rowB1, statement := "b", falsifier := none, kind := none, pins := some [] }]
    true (some "X1") "C-4@1" := by
  obtain ⟨hB1, hX, -⟩ := diamond_sizes
  obtain ⟨hshaX, hparseX⟩ := @pinnedReader_root publicationX.1 (by omega)
  obtain ⟨hshaB1, hparseB1⟩ := pinnedReader_premise hB1
  have hrows : verifyRows pinnedReader.toPayloadReader "P-1" 0 [rowX, rowB1]
      = [{ row := rowX, statement := "xx", falsifier := none, kind := none, pins := some [pinB1] },
        { row := rowB1, statement := "b", falsifier := none, kind := none, pins := some [] }] := by
    have htotal : 0 + [rowX, rowB1].length * 277 ≤ dependencyTotalBytes := by
      have hlength : [rowX, rowB1].length = 2 := rfl
      rw [hlength]
      decide
    rw [verifyRows_read 277 (by decide) htotal]
    · rw [List.flatMap_cons, List.flatMap_singleton,
        verifiedRow_eq rfl hparseX (if_pos (by decide)),
        verifiedRow_eq rfl hparseB1 (if_pos (by decide))]
      rfl
    · intro row hrow
      simp only [List.mem_cons, List.not_mem_nil, or_false] at hrow
      rcases hrow with rfl | rfl
      · exact ⟨rfl, _, rfl, hX.le, hshaX⟩
      · exact ⟨rfl, _, rfl, by omega, hshaB1⟩
  have htake : [rowX, rowB1].take dependencyClosureLimit = [rowX, rowB1] := rfl
  rw [pinnedClosure, composeDependencyClosure, verifiedClaims, htake, hrows]
  rfl

theorem premise_assessment_fails_closed_pinned :
    ∃ assessed, composeDependencyAssessment pinnedReader [rowX, rowB1] pinnedClosure
        [publicationSource rowB1, publicationSource rowX] "P-1" "C-4@1" 9 = .ok assessed
      ∧ (assessmentOf assessed "C-4@1").any (·.chain.complete) = true
      ∧ pinnedClosure.complete = true
      ∧ ∃ other, assessmentOf assessed "C-3@1" = some other
        ∧ other.standing.StandsUp "C-3@1" := by
  have hrun : (composeDependencyAssessment pinnedReader [rowX, rowB1] pinnedClosure
      [publicationSource rowB1, publicationSource rowX] "P-1" "C-4@1" 9).toOption.any
        (fun assessed => (assessmentOf assessed "C-4@1").any (·.chain.complete)) = true := by
    rw [pinnedClosure_eq]
    decide +kernel
  cases hassessed : composeDependencyAssessment pinnedReader [rowX, rowB1] pinnedClosure
      [publicationSource rowB1, publicationSource rowX] "P-1" "C-4@1" 9 with
  | error error => rw [hassessed] at hrun; cases hrun
  | ok assessed =>
      rw [hassessed] at hrun
      change (assessmentOf assessed "C-4@1").any (·.chain.complete) = true at hrun
      refine ⟨assessed, rfl, hrun, ?_⟩
      obtain ⟨premise, hpremise, hcomplete⟩ := Option.any_eq_true _ _ |>.mp hrun
      obtain ⟨hroot, hreach, -⟩ := premise_assessment_fails_closed pinnedReader [rowX, rowB1]
        pinnedClosure [publicationSource rowB1, publicationSource rowX] "P-1" "C-4@1" 9 hassessed
      have hpinned : "C-3@1" ∈ recordedPremises
          (publishedNodes pinnedReader.toPayloadReader [rowX, rowB1] pinnedClosure "C-4@1")
          "C-4@1" := by
        rw [pinnedClosure_eq]
        decide +kernel
      obtain ⟨other, hother, hstands, -⟩ := hreach "C-4@1" premise "C-3@1" hpremise hcomplete
        ⟨_, .step .start hpinned⟩
      exact ⟨hroot premise hpremise hcomplete, other, hother, hstands⟩

end Asimposium
