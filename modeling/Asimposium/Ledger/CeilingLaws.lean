import Mathlib.Data.List.Forall2
import Asimposium.Ledger.CeilingExact

/-!
# Laws of the ceilings

Two lists of nodes that agree up to the order of the nodes and of their
dependencies have the same assessment (`Relisted.assessment`): every
look-up of `DependencyCeiling` gives the same answer on both.

A list whose nodes are no stronger, node by node, has no higher ceiling
anywhere (`ceiling_mono`): what is sound in the weaker list is sound in
the stronger one, and the weaker list has every walk of the stronger.
-/

namespace Asimposium

open BreadthFirst Shortlex

/-! ## Node by node relations -/

section Related

variable {R : CeilingNode → CeilingNode → Prop} {nodes nodes' : List CeilingNode}

theorem related_filter (htarget : ∀ {node node'}, R node node' → node'.target = node.target)
    (h : List.Forall₂ R nodes nodes') (target : String) :
    List.Forall₂ R (nodes.filter (·.target == target)) (nodes'.filter (·.target == target)) := by
  refine List.rel_filter (fun node node' hrelated => ?_) h
  dsimp only
  rw [htarget hrelated]

theorem related_getLast? (h : List.Forall₂ R nodes nodes') :
    Option.Rel R nodes.getLast? nodes'.getLast? := by
  induction h with
  | nil => exact .none
  | cons hrelated htail ih =>
      cases htail with
      | nil => exact .some hrelated
      | cons hrelated' htail' => simpa [List.getLast?_cons_cons] using ih

theorem related_byTarget (htarget : ∀ {node node'}, R node node' → node'.target = node.target)
    (h : List.Forall₂ R nodes nodes') (target : String) :
    Option.Rel R (byTarget nodes target) (byTarget nodes' target) :=
  related_getLast? (related_filter htarget h target)

theorem related_isDuplicate (htarget : ∀ {node node'}, R node node' → node'.target = node.target)
    (h : List.Forall₂ R nodes nodes') (target : String) :
    isDuplicate nodes' target = isDuplicate nodes target := by
  rw [isDuplicate, isDuplicate, (related_filter htarget h target).length_eq]

theorem related_targets (htarget : ∀ {node node'}, R node node' → node'.target = node.target)
    (h : List.Forall₂ R nodes nodes') : nodes'.map (·.target) = nodes.map (·.target) := by
  induction h with
  | nil => rfl
  | cons hrelated _ ih => rw [List.map_cons, List.map_cons, htarget hrelated, ih]

end Related

/-! ## The order of nodes and edges -/

/-- The same node with its dependencies in another order. -/
structure Reordered (node node' : CeilingNode) : Prop where
  target : node'.target = node.target
  standing : node'.standing = node.standing
  dependencies : Option.Rel List.Perm node.dependencies node'.dependencies

/-- The same graph, its nodes and their dependencies listed in another
order. -/
def Relisted (nodes nodes' : List CeilingNode) : Prop :=
  ∃ reordered, List.Forall₂ Reordered nodes reordered ∧ reordered.Perm nodes'

structure SameGraph (nodes nodes' : List CeilingNode) : Prop where
  assess : assess nodes' = assess nodes
  edges : edgesOf nodes' = edgesOf nodes
  listed : listedTargets nodes' = listedTargets nodes

theorem SameGraph.assessment {nodes nodes' : List CeilingNode} (h : SameGraph nodes nodes') :
    computeDependencyCeilings nodes' = computeDependencyCeilings nodes := by
  have hgraph : graphTargets nodes' = graphTargets nodes := by
    rw [graphTargets, graphTargets, h.listed, h.edges]
  have hpaths : pathsFrom nodes' = pathsFrom nodes := by
    funext fuel root
    rw [pathsFrom, pathsFrom, h.edges]
  have hcycles : cycleAt nodes' = cycleAt nodes := by
    funext fuel root
    rw [cycleAt, cycleAt, hpaths, h.edges]
  have hcandidates : candidatesAt nodes' = candidatesAt nodes := by
    funext fuel target path
    rw [candidatesAt, candidatesAt, hcycles, h.assess]
  have hroot : assessRoot nodes' = assessRoot nodes := by
    funext fuel root
    rw [assessRoot, assessRoot, hcandidates, hpaths, h.assess]
  rw [computeDependencyCeilings, computeDependencyCeilings, hgraph, h.listed, hroot]

theorem SameGraph.trans {nodes mid nodes' : List CeilingNode} (h : SameGraph nodes mid)
    (h' : SameGraph mid nodes') : SameGraph nodes nodes' :=
  ⟨h'.assess.trans h.assess, h'.edges.trans h.edges, h'.listed.trans h.listed⟩

theorem sortTargets_eq {targets targets' : List String}
    (h : ∀ target, target ∈ targets' ↔ target ∈ targets) :
    sortTargets targets' = sortTargets targets :=
  (sortTargets_sorted targets').eq_of_mem_iff (sortTargets_sorted targets)
    fun target => by rw [mem_sortTargets, mem_sortTargets, h]

variable {node : CeilingNode}

theorem assessNode_congr {nodes nodes' : List CeilingNode}
    (hlength : nodes'.length = nodes.length)
    (hduplicate : isDuplicate nodes' node.target = isDuplicate nodes node.target) :
    assessNode nodes' node = assessNode nodes node := by
  rw [assessNode, assessNode, isUnavailable, isUnavailable, hlength, hduplicate]

theorem Reordered.assessNode {node' : CeilingNode} (h : Reordered node node')
    (nodes : List CeilingNode) :
    Asimposium.assessNode nodes node' = Asimposium.assessNode nodes node := by
  have hunavailable : isUnavailable nodes node' = isUnavailable nodes node := by
    rw [isUnavailable, isUnavailable, h.target, h.standing]
  have hdependencies := h.dependencies
  rw [Asimposium.assessNode, Asimposium.assessNode, hunavailable, h.target, h.standing]
  generalize node.dependencies = listed at *
  generalize node'.dependencies = listed' at *
  cases hdependencies with
  | none => rfl
  | @some dependencies dependencies' hperm =>
      have hall : dependencies'.all exactTarget = dependencies.all exactTarget :=
        (hperm.all_eq).symm
      dsimp only
      rw [hperm.length_eq, hall]

theorem reordered_sameGraph {nodes nodes' : List CeilingNode}
    (h : List.Forall₂ Reordered nodes nodes') : SameGraph nodes nodes' := by
  have hnode : ∀ {node node'}, Reordered node node' →
      assessNode nodes' node' = assessNode nodes node := by
    intro node node' hrelated
    rw [assessNode_congr h.length_eq.symm (related_isDuplicate (·.target) h _),
      hrelated.assessNode]
  have hsorted : ∀ {node node'}, Reordered node node' →
      sortTargets (node'.dependencies.getD []) = sortTargets (node.dependencies.getD []) := by
    intro node node' hrelated
    have hdependencies := hrelated.dependencies
    generalize node.dependencies = listed at *
    generalize node'.dependencies = listed' at *
    cases hdependencies with
    | none => rfl
    | some hperm => exact sortTargets_eq fun _ => hperm.symm.mem_iff
  refine ⟨funext fun target => ?_, funext fun target => ?_, ?_⟩
  · have hlookup := related_byTarget (·.target) h target
    unfold assess
    generalize byTarget nodes target = found at *
    generalize byTarget nodes' target = found' at *
    cases hlookup with
    | none => rfl
    | some hrelated => exact hnode hrelated
  · have hlookup := related_byTarget (·.target) h target
    unfold edgesOf
    generalize byTarget nodes target = found at *
    generalize byTarget nodes' target = found' at *
    cases hlookup with
    | none => rfl
    | some hrelated =>
        dsimp only
        rw [hnode hrelated, hsorted hrelated]
  · rw [listedTargets, listedTargets, related_targets (·.target) h]

theorem assessNode_duplicate {nodes : List CeilingNode} (h : isDuplicate nodes node.target = true) :
    assessNode nodes node = unknown node.target .sourceUnavailable := by
  rw [assessNode, isUnavailable, h, Bool.true_or, if_pos]
  simp

theorem perm_sameGraph {nodes nodes' : List CeilingNode} (h : nodes.Perm nodes') :
    SameGraph nodes nodes' := by
  have hfilter := fun target => h.filter (·.target == target)
  have hduplicate : ∀ target, isDuplicate nodes' target = isDuplicate nodes target := by
    intro target
    rw [isDuplicate, isDuplicate, (hfilter target).length_eq]
  have hnode : ∀ node, assessNode nodes' node = assessNode nodes node := fun node =>
    assessNode_congr h.length_eq.symm (hduplicate node.target)
  -- a single entry stays where it is, repeated ones are refused on both sides
  have hlookup : ∀ target, byTarget nodes' target = byTarget nodes target
      ∨ ∃ node node', byTarget nodes target = some node ∧ byTarget nodes' target = some node'
        ∧ isDuplicate nodes target = true := by
    intro target
    have hperm := hfilter target
    unfold byTarget isDuplicate
    cases hcase : nodes.filter (·.target == target) with
    | nil =>
        rw [hcase] at hperm
        rw [hperm.nil_eq]
        exact .inl rfl
    | cons first rest =>
        rw [hcase] at hperm
        cases rest with
        | nil =>
            rw [List.perm_singleton.mp hperm.symm]
            exact .inl rfl
        | cons second rest =>
            have hne : nodes'.filter (·.target == target) ≠ [] := fun hnil => by
              rw [hnil] at hperm
              exact absurd hperm.length_eq (by simp)
            exact .inr ⟨_, _, List.getLast?_eq_some_getLast (List.cons_ne_nil _ _),
              List.getLast?_eq_some_getLast hne, by simp⟩
  refine ⟨funext fun target => ?_, funext fun target => ?_, ?_⟩
  · unfold assess
    rcases hlookup target with hsame | ⟨node, node', hnode₁, hnode₂, htwice⟩
    · rw [hsame]
      cases byTarget nodes target with
      | none => rfl
      | some node => exact hnode node
    · have htarget := byTarget_target hnode₁
      have htarget' := byTarget_target hnode₂
      rw [hnode₁, hnode₂]
      dsimp only
      rw [assessNode_duplicate (by rw [htarget', hduplicate, htwice]),
        assessNode_duplicate (by rw [htarget, htwice]), htarget, htarget']
  · unfold edgesOf
    rcases hlookup target with hsame | ⟨node, node', hnode₁, hnode₂, htwice⟩
    · rw [hsame]
      cases byTarget nodes target with
      | none => rfl
      | some node => dsimp only; rw [hnode node]
    · have htarget := byTarget_target hnode₁
      have htarget' := byTarget_target hnode₂
      rw [hnode₁, hnode₂]
      dsimp only
      rw [assessNode_duplicate (by rw [htarget', hduplicate, htwice]),
        assessNode_duplicate (by rw [htarget, htwice])]
      rfl
  · exact sortTargets_eq fun target => (h.map (·.target)).symm.mem_iff

theorem Relisted.assessment {nodes nodes' : List CeilingNode} (h : Relisted nodes nodes') :
    computeDependencyCeilings nodes' = computeDependencyCeilings nodes := by
  obtain ⟨reordered, hreordered, hperm⟩ := h
  exact ((reordered_sameGraph hreordered).trans (perm_sameGraph hperm)).assessment

/-! ## The assessment of one target -/

theorem lookup_map_pair {β : Type} (f : String → β) (targets : List String) (target : String) :
    (targets.map fun root => (root, f root)).lookup target
      = if target ∈ targets then some (f target) else none := by
  induction targets with
  | nil => rfl
  | cons head rest ih =>
      rw [List.map_cons, List.lookup_cons, ih]
      by_cases heq : target = head
      · simp [heq]
      · simp [heq, beq_false_of_ne heq]

section Assessed

variable {nodes nodes' : List CeilingNode} {targets : List String} {root : String}

theorem ceilingOf_eq (hgraph : graphTargets nodes = some targets) (root : String) :
    ceilingOf nodes root
      = if root ∈ targets then some (assessRoot nodes targets.length root) else none := by
  rw [ceilingOf, computeDependencyCeilings, hgraph, lookup_map_pair]
  simp only [mem_sortTargets]

variable {out : DependencyCeiling}

theorem ceilingOf_exact (hsize : nodes.length ≤ maxGraphNodes)
    (hgraph : graphTargets nodes = some targets) (h : ceilingOf nodes root = some out) :
    Exact nodes root out := by
  rw [ceilingOf_eq hgraph] at h
  split at h
  · rename_i hroot
    cases h
    by_cases hlocal : LocallyComplete nodes root
    · exact assessRoot_exact hsize hgraph hroot hlocal
    · rw [assessRoot, if_neg (by rwa [assess_complete hsize])]
      exact assess_exact hsize hlocal
  · cases h

theorem ceilingOf_truncated (hgraph : graphTargets nodes = none)
    (h : ceilingOf nodes root = some out) : out.complete = false ∧ out.ceiling = none := by
  rw [ceilingOf, computeDependencyCeilings, hgraph, lookup_map_pair] at h
  split at h
  · cases h
    exact ⟨rfl, rfl⟩
  · cases h

theorem LocallyComplete.listed (h : LocallyComplete nodes root) :
    ∃ node ∈ nodes, node.target = root := by
  obtain ⟨node, hfilter, -⟩ := h
  have hmem : node ∈ nodes.filter (·.target == root) := by rw [hfilter]; simp
  exact ⟨node, (List.mem_filter.mp hmem).1, by simpa using (List.mem_filter.mp hmem).2⟩

/-! ## Weaker graphs -/

/-- Replacing the first node by the second one cannot help: the second
is usable only where the first is, on no higher grade and with all its
dependencies. -/
structure NoStronger (node node' : CeilingNode) : Prop where
  target : node'.target = node.target
  usable : node'.Usable → node.Usable
  grade : node'.Usable → ∀ grade', node'.standing.ownCeiling = some grade' →
    ∃ grade, node.standing.ownCeiling = some grade ∧ grade'.rank ≤ grade.rank
  dependencies : node'.Usable → node.dependencies.getD [] ⊆ node'.dependencies.getD []

/-- What is locally complete in the second graph is so in the first, with
no further dependencies and on no lower grade. -/
def Weaker (nodes nodes' : List CeilingNode) : Prop :=
  ∀ t, LocallyComplete nodes' t → LocallyComplete nodes t ∧ declared nodes t ⊆ declared nodes' t
    ∧ ∀ grade', ownCeiling nodes' t = some grade' →
      ∃ grade, ownCeiling nodes t = some grade ∧ grade'.rank ≤ grade.rank

theorem weaker_of_related (hweak : List.Forall₂ NoStronger nodes nodes') :
    Weaker nodes nodes' := by
  rintro t ⟨node', hfilter', husable⟩
  have hfiltered := related_filter (·.target) hweak t
  rw [hfilter'] at hfiltered
  obtain ⟨node, hrelated, hfilter⟩ : ∃ node, NoStronger node node'
      ∧ nodes.filter (·.target == t) = [node] := by
    generalize nodes.filter (·.target == t) = filtered at hfiltered
    cases hfiltered with
    | cons hrelated htail => cases htail; exact ⟨_, hrelated, rfl⟩
  have hnode : byTarget nodes t = some node := by rw [byTarget, hfilter]; rfl
  have hnode' : byTarget nodes' t = some node' := by rw [byTarget, hfilter']; rfl
  refine ⟨⟨node, hfilter, hrelated.usable husable⟩, ?_, ?_⟩
  · rw [declared, declared, hnode, hnode']
    exact hrelated.dependencies husable
  · rw [ownCeiling, ownCeiling, hnode, hnode']
    exact hrelated.grade husable

theorem Sound.walk {next : String → List String}
    (hnext : ∀ t, LocallyComplete nodes' t → next t ⊆ declared nodes' t)
    (hsound : Sound nodes' root) {p : List String} {t : String} (h : Walk next root p t) :
    Walk (declared nodes') root p t := by
  induction h with
  | start => exact .start
  | step _ hedge ih => exact .step ih (hnext _ (hsound _ ⟨_, ih⟩).1 hedge)

theorem Sound.reach (hsound : Sound nodes root) {t : String}
    (h : Reach (declared nodes) root t) : Sound nodes t := fun u hu => hsound u (h.trans hu)

theorem Sound.stronger (hweak : Weaker nodes nodes') (hsound : Sound nodes' root) :
    Sound nodes root := by
  have hedges := fun t ht => (hweak t ht).2.1
  rintro t ⟨p, hwalk⟩
  have hreach : Reach (declared nodes') root t := ⟨p, hsound.walk hedges hwalk⟩
  refine ⟨(hweak t (hsound t hreach).1).1, fun q hclosed => ?_⟩
  exact (hsound t hreach).2 q ⟨(hsound.reach hreach).walk hedges hclosed.1, hclosed.2⟩

theorem ceilingOf_oversized (hsize : maxGraphNodes < nodes.length)
    (h : ceilingOf nodes root = some out) : out.complete = false ∧ out.ceiling = none := by
  have hnode : ∀ node, (assessNode nodes node).complete = false := by
    intro node
    have hunavailable : isUnavailable nodes node = true := by
      simp [isUnavailable, hsize]
    rw [assessNode, if_pos hunavailable]
    rfl
  have hassess : (assess nodes root).complete = false := by
    unfold assess
    cases byTarget nodes root with
    | none => rfl
    | some node => exact hnode node
  cases hgraph : graphTargets nodes with
  | none => exact ceilingOf_truncated hgraph h
  | some targets =>
      rw [ceilingOf_eq hgraph] at h
      split at h
      · cases h
        rw [assessRoot, if_neg (by rw [hassess]; exact Bool.false_ne_true)]
        exact ⟨hassess, assess_ceiling_none root hassess⟩
      · cases h

theorem ceilingOf_complete (h : ceilingOf nodes root = some out) (hcomplete : out.complete = true) :
    Exact nodes root out ∧ Sound nodes root := by
  by_cases hsize : nodes.length ≤ maxGraphNodes
  · cases hgraph : graphTargets nodes with
    | none =>
        rw [(ceilingOf_truncated hgraph h).1] at hcomplete
        cases hcomplete
    | some targets =>
        have hexact := ceilingOf_exact hsize hgraph h
        exact ⟨hexact, hexact.complete_iff.mp hcomplete⟩
  · rw [(ceilingOf_oversized (by omega) h).1] at hcomplete
    cases hcomplete

theorem ceilingOf_graded (h : ceilingOf nodes root = some out) {grade : EvidenceClass}
    (hgrade : out.ceiling = some grade) : out.complete = true := by
  by_contra hincomplete
  have hnone : out.ceiling = none := by
    by_cases hsize : nodes.length ≤ maxGraphNodes
    · cases hgraph : graphTargets nodes with
      | none => exact (ceilingOf_truncated hgraph h).2
      | some targets =>
          exact ((ceilingOf_exact hsize hgraph h).blocked (by simpa using hincomplete)).1
    · exact (ceilingOf_oversized (by omega) h).2
  rw [hnone] at hgrade
  cases hgrade

theorem ceiling_mono (hadmitted : Admitted nodes) (hweak : Weaker nodes nodes')
    {out' : DependencyCeiling} (hout' : ceilingOf nodes' root = some out')
    (hcomplete' : out'.complete = true) :
    ∃ out grade grade', ceilingOf nodes root = some out ∧ out.complete = true
      ∧ out.ceiling = some grade ∧ out'.ceiling = some grade' ∧ grade'.rank ≤ grade.rank := by
  obtain ⟨targets, hgraph⟩ := hadmitted.graphTargets
  obtain ⟨hexact', hsound'⟩ := ceilingOf_complete hout' hcomplete'
  have hsound := hsound'.stronger hweak
  obtain ⟨node, hnode, rfl⟩ := (hsound root (.refl _ _)).1.listed
  have hroot := (graphTargets_closed hgraph).1 node hnode
  have hout : ceilingOf nodes node.target
      = some (assessRoot nodes targets.length node.target) := by
    rw [ceilingOf_eq hgraph, if_pos hroot]
  have hexact := ceilingOf_exact hadmitted.1 hgraph hout
  have hcomplete := hexact.complete_iff.mpr hsound
  obtain ⟨grade, hceiling, -, ⟨t, hwalk, hgrade⟩, -⟩ := hexact.minimum hcomplete
  obtain ⟨grade', hceiling', hmin', -, -⟩ := hexact'.minimum hcomplete'
  have hreach' : Reach (declared nodes') node.target t :=
    ⟨_, hsound'.walk (fun t ht => (hweak t ht).2.1) hwalk⟩
  have hlocal' := (hsound' t hreach').1
  obtain ⟨own', hown'⟩ := Option.isSome_iff_exists.mp hlocal'.ownCeiling_isSome
  obtain ⟨own, hown, hle⟩ := (hweak t hlocal').2.2 own' hown'
  rw [hgrade] at hown
  cases hown
  exact ⟨_, grade, grade', hout, hcomplete, hceiling, hceiling',
    (hmin' t own' hreach' hown').trans hle⟩

end Assessed

/-- The same node with dependencies added or its own ceiling lowered. -/
structure Weakened (node node' : CeilingNode) : Prop where
  target : node'.target = node.target
  standing : node'.standing = { node.standing with ownCeiling := node'.standing.ownCeiling }
  grade : Option.Rel (fun grade grade' => grade'.rank ≤ grade.rank) node.standing.ownCeiling
    node'.standing.ownCeiling
  dependencies : Option.Rel List.Subperm node.dependencies node'.dependencies

theorem Weakened.noStronger {node' : CeilingNode} (h : Weakened node node') :
    NoStronger node node' := by
  obtain ⟨target, dependencies, standing⟩ := node
  obtain ⟨target', dependencies', standing'⟩ := node'
  obtain ⟨htarget, hstanding, hgrade, hdependencies⟩ := h
  dsimp only at *
  subst htarget
  have hsame : standing'.complete = standing.complete ∧ standing'.stale = standing.stale
      ∧ standing'.disposition = standing.disposition
      ∧ standing'.reviewState = standing.reviewState
      ∧ standing'.latestVersion = standing.latestVersion := by
    rw [hstanding]
    exact ⟨rfl, rfl, rfl, rfl, rfl⟩
  obtain ⟨hcomplete, hstale, hdisposition, hreview, hlatest⟩ := hsame
  have hsub : dependencies.getD [] ⊆ dependencies'.getD [] := by
    cases hdependencies with
    | none => exact List.Subset.refl _
    | some hsubperm => exact hsubperm.subset
  refine ⟨rfl, fun husable => ?_, fun _ grade' hgrade' => ?_, fun _ => hsub⟩
  · refine ⟨hcomplete ▸ husable.complete, hstale ▸ husable.fresh, husable.exact,
      hdisposition ▸ husable.active, hreview ▸ husable.uncontested, ?_, hlatest ▸ husable.current,
      ?_⟩
    · have hgraded := husable.graded
      dsimp only at hgraded ⊢
      generalize standing.ownCeiling = own at *
      generalize standing'.ownCeiling = own' at *
      cases hgrade with
      | none => exact hgraded
      | some _ => rfl
    · obtain ⟨listed', hlisted', hlength, hall⟩ := husable.known
      dsimp only at hlisted' ⊢
      cases hdependencies with
      | none => cases hlisted'
      | some hsubperm =>
          cases hlisted'
          exact ⟨_, rfl, hsubperm.length_le.trans hlength, fun t ht => hall t (hsubperm.subset ht)⟩
  · dsimp only at hgrade' ⊢
    rw [hgrade'] at hgrade
    generalize standing.ownCeiling = own at *
    cases hgrade with
    | some hle => exact ⟨_, rfl, hle⟩

/-- The dependency ceilings of a graph of at most the admitted size:
every listed node is assessed, every assessment is exact, the listing
order plays no part, and no added dependency and no lowered ceiling
raises the ceiling of any node. -/
theorem ceilings_exact (nodes : List CeilingNode) (h : Admitted nodes) :
    (∀ node ∈ nodes, ∃ out, ceilingOf nodes node.target = some out)
      ∧ (∀ root out, ceilingOf nodes root = some out → Exact nodes root out)
      ∧ (∀ nodes', Relisted nodes nodes' →
          computeDependencyCeilings nodes' = computeDependencyCeilings nodes)
      ∧ ∀ nodes', List.Forall₂ Weakened nodes nodes' → ∀ root out' grade',
          ceilingOf nodes' root = some out' → out'.ceiling = some grade' →
          ∃ out grade, ceilingOf nodes root = some out ∧ out.ceiling = some grade
            ∧ grade'.rank ≤ grade.rank := by
  obtain ⟨targets, hgraph⟩ := h.graphTargets
  refine ⟨fun node hnode => ?_, fun root out hout => ceilingOf_exact h.1 hgraph hout,
    fun nodes' hrelisted => hrelisted.assessment, fun nodes' hweak root out' grade' hout' hgrade' => ?_⟩
  · exact ⟨_, by rw [ceilingOf_eq hgraph, if_pos ((graphTargets_closed hgraph).1 node hnode)]⟩
  · have hcomplete' := ceilingOf_graded hout' hgrade'
    obtain ⟨out, grade, grade'', hout, -, hgrade, hgrade'', hle⟩ :=
      ceiling_mono h (weaker_of_related (hweak.imp fun _ _ => Weakened.noStronger)) hout'
        hcomplete'
    rw [hgrade'] at hgrade''
    cases hgrade''
    exact ⟨out, grade, hout, hgrade, hle⟩

def certifiedStanding : PremiseStanding where
  complete := true
  disposition := some .corroborated
  reviewState := none
  stale := false
  latestVersion := some 1
  ownCeiling := some .certified

/-- A certified claim that rests on a citation and on a missing
reference. -/
def missingReference : List CeilingNode :=
  [{ target := "C-1@1", dependencies := some ["C-2@1", "C-3@1"], standing := certifiedStanding },
    { target := "C-2@1", dependencies := some []
      standing := { certifiedStanding with ownCeiling := some .citation } }]

theorem ceilings_exact_missing : Admitted missingReference ∧
    (∀ root out, ceilingOf missingReference root = some out → Exact missingReference root out) :=
  ⟨by decide +kernel, (ceilings_exact missingReference (by decide +kernel)).2.1⟩

end Asimposium
