import Mathlib.Data.Finset.Card
import Asimposium.Ledger.DependencyCeiling

/-!
# The graph behind the ceilings

What the look-ups of `DependencyCeiling` amount to: when a node passes
its own assessment (`LocallyComplete`), which edges are followed, which
targets make up the graph, and that every followed path consists of
exact targets, on which `comparePath` is the shortlex order.

`declared` are the dependencies as recorded. A walk along declared
dependencies either follows the edges of the source or meets a node
that is not locally complete on the way (`Walk.followed`).
-/

namespace Asimposium

open BreadthFirst Shortlex

/-! ## One node -/

/-- The node is usable as recorded: complete and fresh, the current
version, active and uncontested, with known and exact dependencies. -/
structure CeilingNode.Usable (node : CeilingNode) : Prop where
  complete : node.standing.complete = true
  fresh : node.standing.stale = false
  exact : exactTarget node.target = true
  active : ∃ disposition, node.standing.disposition = some disposition
    ∧ isInactive disposition = false ∧ disposition ≠ .disputed
  uncontested : node.standing.reviewState ≠ some .contested
  graded : node.standing.ownCeiling.isSome = true
  current : node.standing.latestVersion = some (targetVersion node.target : Int)
  known : ∃ dependencies, node.dependencies = some dependencies
    ∧ dependencies.length ≤ maxGraphNodes ∧ ∀ target ∈ dependencies, exactTarget target = true

def LocallyComplete (nodes : List CeilingNode) (target : String) : Prop :=
  ∃ node, nodes.filter (·.target == target) = [node] ∧ node.Usable

def ownCeiling (nodes : List CeilingNode) (target : String) : Option EvidenceClass :=
  (byTarget nodes target).bind (·.standing.ownCeiling)

/-- The dependencies recorded for the target, followed or not. -/
def declared (nodes : List CeilingNode) (target : String) : List String :=
  ((byTarget nodes target).bind (·.dependencies)).getD []

variable {target : String} {node : CeilingNode}

theorem byTarget_target {nodes : List CeilingNode} (h : byTarget nodes target = some node) :
    node.target = target := by
  have hmem := List.mem_of_getLast? h
  simpa using (List.mem_filter.mp hmem).2

theorem byTarget_mem {nodes : List CeilingNode} (h : byTarget nodes target = some node) :
    node ∈ nodes :=
  (List.mem_filter.mp (List.mem_of_getLast? h)).1

theorem isUnavailable_false {nodes : List CeilingNode} (hsize : nodes.length ≤ maxGraphNodes) :
    isUnavailable nodes node = false ↔
      isDuplicate nodes node.target = false ∧ node.standing.complete = true
        ∧ node.standing.stale = false ∧ node.standing.disposition.isSome = true
        ∧ node.standing.ownCeiling.isSome = true ∧ exactTarget node.target = true
        ∧ ∃ latest, node.standing.latestVersion = some latest ∧ isSafeInteger latest = true
          ∧ (targetVersion node.target : Int) ≤ latest := by
  unfold isUnavailable
  cases hlatest : node.standing.latestVersion with
  | none => simp
  | some latest =>
      simp only [Bool.or_eq_false_iff, decide_eq_false_iff_not, not_lt, Bool.not_eq_false',
        Option.isNone_eq_false_iff, hsize, and_true, Option.some.injEq, exists_eq_left',
        and_assoc]

theorem assessNode_complete {nodes : List CeilingNode} (hsize : nodes.length ≤ maxGraphNodes) :
    (assessNode nodes node).complete = true ↔
      isDuplicate nodes node.target = false ∧ node.Usable := by
  constructor
  · intro h
    unfold assessNode at h
    split at h
    · cases h
    rename_i havailable
    split at h
    · cases h
    rename_i hcurrent
    split at h
    · cases h
    rename_i hactive
    split at h
    · cases h
    rename_i huncontested
    split at h
    · cases h
    rename_i dependencies hdependencies
    split at h
    · cases h
    rename_i hknown
    obtain ⟨hunique, hcomplete, hfresh, hdisposition, hgraded, hexact, latest, hlatest, -, hle⟩ :=
      (isUnavailable_false hsize).mp (by simpa using havailable)
    obtain ⟨disposition, hdisposition⟩ := Option.isSome_iff_exists.mp hdisposition
    rw [hlatest] at hcurrent
    rw [hdisposition] at hactive huncontested
    simp only [Option.any_some, decide_eq_true_eq, not_lt] at hcurrent
    simp only [Bool.or_eq_true, beq_iff_eq, Option.some.injEq, not_or] at huncontested
    simp only [Bool.or_eq_true, decide_eq_true_eq, Bool.not_eq_true', not_or, not_lt,
      Bool.not_eq_false, List.all_eq_true] at hknown
    refine ⟨hunique, hcomplete, hfresh, hexact, ⟨disposition, hdisposition, ?_, huncontested.1⟩,
      huncontested.2, hgraded, ?_, dependencies, hdependencies, hknown⟩
    · simpa using hactive
    · rw [hlatest, le_antisymm hcurrent hle]
  · rintro ⟨hunique, h⟩
    obtain ⟨disposition, hdisposition, hactive, hdisputed⟩ := h.active
    obtain ⟨dependencies, hdependencies, hlength, hall⟩ := h.known
    have hsafe : isSafeInteger (targetVersion node.target) = true := by
      have hexact := h.exact
      simp only [exactTarget, Bool.and_eq_true] at hexact
      exact hexact.2
    have havailable : isUnavailable nodes node = false :=
      (isUnavailable_false hsize).mpr ⟨hunique, h.complete, h.fresh,
        Option.isSome_iff_exists.mpr ⟨_, hdisposition⟩, h.graded, h.exact, _, h.current, hsafe,
        le_rfl⟩
    have hknown : ¬(decide (maxGraphNodes < dependencies.length) || !dependencies.all exactTarget)
        = true := by
      simpa [hlength] using hall
    have hcurrent : ¬(node.standing.latestVersion.any
        fun latest : Int => targetVersion node.target < latest) = true := by
      simp [h.current]
    have hinactive : ¬node.standing.disposition.any isInactive = true := by
      simp [hdisposition, hactive]
    have hcontested : ¬(node.standing.disposition == some .disputed
        || node.standing.reviewState == some .contested) = true := by
      simp [hdisposition, hdisputed, h.uncontested]
    rw [assessNode, if_neg (by simp [havailable]), if_neg hcurrent, if_neg hinactive,
      if_neg hcontested, hdependencies]
    dsimp only
    rw [if_neg hknown]

theorem assessNode_ceiling (nodes : List CeilingNode) (node : CeilingNode) :
    ((assessNode nodes node).complete = true →
        (assessNode nodes node).ceiling = node.standing.ownCeiling
          ∧ (assessNode nodes node).reason = .weakestEvidence)
      ∧ ((assessNode nodes node).complete = false → (assessNode nodes node).ceiling = none)
      ∧ (assessNode nodes node).weakestPath = [node.target] := by
  unfold assessNode unknown
  repeat' split
  all_goals simp

theorem filter_eq_singleton {nodes : List CeilingNode} (h : byTarget nodes target = some node) :
    isDuplicate nodes target = false ↔ nodes.filter (·.target == target) = [node] := by
  unfold isDuplicate
  unfold byTarget at h
  cases hfilter : nodes.filter (·.target == target) with
  | nil => rw [hfilter] at h; cases h
  | cons first rest =>
      rw [hfilter] at h
      cases rest with
      | nil => simp_all
      | cons second rest => simp

/-! ## Every listed or referenced target -/

section Local

variable {nodes : List CeilingNode}

theorem assess_complete (hsize : nodes.length ≤ maxGraphNodes) (target : String) :
    (assess nodes target).complete = true ↔ LocallyComplete nodes target := by
  unfold assess LocallyComplete
  cases hnode : byTarget nodes target with
  | none =>
      simp only [unknown, Bool.false_eq_true, false_iff, not_exists, not_and]
      intro node hfilter
      rw [byTarget, hfilter] at hnode
      cases hnode
  | some node =>
      rw [assessNode_complete hsize, byTarget_target hnode, filter_eq_singleton hnode]
      constructor
      · rintro ⟨hfilter, husable⟩
        exact ⟨node, hfilter, husable⟩
      · rintro ⟨other, hfilter, husable⟩
        have hsame : other = node := by
          rw [byTarget, hfilter] at hnode
          simpa using hnode
        exact hsame ▸ ⟨hfilter, husable⟩

theorem assess_path (target : String) : (assess nodes target).weakestPath = [target] := by
  unfold assess
  cases hnode : byTarget nodes target with
  | none => rfl
  | some node =>
      dsimp only
      rw [(assessNode_ceiling nodes node).2.2, byTarget_target hnode]

theorem assess_ceiling (target : String) (h : (assess nodes target).complete = true) :
    (assess nodes target).ceiling = ownCeiling nodes target
      ∧ (assess nodes target).reason = .weakestEvidence := by
  unfold assess ownCeiling at *
  cases hnode : byTarget nodes target with
  | none => rw [hnode] at h; cases h
  | some node =>
      rw [hnode] at h
      exact (assessNode_ceiling nodes node).1 h

theorem assess_ceiling_none (target : String) (h : (assess nodes target).complete = false) :
    (assess nodes target).ceiling = none := by
  unfold assess at *
  cases hnode : byTarget nodes target with
  | none => rfl
  | some node =>
      rw [hnode] at h
      exact (assessNode_ceiling nodes node).2.1 h

variable {target : String}

theorem LocallyComplete.ownCeiling_isSome (h : LocallyComplete nodes target) :
    (ownCeiling nodes target).isSome = true := by
  obtain ⟨node, hfilter, husable⟩ := h
  have hnode : byTarget nodes target = some node := by rw [byTarget, hfilter]; rfl
  rw [ownCeiling, hnode]
  exact husable.graded

/-! ## Edges -/

theorem mem_sortTargets {targets : List String} :
    target ∈ sortTargets targets ↔ target ∈ targets := by
  rw [sortTargets, List.mem_insertionSort, List.mem_dedup]

theorem sortTargets_sorted (targets : List String) : (sortTargets targets).Pairwise (· < ·) := by
  have hsorted : (sortTargets targets).Pairwise (· ≤ ·) := List.pairwise_insertionSort _ _
  have hnodup : (sortTargets targets).Nodup :=
    (List.perm_insertionSort _ _).nodup_iff.mpr (List.nodup_dedup targets)
  exact hsorted.imp₂ (fun _ _ hle hne => lt_of_le_of_ne hle hne) hnodup

theorem mem_edgesOf (hsize : nodes.length ≤ maxGraphNodes) {child : String} :
    child ∈ edgesOf nodes target ↔ LocallyComplete nodes target ∧ child ∈ declared nodes target := by
  rw [← assess_complete hsize]
  unfold edgesOf assess declared
  cases hnode : byTarget nodes target with
  | none => simp
  | some node =>
      cases hcomplete : (assessNode nodes node).complete <;> simp [hcomplete, mem_sortTargets]

theorem edgesOf_sorted (target : String) : (edgesOf nodes target).Pairwise (· < ·) := by
  unfold edgesOf
  split
  · split
    · exact sortTargets_sorted _
    · exact .nil
  · exact .nil

theorem edge_exact (hsize : nodes.length ≤ maxGraphNodes) {child : String}
    (h : child ∈ edgesOf nodes target) : exactTarget target = true ∧ exactTarget child = true := by
  obtain ⟨⟨node, hfilter, husable⟩, hchild⟩ := (mem_edgesOf hsize).mp h
  have hnode : byTarget nodes target = some node := by rw [byTarget, hfilter]; rfl
  obtain ⟨dependencies, hdependencies, -, hall⟩ := husable.known
  rw [declared, hnode] at hchild
  simp only [Option.bind_some, hdependencies, Option.getD_some] at hchild
  exact ⟨byTarget_target hnode ▸ husable.exact, hall child hchild⟩

end Local

/-! ## Paths of exact targets -/

/-- Every character of every target is above the separator. -/
def Separable (path : List String) : Prop :=
  ∀ target ∈ path, ∀ c ∈ target.toList, '\x00' < c

theorem takeWhile_all {c : Char} {l : List Char} {keep : Char → Bool}
    (h : c ∈ l.takeWhile keep) : keep c = true :=
  List.all_eq_true.mp (List.all_takeWhile) c h

theorem exactTarget_separable (h : exactTarget target = true) :
    ∀ c ∈ target.toList, '\x00' < c := by
  have hdigit : ∀ c : Char, c.isDigit = true → '\x00' < c := by
    intro c hc
    simp only [Char.isDigit, Bool.and_eq_true, decide_eq_true_eq] at hc
    exact lt_of_lt_of_le (by decide) hc.1
  have hshape : (versionDigits target).isSome = true := by
    simp only [exactTarget, Bool.and_eq_true] at h
    exact h.1.2
  intro c hc
  unfold versionDigits at hshape
  split at hshape
  · rename_i rest hlist
    rw [hlist] at hc
    split at hshape
    · rename_i first digits version htake hdrop
      split at hshape
      · rename_i head tail
        split at hshape
        · rename_i hdigits
          simp only [Bool.and_eq_true, List.all_eq_true] at hdigits
          have hrest : rest = rest.takeWhile Char.isDigit ++ rest.dropWhile Char.isDigit :=
            List.takeWhile_append_dropWhile.symm
          rcases List.mem_cons.mp hc with rfl | hc
          · decide
          rcases List.mem_cons.mp hc with rfl | hc
          · decide
          rw [hrest] at hc
          rcases List.mem_append.mp hc with hc | hc
          · exact hdigit c (takeWhile_all hc)
          · rw [hdrop] at hc
            rcases List.mem_cons.mp hc with rfl | hc
            · decide
            · exact hdigit c (hdigits.2 c hc)
        · cases hshape
      · cases hshape
    · cases hshape
  · cases hshape

theorem comparePath_shortlex {left right : List String} (hleft : Separable left)
    (hright : Separable right) :
    (comparePath left right < 0 ↔ shortlex left < shortlex right)
      ∧ (comparePath left right ≤ 0 ↔ shortlex left ≤ shortlex right) := by
  rw [shortlex_lt, shortlex_le]
  unfold comparePath
  by_cases hlen : left.length = right.length
  · have hsep : "\x00" = String.singleton '\x00' := by decide
    have hlt := join_lt_iff hlen hleft hright
    have hgt := join_lt_iff hlen.symm hright hleft
    rw [if_neg (not_not.mpr hlen), hsep]
    dsimp only
    rcases lt_trichotomy left right with hcase | rfl | hcase
    · rw [if_pos (hlt.mpr hcase)]
      simp [hlen, hcase, hcase.le]
    · rw [if_neg (fun h => lt_irrefl _ (hlt.mp h)), if_neg (fun h => lt_irrefl _ (hlt.mp h))]
      simp
    · rw [if_neg (fun h => lt_asymm hcase (hlt.mp h)), if_pos (hgt.mpr hcase)]
      simp [hlen, hcase.not_gt, hcase.not_ge]
  · rw [if_pos hlen]
    constructor <;> omega

theorem Separable.append {p q : List String} (hp : Separable p) (hq : Separable q) :
    Separable (p ++ q) := by
  intro target htarget
  rcases List.mem_append.mp htarget with h | h
  · exact hp target h
  · exact hq target h

section Graph

variable {nodes : List CeilingNode} {root : String}

theorem walk_separable (hsize : nodes.length ≤ maxGraphNodes) (hroot : exactTarget root = true)
    {p : List String} {t : String} (h : Walk (edgesOf nodes) root p t) : Separable p := by
  have hsingle : ∀ {target}, exactTarget target = true → Separable [target] := by
    intro target hexact other hother
    rw [List.mem_singleton.mp hother]
    exact exactTarget_separable hexact
  induction h with
  | start => exact hsingle hroot
  | step _ hedge ih => exact ih.append (hsingle (edge_exact hsize hedge).2)

/-! ## Declared walks and followed walks -/

theorem walk_followed (hsize : nodes.length ≤ maxGraphNodes) {p : List String} {t : String}
    (h : Walk (declared nodes) root p t) :
    Walk (edgesOf nodes) root p t
      ∨ ∃ p' u, Walk (edgesOf nodes) root p' u ∧ ¬LocallyComplete nodes u
        ∧ p'.length < p.length := by
  induction h with
  | start => exact .inl .start
  | @step p u c _ hedge ih =>
      have hlen : (p ++ [c]).length = p.length + 1 := by simp
      rcases ih with hwalk | ⟨p', u', hwalk, hincomplete, hlt⟩
      · by_cases hlocal : LocallyComplete nodes u
        · exact .inl (hwalk.step ((mem_edgesOf hsize).mpr ⟨hlocal, hedge⟩))
        · exact .inr ⟨p, u, hwalk, hlocal, by omega⟩
      · exact .inr ⟨p', u', hwalk, hincomplete, by omega⟩

theorem edgesOf_subset (hsize : nodes.length ≤ maxGraphNodes) (target : String) :
    edgesOf nodes target ⊆ declared nodes target := fun _ hchild =>
  ((mem_edgesOf hsize).mp hchild).2

/-! ## The targets of the graph -/

theorem addReferences_spec {known references out : List String}
    (h : addReferences known references = some out) :
    ∀ target, target ∈ out ↔ target ∈ known ∨ target ∈ references := by
  induction references generalizing known with
  | nil => cases h; simp
  | cons reference rest ih =>
      unfold addReferences at h
      intro target
      split at h
      · rename_i hknown
        rw [ih h, List.mem_cons]
        constructor
        · tauto
        · rintro (hmem | rfl | hmem)
          · exact .inl hmem
          · exact .inl hknown
          · exact .inr hmem
      · split at h
        · cases h
        · rw [ih h, List.mem_append, List.mem_singleton, List.mem_cons]
          tauto

theorem addReferences_isSome {known references : List String} (hnodup : known.Nodup)
    (hfit : (known ++ references).toFinset.card ≤ maxGraphNodes) :
    (addReferences known references).isSome = true := by
  induction references generalizing known with
  | nil => rfl
  | cons reference rest ih =>
      unfold addReferences
      split
      · rename_i hknown
        refine ih hnodup (le_trans (Finset.card_le_card ?_) hfit)
        intro target
        simp only [List.mem_toFinset, List.mem_append, List.mem_cons]
        tauto
      · rename_i hnew
        have hnodup' : (known ++ [reference]).Nodup := by
          rw [List.nodup_append]
          exact ⟨hnodup, List.nodup_singleton _, fun a ha b hb heq =>
            hnew (List.mem_singleton.mp hb ▸ heq ▸ ha)⟩
        have hsame : known ++ [reference] ++ rest = known ++ reference :: rest := by simp
        split
        · rename_i hfull
          have hcount : (known ++ [reference]).toFinset.card ≤ maxGraphNodes := by
            refine le_trans (Finset.card_le_card ?_) hfit
            intro target
            simp only [List.mem_toFinset, List.mem_append, List.mem_cons]
            tauto
          rw [List.toFinset_card_of_nodup hnodup', List.length_append,
            List.length_singleton] at hcount
          omega
        · exact ih hnodup' (by rw [hsame]; exact hfit)

end Graph

/-- The graph has at most the admitted number of nodes, missing
references counted. -/
def Admitted (nodes : List CeilingNode) : Prop :=
  nodes.length ≤ maxGraphNodes
    ∧ (listedTargets nodes ++ (listedTargets nodes).flatMap (edgesOf nodes)).toFinset.card
      ≤ maxGraphNodes

instance (nodes : List CeilingNode) : Decidable (Admitted nodes) :=
  inferInstanceAs (Decidable (_ ∧ _))

theorem Admitted.graphTargets {nodes : List CeilingNode} (h : Admitted nodes) :
    ∃ targets, Asimposium.graphTargets nodes = some targets := by
  refine Option.isSome_iff_exists.mp (addReferences_isSome ?_ h.2)
  exact (sortTargets_sorted _).imp fun hlt => ne_of_lt hlt

theorem graphTargets_closed {nodes : List CeilingNode} {targets : List String}
    (h : graphTargets nodes = some targets) :
    (∀ node ∈ nodes, node.target ∈ targets)
      ∧ ∀ target child, child ∈ edgesOf nodes target → child ∈ targets := by
  have hmem := addReferences_spec h
  have hlisted : ∀ node ∈ nodes, node.target ∈ listedTargets nodes := fun node hnode =>
    mem_sortTargets.mpr (List.mem_map_of_mem hnode)
  refine ⟨fun node hnode => (hmem _).mpr (.inl (hlisted node hnode)), fun target child hchild => ?_⟩
  refine (hmem _).mpr (.inr (List.mem_flatMap.mpr ⟨target, ?_, hchild⟩))
  unfold edgesOf at hchild
  cases hnode : byTarget nodes target with
  | none => rw [hnode] at hchild; cases hchild
  | some node =>
      have hlisted := hlisted node (byTarget_mem hnode)
      rwa [byTarget_target hnode] at hlisted

end Asimposium
