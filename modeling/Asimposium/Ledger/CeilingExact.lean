import Mathlib
import Asimposium.Ledger.CeilingGraph

/-!
# The ceilings are exact

A target is complete when everything its declared dependencies reach is
locally complete and no cycle is reached; its ceiling is then the least
own ceiling in reach. Otherwise the reported path is the least one, in
shortlex order, that shows why: a path to a node that is not locally
complete, or a path that closes on itself.

The breadth-first paths are least walks (`BreadthFirst.search_spec`),
the best way back to a target is its least closed walk
(`cycleAt_spec`), and the fold over the candidates keeps a least one
for the key `ceilingKey` (`assessRoot_least`).
-/

namespace Asimposium

open BreadthFirst Shortlex

section Graph

variable {nodes : List CeilingNode} {targets : List String} {root : String}

theorem reach_targets (hgraph : graphTargets nodes = some targets) (hroot : root ∈ targets)
    {t : String} (h : Reach (edgesOf nodes) root t) : t ∈ targets :=
  h.induct hroot fun _ _ _ hedge => (graphTargets_closed hgraph).2 _ _ hedge

theorem pathsFrom_spec (hgraph : graphTargets nodes = some targets) (hroot : root ∈ targets) :
    (∀ reached ∈ pathsFrom nodes targets.length root,
        LeastWalk (edgesOf nodes) root reached.2 reached.1)
      ∧ ∀ t, Reach (edgesOf nodes) root t → ∃ p, (t, p) ∈ pathsFrom nodes targets.length root :=
  search_spec edgesOf_sorted (fun _ => reach_targets hgraph hroot) le_rfl

theorem cycleAt_spec (hsize : nodes.length ≤ maxGraphNodes)
    (hgraph : graphTargets nodes = some targets) (hroot : root ∈ targets) :
    match cycleAt nodes targets.length root with
    | none => ∀ q, ¬ClosedWalk (edgesOf nodes) root q
    | some best => ClosedWalk (edgesOf nodes) root best
        ∧ ∀ q, ClosedWalk (edgesOf nodes) root q → shortlex best ≤ shortlex q := by
  obtain ⟨hleast, hreach⟩ := pathsFrom_spec hgraph hroot
  generalize hcandidates : ((pathsFrom nodes targets.length root).filter fun reached =>
    (edgesOf nodes reached.1).contains root).map (fun reached => reached.2 ++ [root]) = candidates
  have hfold : cycleAt nodes targets.length root = candidates.foldl shorterPath none := by
    rw [← hcandidates, List.foldl_map, List.foldl_filter]
    rfl
  have hmem : ∀ q, q ∈ candidates ↔ ∃ reached ∈ pathsFrom nodes targets.length root,
      root ∈ edgesOf nodes reached.1 ∧ reached.2 ++ [root] = q := by
    intro q
    rw [← hcandidates]
    simp [List.mem_filter, and_assoc]
  have hclosed : ∀ q ∈ candidates, ClosedWalk (edgesOf nodes) root q := by
    intro q hq
    obtain ⟨reached, hreached, hedge, rfl⟩ := (hmem q).mp hq
    exact closedWalk_iff.mpr ⟨_, _, (hleast reached hreached).walk, hedge, rfl⟩
  have hseparable : ∀ q ∈ candidates, Separable q := by
    intro q hq
    obtain ⟨reached, hreached, hedge, rfl⟩ := (hmem q).mp hq
    exact walk_separable hsize (edge_exact hsize hedge).2 (hclosed _ hq).1
  have hbest : ∀ q, ClosedWalk (edgesOf nodes) root q →
      ∃ candidate ∈ candidates, shortlex candidate ≤ shortlex q := by
    intro q hq
    obtain ⟨p, u, hwalk, hedge, rfl⟩ := closedWalk_iff.mp hq
    obtain ⟨path, hpath⟩ := hreach u ⟨p, hwalk⟩
    exact ⟨path ++ [root], (hmem _).mpr ⟨(u, path), hpath, hedge, rfl⟩,
      shortlex_snoc_le root ((hleast _ hpath).least p hwalk)⟩
  have hfolded := foldl_least? shortlex shorterPath candidates (fun _ => rfl)
    (fun best hbest candidate hcandidate => by
      simp only [shorterPath, (comparePath_shortlex (hseparable candidate hcandidate)
        (hseparable best hbest)).1])
  rw [hfold]
  cases hresult : candidates.foldl shorterPath none with
  | none =>
      rw [hresult] at hfolded
      intro q hq
      obtain ⟨candidate, hcandidate, -⟩ := hbest q hq
      rw [show candidates = [] from hfolded] at hcandidate
      cases hcandidate
  | some best =>
      rw [hresult] at hfolded
      refine ⟨hclosed best hfolded.1, fun q hq => ?_⟩
      obtain ⟨candidate, hcandidate, hle⟩ := hbest q hq
      exact (hfolded.2 candidate hcandidate).trans hle

/-! ## The fold over the candidates -/

/-- Incomplete candidates come first, then the lower grade, then the
shorter path. -/
def ceilingKey (c : DependencyCeiling) : ℕ ×ₗ ℕ ×ₗ ℕ ×ₗ List String :=
  toLex (c.complete.toNat, toLex ((c.ceiling.map (·.rank)).getD 0, shortlex c.weakestPath))

/-- A candidate has a ceiling exactly when it is complete, and a path of
exact targets. -/
structure WellFormed (c : DependencyCeiling) : Prop where
  graded : c.complete = c.ceiling.isSome
  separable : Separable c.weakestPath

theorem consider_eq {result candidate : DependencyCeiling} (hresult : WellFormed result)
    (hcandidate : WellFormed candidate) :
    consider result candidate
      = if ceilingKey candidate < ceilingKey result then candidate else result := by
  have hpath := (comparePath_shortlex hcandidate.separable hresult.separable).1
  have hgrade := hcandidate.graded
  have hgrade' := hresult.graded
  unfold consider ceilingKey
  cases hc : candidate.ceiling <;> cases hr : result.ceiling <;> rw [hc] at hgrade <;>
    rw [hr] at hgrade' <;>
    simp [hgrade, hgrade', Prod.Lex.toLex_lt_toLex, hpath]

theorem ceilingKey_le_incomplete {result candidate : DependencyCeiling}
    (hresult : WellFormed result) (hcandidate : WellFormed candidate)
    (hincomplete : candidate.complete = false) (h : ceilingKey result ≤ ceilingKey candidate) :
    result.complete = false ∧ shortlex result.weakestPath ≤ shortlex candidate.weakestPath := by
  have hgrade := hresult.graded
  have hgrade' := hcandidate.graded
  rw [hincomplete] at hgrade'
  unfold ceilingKey at h
  cases hc : candidate.ceiling with
  | some grade => rw [hc] at hgrade'; cases hgrade'
  | none =>
      cases hr : result.ceiling with
      | some grade =>
          rw [hr] at hgrade
          simp [hgrade, hincomplete, Prod.Lex.toLex_le_toLex] at h
      | none =>
          rw [hr] at hgrade
          simpa [hgrade, hincomplete, hc, hr, Prod.Lex.toLex_le_toLex] using h

/-- What a reachable node offers as a candidate, with the path to it. -/
inductive Offer (nodes : List CeilingNode) (root : String) : DependencyCeiling → Prop
  | node {p : List String} {t : String} : LeastWalk (edgesOf nodes) root p t →
      Offer nodes root { assess nodes t with weakestPath := p }
  | cycle {p q : List String} {t : String} : LeastWalk (edgesOf nodes) root p t →
      ClosedWalk (edgesOf nodes) t q →
      Offer nodes root
        { complete := false, ceiling := none, weakestPath := p ++ q.drop 1
          reason := .dependencyCycle }

theorem Separable.drop {path : List String} (h : Separable path) (n : Nat) :
    Separable (path.drop n) := fun target htarget => h target (List.mem_of_mem_drop htarget)

theorem Offer.wellFormed (hsize : nodes.length ≤ maxGraphNodes) (hroot : exactTarget root = true)
    {c : DependencyCeiling} (h : Offer nodes root c) : WellFormed c := by
  cases h with
  | @node p t hleast =>
      refine ⟨?_, walk_separable hsize hroot hleast.walk⟩
      cases hcomplete : (assess nodes t).complete with
      | true =>
          have hgraded := ((assess_complete hsize t).mp hcomplete).ownCeiling_isSome
          rw [(assess_ceiling t hcomplete).1, hgraded]
      | false => rw [assess_ceiling_none t hcomplete, Option.isSome_none]
  | @cycle p q t hleast hclosed =>
      obtain ⟨-, u, -, hedge, -⟩ := closedWalk_iff.mp hclosed
      have hexact := (edge_exact hsize hedge).2
      exact ⟨rfl, (walk_separable hsize hroot hleast.walk).append
        ((walk_separable hsize hexact hclosed.1).drop 1)⟩

/-- The candidates are offers, and every reachable node and every
reachable cycle is represented among them. -/
theorem candidates_spec (hsize : nodes.length ≤ maxGraphNodes)
    (hgraph : graphTargets nodes = some targets) (hroot : root ∈ targets)
    {candidates : List DependencyCeiling}
    (hcandidates : (pathsFrom nodes targets.length root).flatMap (fun reached =>
      candidatesAt nodes targets.length reached.1 reached.2) = candidates) :
    (∀ c ∈ candidates, Offer nodes root c)
      ∧ (∀ p t, Walk (edgesOf nodes) root p t → ∃ p', shortlex p' ≤ shortlex p
        ∧ { assess nodes t with weakestPath := p' } ∈ candidates)
      ∧ ∀ p t q, Walk (edgesOf nodes) root p t → ClosedWalk (edgesOf nodes) t q →
        ∃ c ∈ candidates, c.complete = false
          ∧ shortlex c.weakestPath ≤ shortlex (p ++ q.drop 1) := by
  subst hcandidates
  obtain ⟨hleast, hreach⟩ := pathsFrom_spec hgraph hroot
  refine ⟨fun c hc => ?_, fun p t hwalk => ?_, fun p t q hwalk hclosed => ?_⟩
  · obtain ⟨reached, hreached, hc⟩ := List.mem_flatMap.mp hc
    have hpath := hleast reached hreached
    have hcycle := cycleAt_spec hsize hgraph (reach_targets hgraph hroot ⟨_, hpath.walk⟩)
    rcases List.mem_cons.mp hc with rfl | hc
    · exact .node hpath
    · cases hbest : cycleAt nodes targets.length reached.1 with
      | none => rw [hbest] at hc; cases hc
      | some best =>
          rw [hbest] at hc hcycle
          rw [List.mem_singleton.mp hc]
          exact .cycle hpath hcycle.1
  · obtain ⟨path, hpath⟩ := hreach t ⟨p, hwalk⟩
    exact ⟨path, (hleast _ hpath).least p hwalk,
      List.mem_flatMap.mpr ⟨_, hpath, List.mem_cons_self ..⟩⟩
  · obtain ⟨path, hpath⟩ := hreach t ⟨p, hwalk⟩
    have hcycle := cycleAt_spec hsize hgraph (reach_targets hgraph hroot ⟨p, hwalk⟩)
    cases hbest : cycleAt nodes targets.length t with
    | none =>
        rw [hbest] at hcycle
        exact absurd hclosed (hcycle q)
    | some best =>
        rw [hbest] at hcycle
        have hoffered : (⟨false, none, path ++ best.drop 1, .dependencyCycle⟩ : DependencyCeiling)
            ∈ candidatesAt nodes targets.length t path := by
          simp [candidatesAt, hbest]
        exact ⟨_, List.mem_flatMap.mpr ⟨_, hpath, hoffered⟩, rfl,
          shortlex_append_le ((hleast _ hpath).least p hwalk)
            (shortlex_drop_le hcycle.1.1.head hclosed.1.head (hcycle.2 q hclosed))⟩

theorem assessRoot_least (hsize : nodes.length ≤ maxGraphNodes)
    (hgraph : graphTargets nodes = some targets) (hroot : root ∈ targets)
    (hlocal : LocallyComplete nodes root) :
    Offer nodes root (assessRoot nodes targets.length root)
      ∧ (∀ p t, Walk (edgesOf nodes) root p t →
          ceilingKey (assessRoot nodes targets.length root)
            ≤ ceilingKey { assess nodes t with weakestPath := p })
      ∧ ∀ p t q, Walk (edgesOf nodes) root p t → ClosedWalk (edgesOf nodes) t q →
          (assessRoot nodes targets.length root).complete = false
            ∧ shortlex (assessRoot nodes targets.length root).weakestPath
              ≤ shortlex (p ++ q.drop 1) := by
  have hcomplete := (assess_complete hsize root).mpr hlocal
  have hexact : exactTarget root = true := by
    obtain ⟨node, hfilter, husable⟩ := hlocal
    have hnode : byTarget nodes root = some node := by rw [byTarget, hfilter]; rfl
    exact byTarget_target hnode ▸ husable.exact
  generalize hcandidates : (pathsFrom nodes targets.length root).flatMap (fun reached =>
    candidatesAt nodes targets.length reached.1 reached.2) = candidates
  obtain ⟨hoffers, hnodes, hcycles⟩ := candidates_spec hsize hgraph hroot hcandidates
  have hstart : Offer nodes root (assess nodes root) := by
    have hoffer := Offer.node (leastWalk_start (edgesOf nodes) root)
    rwa [← assess_path root] at hoffer
  have hall : ∀ c ∈ assess nodes root :: candidates, Offer nodes root c := by
    intro c hc
    rcases List.mem_cons.mp hc with rfl | hc
    · exact hstart
    · exact hoffers c hc
  have hfold : assessRoot nodes targets.length root
      = candidates.foldl consider (assess nodes root) := by
    rw [assessRoot, if_pos hcomplete, hcandidates]
  obtain ⟨hmem, hleast⟩ := foldl_least ceilingKey consider candidates (assess nodes root)
    fun a ha b hb => consider_eq ((hall a ha).wellFormed hsize hexact)
      ((hall b hb).wellFormed hsize hexact)
  rw [hfold]
  refine ⟨hall _ hmem, fun p t hwalk => ?_, fun p t q hwalk hclosed => ?_⟩
  · obtain ⟨p', hle, hcandidate⟩ := hnodes p t hwalk
    refine (hleast _ (List.mem_cons_of_mem _ hcandidate)).trans ?_
    simp [ceilingKey, Prod.Lex.toLex_le_toLex, hle]
  · obtain ⟨c, hcandidate, hincomplete, hle⟩ := hcycles p t q hwalk hclosed
    have hkey := hleast c (List.mem_cons_of_mem _ hcandidate)
    obtain ⟨hfalse, hpath⟩ := ceilingKey_le_incomplete
      ((hall _ hmem).wellFormed hsize hexact)
      ((hoffers c hcandidate).wellFormed hsize hexact) hincomplete hkey
    exact ⟨hfalse, hpath.trans hle⟩

end Graph

/-! ## What an assessment has to show -/

/-- The path shows why the root cannot be complete: it leads to a node
that is not locally complete, or it closes on itself. -/
inductive Blocks (nodes : List CeilingNode) (root : String) : List String → CeilingReason → Prop
  | node {p : List String} {t : String} : Walk (declared nodes) root p t →
      ¬LocallyComplete nodes t → Blocks nodes root p (assess nodes t).reason
  | cycle {p q : List String} {t : String} : Walk (declared nodes) root p t →
      ClosedWalk (declared nodes) t q → Blocks nodes root (p ++ q.drop 1) .dependencyCycle

def Limits (nodes : List CeilingNode) (root : String) (grade : EvidenceClass) (p : List String) :
    Prop :=
  ∃ t, Walk (declared nodes) root p t ∧ ownCeiling nodes t = some grade

/-- Everything in reach of the root is locally complete and on no
cycle. -/
def Sound (nodes : List CeilingNode) (root : String) : Prop :=
  ∀ t, Reach (declared nodes) root t →
    LocallyComplete nodes t ∧ ∀ q, ¬ClosedWalk (declared nodes) t q

structure Exact (nodes : List CeilingNode) (root : String) (out : DependencyCeiling) : Prop where
  complete_iff : out.complete = true ↔ Sound nodes root
  minimum : out.complete = true → ∃ grade, out.ceiling = some grade
    ∧ (∀ t other, Reach (declared nodes) root t → ownCeiling nodes t = some other →
        grade.rank ≤ other.rank)
    ∧ Limits nodes root grade out.weakestPath
    ∧ ∀ p, Limits nodes root grade p → shortlex out.weakestPath ≤ shortlex p
  blocked : out.complete = false → out.ceiling = none
    ∧ Blocks nodes root out.weakestPath out.reason
    ∧ ∀ p reason, Blocks nodes root p reason → shortlex out.weakestPath ≤ shortlex p

theorem Blocks.walk {nodes : List CeilingNode} {root : String} {p : List String}
    {reason : CeilingReason} (h : Blocks nodes root p reason) :
    ∃ t, Walk (declared nodes) root p t := by
  cases h with
  | node hwalk _ => exact ⟨_, hwalk⟩
  | cycle hwalk hclosed =>
      obtain ⟨rest, rfl⟩ := hclosed.1.head
      exact ⟨_, hwalk.append hclosed.1⟩

section Assess

variable {nodes : List CeilingNode} {targets : List String} {root : String}

theorem assess_exact (hsize : nodes.length ≤ maxGraphNodes) (hlocal : ¬LocallyComplete nodes root) :
    Exact nodes root (assess nodes root) := by
  have hincomplete : (assess nodes root).complete = false := by
    rw [← Bool.not_eq_true, assess_complete hsize]
    exact hlocal
  refine ⟨⟨fun h => ?_, fun h => ?_⟩, fun h => ?_, fun _ => ⟨?_, ?_, fun p reason hp => ?_⟩⟩
  · rw [hincomplete] at h; cases h
  · exact absurd (h root (.refl _ _)).1 hlocal
  · rw [hincomplete] at h; cases h
  · exact assess_ceiling_none root hincomplete
  · rw [assess_path]
    exact .node .start hlocal
  · obtain ⟨t, hwalk⟩ := hp.walk
    rw [assess_path]
    exact hwalk.start_le

theorem followed_of_sound (hsize : nodes.length ≤ maxGraphNodes)
    (hlocal : ∀ t, Reach (edgesOf nodes) root t → LocallyComplete nodes t) {p : List String}
    {t : String} (h : Walk (declared nodes) root p t) : Walk (edgesOf nodes) root p t := by
  rcases walk_followed hsize h with hwalk | ⟨p', u, hwalk, hincomplete, -⟩
  · exact hwalk
  · exact absurd (hlocal u ⟨p', hwalk⟩) hincomplete

/-- A blocking path is followed to its end, or a shorter followed path
ends in a node that is not locally complete. -/
theorem Blocks.followed (hsize : nodes.length ≤ maxGraphNodes) {p : List String}
    {reason : CeilingReason} (h : Blocks nodes root p reason) :
    (∃ t, Walk (edgesOf nodes) root p t ∧ ¬LocallyComplete nodes t)
      ∨ (∃ a t q, Walk (edgesOf nodes) root a t ∧ ClosedWalk (edgesOf nodes) t q
          ∧ p = a ++ q.drop 1)
      ∨ ∃ p' t, Walk (edgesOf nodes) root p' t ∧ ¬LocallyComplete nodes t
        ∧ p'.length < p.length := by
  cases h with
  | node hwalk hlocal =>
      rcases walk_followed hsize hwalk with hfollowed | hshorter
      · exact .inl ⟨_, hfollowed, hlocal⟩
      · exact .inr (.inr hshorter)
  | @cycle a q t hwalk hclosed =>
      rcases walk_followed hsize hwalk with hfollowed | ⟨p', u, hwalk', hlocal, hlt⟩
      · rcases walk_followed hsize hclosed.1 with hback | ⟨q', u, hback, hlocal, hlt⟩
        · exact .inr (.inl ⟨a, t, q, hfollowed, ⟨hback, hclosed.2⟩, rfl⟩)
        · obtain ⟨rest, rfl⟩ := hback.head
          refine .inr (.inr ⟨a ++ rest, u, hfollowed.append hback, hlocal, ?_⟩)
          simp only [List.length_append, List.length_drop, List.length_cons] at hlt ⊢
          omega
      · refine .inr (.inr ⟨p', u, hwalk', hlocal, ?_⟩)
        rw [List.length_append]
        omega

theorem assessRoot_exact (hsize : nodes.length ≤ maxGraphNodes)
    (hgraph : graphTargets nodes = some targets) (hroot : root ∈ targets)
    (hlocal : LocallyComplete nodes root) :
    Exact nodes root (assessRoot nodes targets.length root) := by
  obtain ⟨hoffer, hwalks, hcycles⟩ := assessRoot_least hsize hgraph hroot hlocal
  generalize assessRoot nodes targets.length root = out at hoffer hwalks hcycles
  have hexact : exactTarget root = true := by
    obtain ⟨node, hfilter, husable⟩ := hlocal
    have hnode : byTarget nodes root = some node := by rw [byTarget, hfilter]; rfl
    exact byTarget_target hnode ▸ husable.exact
  have hdeclared : ∀ {s p t}, Walk (edgesOf nodes) s p t → Walk (declared nodes) s p t :=
    fun h => h.mono (edgesOf_subset hsize)
  have hout := hoffer.wellFormed hsize hexact
  -- nothing followed to an incomplete node, when the outcome is complete
  have hlocals : out.complete = true → ∀ t, Reach (edgesOf nodes) root t →
      LocallyComplete nodes t := by
    rintro hcomplete t ⟨p, hwalk⟩
    rw [← assess_complete hsize]
    by_contra hincomplete
    rw [Bool.not_eq_true] at hincomplete
    have hcandidate : WellFormed { assess nodes t with weakestPath := p } :=
      ⟨by simp [hincomplete, assess_ceiling_none t hincomplete], walk_separable hsize hexact hwalk⟩
    have hkey := (ceilingKey_le_incomplete hout hcandidate hincomplete (hwalks p t hwalk)).1
    rw [hcomplete] at hkey
    cases hkey
  refine ⟨⟨fun hcomplete t hreach => ?_, fun hsound => ?_⟩, fun hcomplete => ?_,
    fun hincomplete => ?_⟩
  · obtain ⟨p, hwalk⟩ := hreach
    have hfollowed := followed_of_sound hsize (hlocals hcomplete) hwalk
    refine ⟨hlocals hcomplete t ⟨p, hfollowed⟩, fun q hclosed => ?_⟩
    have hback := followed_of_sound hsize
      (fun u hu => hlocals hcomplete u (.trans ⟨p, hfollowed⟩ hu)) hclosed.1
    rw [(hcycles p t q hfollowed ⟨hback, hclosed.2⟩).1] at hcomplete
    cases hcomplete
  · cases hoffer with
    | @node p t hleast =>
        exact (assess_complete hsize t).mpr (hsound t ⟨p, hdeclared hleast.walk⟩).1
    | @cycle p q t hleast hclosed =>
        exact absurd ⟨hdeclared hclosed.1, hclosed.2⟩
          ((hsound t ⟨p, hdeclared hleast.walk⟩).2 q)
  · have hfine := hlocals hcomplete
    clear hlocals
    cases hoffer with
    | @cycle p q t hleast hclosed => cases hcomplete
    | @node p t hleast =>
        replace hcomplete : (assess nodes t).complete = true := hcomplete
        have hceiling := (assess_ceiling t hcomplete).1
        have hgraded := (hfine t ⟨p, hleast.walk⟩).ownCeiling_isSome
        obtain ⟨grade, hgrade⟩ := Option.isSome_iff_exists.mp hgraded
        have hrank : ∀ {p' u other}, Walk (declared nodes) root p' u →
            ownCeiling nodes u = some other →
            grade.rank < other.rank ∨ grade.rank = other.rank ∧ shortlex p ≤ shortlex p' := by
          intro p' u other hwalk hother
          have hfollowed := followed_of_sound hsize hfine hwalk
          have hassessed := (assess_complete hsize u).mpr (hfine u ⟨p', hfollowed⟩)
          have hkey := hwalks p' u hfollowed
          simpa [ceilingKey, Prod.Lex.toLex_le_toLex, hcomplete, hassessed, hceiling, hgrade,
            (assess_ceiling u hassessed).1, hother] using hkey
        refine ⟨grade, hceiling.trans hgrade, fun u other hreach hother => ?_,
          ⟨t, hdeclared hleast.walk, hgrade⟩, fun p' hgraded => ?_⟩
        · obtain ⟨p', hwalk⟩ := hreach
          rcases hrank hwalk hother with hlt | ⟨heq, -⟩
          · exact hlt.le
          · exact heq.le
        · obtain ⟨u, hwalk, hother⟩ := hgraded
          rcases hrank hwalk hother with hlt | ⟨-, hle⟩
          · exact absurd hlt (lt_irrefl _)
          · exact hle
  · have hshown : ∀ {p' u}, Walk (edgesOf nodes) root p' u → ¬LocallyComplete nodes u →
        shortlex out.weakestPath ≤ shortlex p' := by
      intro p' u hwalk hu
      rw [← assess_complete hsize, Bool.not_eq_true] at hu
      have hcandidate : WellFormed { assess nodes u with weakestPath := p' } :=
        ⟨by simp [hu, assess_ceiling_none u hu], walk_separable hsize hexact hwalk⟩
      exact (ceilingKey_le_incomplete hout hcandidate hu (hwalks p' u hwalk)).2
    refine ⟨?_, ?_, fun p' reason hp => ?_⟩
    · rw [← Option.isNone_iff_eq_none, ← Option.not_isSome, ← hout.graded, hincomplete]
      rfl
    · cases hoffer with
      | @node p t hleast =>
          refine .node (hdeclared hleast.walk) ?_
          rw [← assess_complete hsize, Bool.not_eq_true]
          exact hincomplete
      | @cycle p q t hleast hclosed =>
          exact .cycle (hdeclared hleast.walk) ⟨hdeclared hclosed.1, hclosed.2⟩
    · rcases hp.followed hsize with ⟨u, hwalk, hu⟩ | ⟨a, u, q, hwalk, hclosed, rfl⟩
        | ⟨p'', u, hwalk, hu, hlt⟩
      · exact hshown hwalk hu
      · exact (hcycles a u q hwalk hclosed).2
      · exact (hshown hwalk hu).trans (shortlex_lt_of_length hlt).le

end Assess

end Asimposium
