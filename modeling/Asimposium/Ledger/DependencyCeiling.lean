import Mathlib.Data.List.Sort
import Asimposium.Ledger.Dispositions
import Asimposium.Lib.BreadthFirst

/-!
# Dependency ceilings

`computeDependencyCeilings` assesses every exact claim version of a
dependency graph: the weakest own ceiling in its reach, or the nearest
reason why none can be given, with a path that shows it. Each node is
first assessed on its own (`assess`); only nodes that pass get their
edges followed. The `Map`s of the source are look-ups here: `assess` and
`edgesOf` are functions of the listed nodes, in which the last entry of
a target wins and a repeated target is refused.
-/

namespace Asimposium

open BreadthFirst

inductive EvidenceClass where
  | assertion
  | heuristic
  | citation
  | computation
  | certified
deriving Repr, DecidableEq

/-- `CLASS_RANK`. -/
def EvidenceClass.rank : EvidenceClass → Nat
  | assertion => 0
  | heuristic => 1
  | citation => 2
  | computation => 3
  | certified => 4

structure PremiseStanding where
  /-- All status-bearing inputs were read, verified and folded at this cut. -/
  complete : Bool
  disposition : Option ClaimDisposition
  reviewState : Option ReviewStateFacet
  stale : Bool
  latestVersion : Option Int
  /-- Minimum class of the eligible supporting evidence. -/
  ownCeiling : Option EvidenceClass
deriving Repr, DecidableEq

structure CeilingNode where
  target : String
  /-- `none` is unknown history, never an empty dependency list. -/
  dependencies : Option (List String)
  standing : PremiseStanding
deriving Repr, DecidableEq

inductive CeilingReason where
  | weakestEvidence
  | sourceUnavailable
  | dependencyHistoryUnavailable
  | dependencyCycle
  | premiseNotCurrent
  | premiseContested
  | premiseInactive
deriving Repr, DecidableEq

structure DependencyCeiling where
  complete : Bool
  ceiling : Option EvidenceClass
  /-- One deterministic shortest path to a limiting or unavailable premise. -/
  weakestPath : List String
  reason : CeilingReason
deriving Repr, DecidableEq

def maxGraphNodes : Nat := 64
def maxTargetCharacters : Nat := 64

/-! ## Exact targets -/

/-- The version digits of a target of the shape
`^C-[0-9]+@[1-9][0-9]*$`. -/
def versionDigits (target : String) : Option (List Char) :=
  match target.toList with
  | 'C' :: '-' :: rest =>
      match rest.takeWhile Char.isDigit, rest.dropWhile Char.isDigit with
      | _ :: _, '@' :: digits =>
          match digits with
          | first :: _ =>
              if first ≠ '0' && digits.all Char.isDigit then some digits else none
          | [] => none
      | _, _ => none
  | _ => none

/-- `Number(target.split("@")[1])`, which the callers only use on exact
targets. -/
def targetVersion (target : String) : Nat :=
  digitsValue ((versionDigits target).getD [])

def exactTarget (target : String) : Bool :=
  target.length ≤ maxTargetCharacters && (versionDigits target).isSome
    && isSafeInteger (targetVersion target)

/-! ## Paths -/

/-- `INACTIVE`. -/
def isInactive (disposition : ClaimDisposition) : Bool :=
  [.draft, .malformed, .refuted, .withdrawn, .superseded].contains disposition

def comparePath (left right : List String) : Int :=
  if left.length ≠ right.length then left.length - right.length
  else
    let l := String.intercalate "\x00" left
    let r := String.intercalate "\x00" right
    if l < r then -1 else if r < l then 1 else 0

/-! ## One node on its own -/

/-- `byTarget.get(target)`. -/
def byTarget (nodes : List CeilingNode) (target : String) : Option CeilingNode :=
  (nodes.filter (·.target == target)).getLast?

/-- `duplicates.has(target)`. -/
def isDuplicate (nodes : List CeilingNode) (target : String) : Bool :=
  1 < (nodes.filter (·.target == target)).length

def unknown (target : String) (reason : CeilingReason) : DependencyCeiling where
  complete := false
  ceiling := none
  weakestPath := [target]
  reason := reason

def isUnavailable (nodes : List CeilingNode) (node : CeilingNode) : Bool :=
  isDuplicate nodes node.target || maxGraphNodes < nodes.length
    || !node.standing.complete || node.standing.stale
    || node.standing.disposition.isNone || node.standing.ownCeiling.isNone
    || !exactTarget node.target
    || (match node.standing.latestVersion with
        | none => true
        | some latest => !isSafeInteger latest || latest < targetVersion node.target)

def assessNode (nodes : List CeilingNode) (node : CeilingNode) : DependencyCeiling :=
  if isUnavailable nodes node then unknown node.target .sourceUnavailable
  else if node.standing.latestVersion.any (fun latest : Int => targetVersion node.target < latest) then
    unknown node.target .premiseNotCurrent
  else if node.standing.disposition.any isInactive then unknown node.target .premiseInactive
  else if node.standing.disposition == some .disputed
      || node.standing.reviewState == some .contested then
    unknown node.target .premiseContested
  else match node.dependencies with
    | none => unknown node.target .dependencyHistoryUnavailable
    | some dependencies =>
        if maxGraphNodes < dependencies.length || !dependencies.all exactTarget then
          unknown node.target .sourceUnavailable
        else
          { complete := true
            ceiling := node.standing.ownCeiling
            weakestPath := [node.target]
            reason := .weakestEvidence }

/-- `local.get(target)`; a target that is only referred to is unknown. -/
def assess (nodes : List CeilingNode) (target : String) : DependencyCeiling :=
  match byTarget nodes target with
  | some node => assessNode nodes node
  | none => unknown target .sourceUnavailable

/-- `[...new Set(dependencies)].sort()`. -/
def sortTargets (targets : List String) : List String :=
  targets.dedup.insertionSort (· ≤ ·)

/-- `edges.get(target) ?? []`: only a complete node has edges. -/
def edgesOf (nodes : List CeilingNode) (target : String) : List String :=
  match byTarget nodes target with
  | some node =>
      if (assessNode nodes node).complete then sortTargets (node.dependencies.getD []) else []
  | none => []

/-! ## The graph -/

def listedTargets (nodes : List CeilingNode) : List String :=
  sortTargets (nodes.map (·.target))

def addReferences : List String → List String → Option (List String)
  | known, [] => some known
  | known, target :: rest =>
      if target ∈ known then addReferences known rest
      else if maxGraphNodes ≤ known.length then none
      else addReferences (known ++ [target]) rest

/-- The keys of `local`, when they fit. -/
def graphTargets (nodes : List CeilingNode) : Option (List String) :=
  addReferences (listedTargets nodes) ((listedTargets nodes).flatMap (edgesOf nodes))

/-- `pathsFrom`: the queue holds at most every target of the graph. -/
def pathsFrom (nodes : List CeilingNode) (fuel : Nat) (root : String) :
    List (String × List String) :=
  search (edgesOf nodes) fuel 0 [(root, [root])]

def shorterPath (current : Option (List String)) (candidate : List String) :
    Option (List String) :=
  match current with
  | none => some candidate
  | some best => if comparePath candidate best < 0 then some candidate else current

/-- `cycles.get(root)`: the best way back to the root over the paths
from it. -/
def cycleAt (nodes : List CeilingNode) (fuel : Nat) (root : String) : Option (List String) :=
  (pathsFrom nodes fuel root).foldl (fun current reached =>
    if (edgesOf nodes reached.1).contains root then shorterPath current (reached.2 ++ [root])
    else current) none

def consider (result candidate : DependencyCeiling) : DependencyCeiling :=
  if !candidate.complete then
    if result.complete || comparePath candidate.weakestPath result.weakestPath < 0 then candidate
    else result
  else
    match result.complete, candidate.ceiling, result.ceiling with
    | true, some candidateClass, some resultClass =>
        if candidateClass.rank < resultClass.rank
            || (candidateClass.rank == resultClass.rank
              && comparePath candidate.weakestPath result.weakestPath < 0) then candidate
        else result
    | _, _, _ => result

def candidatesAt (nodes : List CeilingNode) (fuel : Nat) (target : String) (path : List String) :
    List DependencyCeiling :=
  { assess nodes target with weakestPath := path }
    :: match cycleAt nodes fuel target with
      | some cycle =>
          [{ complete := false, ceiling := none, weakestPath := path ++ cycle.drop 1
             reason := .dependencyCycle }]
      | none => []

/-- The body of the loop over the roots. Only a target with edges has
paths from it; for the others the path to themselves adds nothing. -/
def assessRoot (nodes : List CeilingNode) (fuel : Nat) (root : String) : DependencyCeiling :=
  if (assess nodes root).complete then
    ((pathsFrom nodes fuel root).flatMap fun reached =>
      candidatesAt nodes fuel reached.1 reached.2).foldl consider (assess nodes root)
  else assess nodes root

/-- The assessment of every target of the graph. A truncated graph is
never called complete. -/
def computeDependencyCeilings (nodes : List CeilingNode) : List (String × DependencyCeiling) :=
  match graphTargets nodes with
  | none => (listedTargets nodes).map fun root => (root, unknown root .sourceUnavailable)
  | some targets =>
      (sortTargets targets).map fun root => (root, assessRoot nodes targets.length root)

/-- `computeDependencyCeilings(nodes).get(target)`. -/
def ceilingOf (nodes : List CeilingNode) (target : String) : Option DependencyCeiling :=
  (computeDependencyCeilings nodes).lookup target

end Asimposium
