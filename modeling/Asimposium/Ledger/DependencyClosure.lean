import Mathlib
import Asimposium.Ledger.Payload
import Asimposium.Lib.GuardedSearch
import Asimposium.Lib.Related

/-!
# The closure of recorded premises

`composeDependencyClosure` checks the rows of a claim's publications and
walks the premises they pin, breadth first from the root. A pin is
followed when its target is a verified publication with the recorded
digests, older than the claim that pins it, and of an identity that is
not on the path to that claim. Everything else makes the closure
incomplete.

The walk of the source appends to `output` for every node of its queue
what that node alone determines; here the queue is computed first
(`walk`) and the output read off it (`closureOf`). The recursive SQL
that selects the rows is not modelled: the rows are its result.
-/

namespace Asimposium

def dependencyClosureLimit : Nat := 64
def dependencySourceBytes : Nat := 65536
def dependencyTotalBytes : Nat := 262144

/-- A row of the SQL result, without the columns that are only passed
through to the reader (`fellow`, `sponsor`, `session`, the model and
harness strings, `ordinal`). -/
structure DependencyClosureRow where
  eventId : String
  problemId : String
  claimId : String
  version : Int
  type : EventType
  seq : Int
  payloadSha256 : String
  contentDigest : Option String
  payloadJson : Option String
deriving DecidableEq

structure VerifiedClaim where
  row : DependencyClosureRow
  statement : String
  falsifier : Option String
  kind : Option String
  /-- `none` is unknown history. -/
  pins : Option (List ClaimDependencyPin)
deriving DecidableEq

def VerifiedClaim.eventId (claim : VerifiedClaim) : String := claim.row.eventId

def VerifiedClaim.target (claim : VerifiedClaim) : String :=
  exactVersion claim.row.claimId claim.row.version

structure DependencyClosureNode extends VerifiedClaim where
  depth : Nat
  /-- One deterministic shortest path, not every path through a diamond. -/
  path : List String
deriving DecidableEq

structure DependencyEdge where
  source : String
  target : String
  available : Bool
deriving Repr, DecidableEq

structure DependencyClosure where
  rootAvailable : Bool
  complete : Bool
  nodes : List DependencyClosureNode
  edges : List DependencyEdge
  unavailable : List String
deriving DecidableEq

/-! ## Verification of the rows -/

/-- The version and the base version of a publication of this type. -/
def versionMatches (row : DependencyClosureRow) (payload : Payload) : Bool :=
  if row.type = .claimCreated then row.version == 1
  else row.type == .claimRevised && 2 ≤ row.version
    && payload.baseVersion == some (row.version - 1)

def payloadMatches (row : DependencyClosureRow) (payload : Payload) : Bool :=
  payload.claimId == some row.claimId && payload.statement.any (!isBlank ·)
    && isSafeInteger row.version && 1 ≤ row.version && isSafeInteger row.seq && 1 ≤ row.seq
    && isClaimId row.claimId && row.contentDigest.any (· ≠ "") && versionMatches row payload

def verifyPayload (row : DependencyClosureRow) (payload : Payload) : Option VerifiedClaim :=
  if payloadMatches row payload then
    some
      { row, statement := payload.statement.getD "", falsifier := payload.falsifier
        kind := payload.kind
        pins := payload.dependencyPins.toOption.filter fun pins =>
          !pins.any (·.claimId == row.claimId) }
  else none

/-- One row: the bytes read so far and the verified publication. -/
def verifyRow (reader : PayloadReader) (problem : String) (bytes : Nat)
    (row : DependencyClosureRow) : Nat × Option VerifiedClaim :=
  match row.payloadJson with
  | none => (bytes, none)
  | some json =>
      if row.problemId ≠ problem || dependencySourceBytes < utf16Length json then (bytes, none)
      else
        let total := bytes + json.utf8ByteSize
        if dependencySourceBytes < json.utf8ByteSize || dependencyTotalBytes < total then
          (total, none)
        else if reader.sha256 json ≠ row.payloadSha256 then (total, none)
        else (total, (reader.parse json).bind (verifyPayload row))

def verifyRows (reader : PayloadReader) (problem : String) :
    Nat → List DependencyClosureRow → List VerifiedClaim
  | _, [] => []
  | bytes, row :: rest =>
      let (total, claim) := verifyRow reader problem bytes row
      claim.toList ++ verifyRows reader problem total rest

theorem verifyRows_inv {reader : PayloadReader} {problem : String} {bytes : Nat}
    {rows : List DependencyClosureRow} {claim : VerifiedClaim}
    (h : claim ∈ verifyRows reader problem bytes rows) :
    claim.row ∈ rows ∧ claim.row.problemId = problem ∧ ∃ json payload,
      claim.row.payloadJson = some json ∧ reader.sha256 json = claim.row.payloadSha256
        ∧ reader.parse json = some payload ∧ verifyPayload claim.row payload = some claim := by
  induction rows generalizing bytes with
  | nil => cases h
  | cons row rows ih =>
      rw [verifyRows] at h
      rcases List.mem_append.mp h with h | h
      · have hclaim : (verifyRow reader problem bytes row).2 = some claim := Option.mem_toList.mp h
        unfold verifyRow at hclaim
        cases hjson : row.payloadJson with
        | none => rw [hjson] at hclaim; cases hclaim
        | some json =>
            rw [hjson] at hclaim
            dsimp only at hclaim
            by_cases hskip : row.problemId ≠ problem || dependencySourceBytes < utf16Length json
            · rw [if_pos hskip] at hclaim
              cases hclaim
            rw [if_neg hskip] at hclaim
            have hproblem : row.problemId = problem := by
              by_contra hother
              exact hskip (by simp [hother])
            split_ifs at hclaim with hsize hdigest
            obtain ⟨payload, hparse, hverified⟩ := Option.bind_eq_some_iff.mp hclaim
            have hrow : claim.row = row := by
              unfold verifyPayload at hverified
              split_ifs at hverified
              cases hverified
              rfl
            rw [hrow]
            exact ⟨List.mem_cons_self .., hproblem, json, payload, hjson, not_not.mp hdigest,
              hparse, hverified⟩
      · obtain ⟨hrow, hrest⟩ := ih h
        exact ⟨List.mem_cons_of_mem _ hrow, hrest⟩

def DependencyClosureRow.bytes (row : DependencyClosureRow) : Nat :=
  (row.payloadJson.map String.utf8ByteSize).getD 0

theorem verifyRows_eq {reader : PayloadReader} {problem : String} {bytes : Nat}
    {rows : List DependencyClosureRow}
    (htotal : bytes + (rows.map (·.bytes)).sum ≤ dependencyTotalBytes)
    (h : ∀ row ∈ rows, row.problemId = problem ∧ ∃ json, row.payloadJson = some json
      ∧ json.utf8ByteSize ≤ dependencySourceBytes ∧ reader.sha256 json = row.payloadSha256) :
    verifyRows reader problem bytes rows = rows.flatMap fun row =>
      ((row.payloadJson.bind reader.parse).bind (verifyPayload row)).toList := by
  induction rows generalizing bytes with
  | nil => rfl
  | cons row rest ih =>
      obtain ⟨hproblem, json, hjson, hsize, hdigest⟩ := h row (List.mem_cons_self ..)
      have hunits := (utf16Length_le json).trans hsize
      have hbytes : row.bytes = json.utf8ByteSize := by rw [DependencyClosureRow.bytes, hjson]; rfl
      rw [List.map_cons, List.sum_cons, hbytes] at htotal
      have hrow : verifyRow reader problem bytes row
          = (bytes + json.utf8ByteSize, (reader.parse json).bind (verifyPayload row)) := by
        have hfits : bytes + json.utf8ByteSize ≤ dependencyTotalBytes := by omega
        rw [verifyRow, hjson]
        simp [hproblem, hunits.not_gt, hsize.not_gt, hfits.not_gt, hdigest]
      rw [verifyRows, hrow, List.flatMap_cons, hjson, Option.bind_some]
      dsimp only
      rw [ih (by omega) fun other hother => h other (List.mem_cons_of_mem _ hother)]

theorem verifyRows_read {reader : PayloadReader} {problem : String} {bytes : Nat}
    {rows : List DependencyClosureRow} (bound : Nat) (hbound : bound ≤ dependencySourceBytes)
    (htotal : bytes + rows.length * bound ≤ dependencyTotalBytes)
    (h : ∀ row ∈ rows, row.problemId = problem ∧ ∃ json, row.payloadJson = some json
      ∧ json.utf8ByteSize ≤ bound ∧ reader.sha256 json = row.payloadSha256) :
    verifyRows reader problem bytes rows = rows.flatMap fun row =>
      ((row.payloadJson.bind reader.parse).bind (verifyPayload row)).toList := by
  refine verifyRows_eq ?_ fun row hrow => ?_
  · have hsum : (rows.map (·.bytes)).sum ≤ (rows.map (·.bytes)).length * bound := by
      refine List.sum_le_card_nsmul _ _ fun n hn => ?_
      obtain ⟨row, hrow, rfl⟩ := List.mem_map.mp hn
      obtain ⟨-, json, hjson, hsize, -⟩ := h row hrow
      rw [DependencyClosureRow.bytes, hjson]
      exact hsize
    rw [List.length_map] at hsum
    omega
  · obtain ⟨hproblem, json, hjson, hsize, hdigest⟩ := h row hrow
    exact ⟨hproblem, json, hjson, hsize.trans hbound, hdigest⟩

/-- The map `verified`, without the events listed twice. -/
def verifiedClaims (reader : PayloadReader) (problem : String) (rows : List DependencyClosureRow) :
    List VerifiedClaim :=
  let admitted := rows.take dependencyClosureLimit
  (verifyRows reader problem 0 admitted).filter fun claim =>
    (admitted.filter (·.eventId == claim.eventId)).length == 1

/-- `verified.get(event_id)`. -/
def verifiedGet (verified : List VerifiedClaim) (eventId : String) : Option VerifiedClaim :=
  verified.find? (·.eventId == eventId)

/-! ## The walk -/

def isAvailable (verified : List VerifiedClaim) (node : DependencyClosureNode)
    (pin : ClaimDependencyPin) : Bool :=
  match verifiedGet verified pin.eventId with
  | none => false
  | some child =>
      child.target == pin.target && child.row.payloadSha256 == pin.payloadDigest
        && child.row.contentDigest == some pin.contentDigest
        && child.row.seq < node.row.seq
        && !node.path.any fun step => identityOf step == pin.claimId

def visitPin (verified : List VerifiedClaim) (node : DependencyClosureNode)
    (queue : List DependencyClosureNode) (pin : ClaimDependencyPin) :
    List DependencyClosureNode :=
  match verifiedGet verified pin.eventId with
  | none => queue
  | some child =>
      if isAvailable verified node pin && !queue.any (·.eventId == pin.eventId) then
        queue ++ [{ child with depth := node.depth + 1, path := node.path ++ [pin.target] }]
      else queue

def visitNode (verified : List VerifiedClaim) (queue : List DependencyClosureNode)
    (node : DependencyClosureNode) : List DependencyClosureNode :=
  (node.pins.getD []).foldl (visitPin verified node) queue

/-- The queue, processed from the index on. It holds every verified
publication at most once. -/
def walk (verified : List VerifiedClaim) : Nat → Nat → List DependencyClosureNode →
    List DependencyClosureNode
  | 0, _, queue => queue
  | fuel + 1, index, queue =>
      match queue[index]? with
      | none => queue
      | some node => walk verified fuel (index + 1) (visitNode verified queue node)

/-- The node is no reason to call the closure incomplete. -/
def isComplete (verified : List VerifiedClaim) (node : DependencyClosureNode) : Bool :=
  match node.pins with
  | none => false
  | some pins => pins.all (isAvailable verified node)

def edgesFrom (verified : List VerifiedClaim) (node : DependencyClosureNode) :
    List DependencyEdge :=
  (node.pins.getD []).map fun pin =>
    { source := node.target, target := pin.target, available := isAvailable verified node pin }

def unavailableFrom (verified : List VerifiedClaim) (node : DependencyClosureNode) : List String :=
  match node.pins with
  | none => [node.target]
  | some pins => (pins.filter (!isAvailable verified node ·)).map (·.target)

/-- The closure of a root over the verified publications. -/
def closureOf (verified : List VerifiedClaim) (withinLimit : Bool) (root : Option String)
    (target : String) : DependencyClosure :=
  match (root.bind (verifiedGet verified)).filter (·.target == target) with
  | none =>
      { rootAvailable := false, complete := false, nodes := [], edges := []
        unavailable := [target] }
  | some claim =>
      let queue := walk verified verified.length 0 [{ claim with depth := 0, path := [target] }]
      { rootAvailable := true
        complete := withinLimit && queue.all (isComplete verified)
        nodes := queue.filter (0 < ·.depth)
        edges := queue.flatMap (edgesFrom verified)
        unavailable := (queue.flatMap (unavailableFrom verified)).eraseDups }

def composeDependencyClosure (reader : PayloadReader) (rows : List DependencyClosureRow)
    (problem target : String) : DependencyClosure :=
  closureOf (verifiedClaims reader problem rows) (rows.length ≤ dependencyClosureLimit)
    (rows.head?.map (·.eventId)) target

end Asimposium

/-!
## The walk is a guarded search

The queue of `walk` is the queue of a guarded breadth-first search over
event ids: the children of an event are its sound pins (`soundPins`),
those that pass every check but the one on the path, and the label of an
event is the identity of its claim (`labelOf`). An entry of the search
and a node of the walk correspond by `Matches`.

What the closure reports is then read off the search (`edges_iff`,
`members_iff`, `unavailable_iff`, `complete_iff`).
-/

namespace Asimposium

open GuardedSearch

/-! ## Sound pins -/

def isSound (verified : List VerifiedClaim) (claim : VerifiedClaim) (pin : ClaimDependencyPin) :
    Bool :=
  match verifiedGet verified pin.eventId with
  | none => false
  | some child =>
      child.target == pin.target && child.row.payloadSha256 == pin.payloadDigest
        && child.row.contentDigest == some pin.contentDigest
        && child.row.seq < claim.row.seq

/-- The publications an event pins soundly, in the order of its pins. -/
def soundPins (verified : List VerifiedClaim) (eventId : String) : List String :=
  match verifiedGet verified eventId with
  | none => []
  | some claim => ((claim.pins.getD []).filter (isSound verified claim)).map (·.eventId)

def targetOf (verified : List VerifiedClaim) (eventId : String) : String :=
  ((verifiedGet verified eventId).map (·.target)).getD ""

def labelOf (verified : List VerifiedClaim) (eventId : String) : String :=
  identityOf (targetOf verified eventId)

structure Matches (verified : List VerifiedClaim) (entry : String × List String)
    (node : DependencyClosureNode) : Prop where
  claim : verifiedGet verified entry.1 = some node.toVerifiedClaim
  depth : node.depth + 1 = entry.2.length
  path : node.path = entry.2.map (targetOf verified)

section Walk

variable {verified : List VerifiedClaim}

theorem verifiedGet_eventId {eventId : String} {claim : VerifiedClaim}
    (h : verifiedGet verified eventId = some claim) : claim.eventId = eventId := by
  simpa using List.find?_some h

theorem verifiedGet_mem {eventId : String} {claim : VerifiedClaim}
    (h : verifiedGet verified eventId = some claim) : claim ∈ verified :=
  List.mem_of_find?_eq_some h

theorem targetOf_get {eventId : String} {claim : VerifiedClaim}
    (h : verifiedGet verified eventId = some claim) : targetOf verified eventId = claim.target := by
  rw [targetOf, h]
  rfl

theorem isSound_target {claim : VerifiedClaim} {pin : ClaimDependencyPin}
    (h : isSound verified claim pin = true) :
    targetOf verified pin.eventId = pin.target ∧ labelOf verified pin.eventId = pin.claimId
      ∧ ∃ child, verifiedGet verified pin.eventId = some child := by
  unfold isSound at h
  cases hchild : verifiedGet verified pin.eventId with
  | none => rw [hchild] at h; cases h
  | some child =>
      rw [hchild] at h
      simp only [Bool.and_eq_true, beq_iff_eq] at h
      have htarget : targetOf verified pin.eventId = pin.target :=
        (targetOf_get hchild).trans h.1.1.1
      refine ⟨htarget, ?_, child, rfl⟩
      rw [labelOf, htarget, ClaimDependencyPin.target, identityOf_exactVersion pin.shape]

theorem mem_soundPins {eventId child : String} :
    child ∈ soundPins verified eventId ↔ ∃ claim, verifiedGet verified eventId = some claim
      ∧ ∃ pin ∈ claim.pins.getD [], isSound verified claim pin = true ∧ pin.eventId = child := by
  unfold soundPins
  cases hclaim : verifiedGet verified eventId with
  | none => simp
  | some claim => simp [List.mem_filter, and_assoc]

theorem Matches.eventId {entry : String × List String} {node : DependencyClosureNode}
    (h : Matches verified entry node) : node.eventId = entry.1 := verifiedGet_eventId h.claim

theorem Matches.target {entry : String × List String} {node : DependencyClosureNode}
    (h : Matches verified entry node) : node.target = targetOf verified entry.1 :=
  (targetOf_get h.claim).symm

theorem isAvailable_eq {entry : String × List String} {node : DependencyClosureNode}
    (h : Matches verified entry node) (pin : ClaimDependencyPin) :
    isAvailable verified node pin = true ↔ isSound verified node.toVerifiedClaim pin = true
      ∧ pin.claimId ∉ entry.2.map (labelOf verified) := by
  have hpath : (node.path.any fun step => identityOf step == pin.claimId) = true
      ↔ pin.claimId ∈ entry.2.map (labelOf verified) := by
    rw [h.path]
    simp only [List.any_map, List.any_eq_true, Function.comp_apply, beq_iff_eq, List.mem_map,
      labelOf]
  rw [← hpath]
  unfold isAvailable isSound
  cases verifiedGet verified pin.eventId with
  | none => simp
  | some child => simp [and_assoc]

theorem matches_known {entries : List (String × List String)} {nodes : List DependencyClosureNode}
    (h : List.Forall₂ (Matches verified) entries nodes) (eventId : String) :
    (nodes.any (·.eventId == eventId)) = true ↔ eventId ∈ entries.map (·.1) := by
  induction h with
  | nil => simp
  | cons hhead _ ih =>
      rw [List.any_cons, Bool.or_eq_true, ih, List.map_cons, List.mem_cons, beq_iff_eq,
        hhead.eventId]
      constructor
      · rintro (heq | hmem)
        · exact .inl heq.symm
        · exact .inr hmem
      · rintro (heq | hmem)
        · exact .inl heq.symm
        · exact .inr hmem

theorem visitPin_matches {entries : List (String × List String)}
    {nodes : List DependencyClosureNode} {parent : String × List String}
    {node : DependencyClosureNode} (h : List.Forall₂ (Matches verified) entries nodes)
    (hparent : Matches verified parent node) (pin : ClaimDependencyPin) :
    List.Forall₂ (Matches verified)
      (if isSound verified node.toVerifiedClaim pin then
        discover (labelOf verified) parent entries pin.eventId else entries)
      (visitPin verified node nodes pin) := by
  have havailable := isAvailable_eq hparent pin
  have hknown := matches_known h pin.eventId
  cases hsound : isSound verified node.toVerifiedClaim pin with
  | false =>
      have hrefused : isAvailable verified node pin = false := by
        rw [← Bool.not_eq_true, havailable, hsound]
        simp
      have hskip : visitPin verified node nodes pin = nodes := by
        unfold visitPin
        cases verifiedGet verified pin.eventId with
        | none => rfl
        | some child => simp [hrefused]
      rw [hskip]
      simpa using h
  | true =>
      obtain ⟨htarget, hlabel, child, hchild⟩ := isSound_target hsound
      rw [if_pos rfl]
      unfold discover visitPin
      rw [hchild, hlabel]
      dsimp only
      by_cases hrefused : pin.claimId ∈ parent.2.map (labelOf verified)
          ∨ pin.eventId ∈ entries.map (·.1)
      · have hskip : ¬(isAvailable verified node pin
            && !nodes.any (·.eventId == pin.eventId)) = true := by
          rw [Bool.and_eq_true, havailable, Bool.not_eq_true', ← Bool.not_eq_true, hknown]
          tauto
        rw [if_pos hrefused, if_neg hskip]
        exact h
      · have hpush : (isAvailable verified node pin
            && !nodes.any (·.eventId == pin.eventId)) = true := by
          rw [Bool.and_eq_true, havailable, Bool.not_eq_true', ← Bool.not_eq_true, hknown]
          tauto
        rw [if_neg hrefused, if_pos hpush]
        refine List.rel_append h (.cons ⟨hchild, ?_, ?_⟩ .nil)
        · have hdepth := hparent.depth
          simp only [List.length_append, List.length_singleton]
          omega
        · rw [List.map_append, ← hparent.path, List.map_singleton, htarget]

theorem visitPins_matches {pins : List ClaimDependencyPin}
    {entries : List (String × List String)} {nodes : List DependencyClosureNode}
    {parent : String × List String} {node : DependencyClosureNode}
    (h : List.Forall₂ (Matches verified) entries nodes) (hparent : Matches verified parent node) :
    List.Forall₂ (Matches verified)
      (((pins.filter (isSound verified node.toVerifiedClaim)).map (·.eventId)).foldl
        (discover (labelOf verified) parent) entries)
      (pins.foldl (visitPin verified node) nodes) := by
  induction pins generalizing entries nodes with
  | nil => exact h
  | cons pin rest ih =>
      have hstep := visitPin_matches h hparent pin
      rw [List.foldl_cons]
      cases hsound : isSound verified node.toVerifiedClaim pin with
      | false =>
          rw [hsound] at hstep
          rw [List.filter_cons_of_neg (by simp [hsound])]
          exact ih hstep
      | true =>
          rw [hsound] at hstep
          rw [List.filter_cons_of_pos (by simp [hsound]), List.map_cons, List.foldl_cons]
          exact ih hstep

theorem visitNode_matches {entries : List (String × List String)}
    {nodes : List DependencyClosureNode} {parent : String × List String}
    {node : DependencyClosureNode} (h : List.Forall₂ (Matches verified) entries nodes)
    (hparent : Matches verified parent node) :
    List.Forall₂ (Matches verified)
      (expand (soundPins verified) (labelOf verified) entries parent)
      (visitNode verified nodes node) := by
  have hpins : soundPins verified parent.1
      = ((node.pins.getD []).filter (isSound verified node.toVerifiedClaim)).map (·.eventId) := by
    rw [soundPins, hparent.claim]
  rw [expand, visitNode, hpins]
  exact visitPins_matches h hparent

theorem walk_matches {fuel index : Nat} {entries : List (String × List String)}
    {nodes : List DependencyClosureNode} (h : List.Forall₂ (Matches verified) entries nodes) :
    List.Forall₂ (Matches verified)
      (search (soundPins verified) (labelOf verified) fuel index entries)
      (walk verified fuel index nodes) := by
  induction fuel generalizing index entries nodes with
  | zero => exact h
  | succ fuel ih =>
      have hhead := Related.getElem? h index
      unfold search walk
      generalize entries[index]? = parent at *
      generalize nodes[index]? = node at *
      cases hhead with
      | none => exact h
      | some hparent => exact ih (visitNode_matches h hparent)

end Walk

/-! ## Reading the closure off the search -/

def queueOf (verified : List VerifiedClaim) (root : String) : List (String × List String) :=
  search (soundPins verified) (labelOf verified) verified.length 0 [(root, [root])]

/-- The pin of an entry is followed or leads to something reached. -/
def Allowed (verified : List VerifiedClaim) (entry : String × List String)
    (claim : VerifiedClaim) (pin : ClaimDependencyPin) : Prop :=
  isSound verified claim pin = true ∧ pin.claimId ∉ entry.2.map (labelOf verified)

section Closure

variable {verified : List VerifiedClaim} {root target : String} {claim : VerifiedClaim}

theorem soundPins_mem {eventId child : String} (h : child ∈ soundPins verified eventId) :
    child ∈ verified.map (·.eventId) := by
  obtain ⟨claim, -, pin, -, hsound, rfl⟩ := mem_soundPins.mp h
  obtain ⟨-, -, found, hfound⟩ := isSound_target hsound
  exact List.mem_map.mpr ⟨found, verifiedGet_mem hfound, verifiedGet_eventId hfound⟩

theorem root_mem (hroot : verifiedGet verified root = some claim) :
    root ∈ verified.map (·.eventId) :=
  List.mem_map.mpr ⟨claim, verifiedGet_mem hroot, verifiedGet_eventId hroot⟩

theorem queueOf_guarded (hroot : verifiedGet verified root = some claim) :
    GuardInv (soundPins verified) (labelOf verified) root (queueOf verified root) [] :=
  search_guarded (verified.map (·.eventId)) (fun _ _ _ hchild => soundPins_mem hchild)
    (root_mem hroot) (by simp)

theorem closureOf_walk (hroot : verifiedGet verified root = some claim)
    (htarget : claim.target = target) (withinLimit : Bool) :
    ∃ nodes, List.Forall₂ (Matches verified) (queueOf verified root) nodes
      ∧ closureOf verified withinLimit (some root) target =
        { rootAvailable := true
          complete := withinLimit && nodes.all (isComplete verified)
          nodes := nodes.filter (0 < ·.depth)
          edges := nodes.flatMap (edgesFrom verified)
          unavailable := (nodes.flatMap (unavailableFrom verified)).eraseDups } := by
  have hfilter : ((some root).bind (verifiedGet verified)).filter (·.target == target)
      = some claim := by
    simp [hroot, htarget]
  have hstart : Matches verified (root, [root])
      { claim with depth := 0, path := [target] } :=
    ⟨hroot, rfl, by rw [List.map_singleton, targetOf_get hroot, htarget]⟩
  refine ⟨_, walk_matches (.cons hstart .nil), ?_⟩
  rw [closureOf, hfilter]

theorem queueOf_get (hroot : verifiedGet verified root = some claim)
    {entry : String × List String} (hentry : entry ∈ queueOf verified root) :
    ∃ found, verifiedGet verified entry.1 = some found := by
  obtain ⟨nodes, hmatches, -⟩ := closureOf_walk hroot rfl true
  obtain ⟨node, -, hmatch⟩ := Related.mem_left hmatches hentry
  exact ⟨_, hmatch.claim⟩

theorem closureOf_none (withinLimit : Bool)
    (h : ∀ claim, verifiedGet verified root = some claim → claim.target ≠ target) :
    closureOf verified withinLimit (some root) target =
      { rootAvailable := false, complete := false, nodes := [], edges := []
        unavailable := [target] } := by
  have hfilter : ((some root).bind (verifiedGet verified)).filter (·.target == target)
      = none := by
    cases hroot : verifiedGet verified root with
    | none => simp [hroot]
    | some claim => simp [hroot, h claim hroot]
  rw [closureOf, hfilter]

theorem complete_iff (hroot : verifiedGet verified root = some claim)
    (htarget : claim.target = target) (withinLimit : Bool) :
    (closureOf verified withinLimit (some root) target).complete = true ↔ withinLimit = true
      ∧ ∀ entry ∈ queueOf verified root, ∀ claim, verifiedGet verified entry.1 = some claim →
        ∃ pins, claim.pins = some pins ∧ ∀ pin ∈ pins, Allowed verified entry claim pin := by
  obtain ⟨nodes, hmatches, hout⟩ := closureOf_walk hroot htarget withinLimit
  have hone : ∀ {entry node}, Matches verified entry node → (isComplete verified node = true ↔
      ∃ pins, node.pins = some pins
        ∧ ∀ pin ∈ pins, Allowed verified entry node.toVerifiedClaim pin) := by
    intro entry node hmatch
    unfold isComplete
    cases hpins : node.pins with
    | none => simp
    | some pins =>
        simp only [List.all_eq_true, isAvailable_eq hmatch, Option.some.injEq, exists_eq_left']
        rfl
  rw [hout]
  simp only [Bool.and_eq_true, List.all_eq_true]
  refine and_congr_right fun _ => ⟨fun hall entry hentry claim hclaim => ?_,
    fun hall node hnode => ?_⟩
  · obtain ⟨node, hnode, hmatch⟩ := Related.mem_left hmatches hentry
    have hsame := hmatch.claim
    rw [hclaim] at hsame
    cases hsame
    exact (hone hmatch).mp (hall node hnode)
  · obtain ⟨entry, hentry, hmatch⟩ := Related.mem_right hmatches hnode
    exact (hone hmatch).mpr (hall entry hentry _ hmatch.claim)

theorem member_iff (hroot : verifiedGet verified root = some claim)
    (htarget : claim.target = target) (withinLimit : Bool) (member : String) :
    member ∈ (closureOf verified withinLimit (some root) target).nodes.map (·.target) ↔
      ∃ entry ∈ queueOf verified root, 1 < entry.2.length ∧ targetOf verified entry.1 = member := by
  obtain ⟨nodes, hmatches, hout⟩ := closureOf_walk hroot htarget withinLimit
  rw [hout]
  simp only [List.mem_map, List.mem_filter, decide_eq_true_eq]
  constructor
  · rintro ⟨node, ⟨hnode, hdepth⟩, rfl⟩
    obtain ⟨entry, hentry, hmatch⟩ := Related.mem_right hmatches hnode
    have hlength := hmatch.depth
    exact ⟨entry, hentry, by omega, hmatch.target.symm⟩
  · rintro ⟨entry, hentry, hlength, rfl⟩
    obtain ⟨node, hnode, hmatch⟩ := Related.mem_left hmatches hentry
    have hdepth := hmatch.depth
    exact ⟨node, ⟨hnode, by omega⟩, hmatch.target⟩

theorem edge_iff (hroot : verifiedGet verified root = some claim)
    (htarget : claim.target = target) (withinLimit : Bool) (edge : DependencyEdge) :
    edge ∈ (closureOf verified withinLimit (some root) target).edges ↔
      ∃ entry ∈ queueOf verified root, ∃ claim, verifiedGet verified entry.1 = some claim
        ∧ ∃ pin ∈ claim.pins.getD [], edge.source = claim.target ∧ edge.target = pin.target
          ∧ (edge.available = true ↔ Allowed verified entry claim pin) := by
  obtain ⟨nodes, hmatches, hout⟩ := closureOf_walk hroot htarget withinLimit
  rw [hout]
  simp only [List.mem_flatMap, edgesFrom, List.mem_map]
  constructor
  · rintro ⟨node, hnode, pin, hpin, rfl⟩
    obtain ⟨entry, hentry, hmatch⟩ := Related.mem_right hmatches hnode
    exact ⟨entry, hentry, _, hmatch.claim, pin, hpin, rfl, rfl, isAvailable_eq hmatch pin⟩
  · rintro ⟨entry, hentry, claim, hclaim, pin, hpin, hsource, hpinned, havailable⟩
    obtain ⟨node, hnode, hmatch⟩ := Related.mem_left hmatches hentry
    have hsame := hmatch.claim
    rw [hclaim] at hsame
    cases hsame
    refine ⟨node, hnode, pin, hpin, ?_⟩
    have hequal : isAvailable verified node pin = edge.available := by
      rw [Bool.eq_iff_iff, havailable]
      exact isAvailable_eq hmatch pin
    rw [hequal]
    cases edge
    simp only [DependencyEdge.mk.injEq]
    exact ⟨hsource.symm, hpinned.symm, trivial⟩

theorem unavailable_iff (hroot : verifiedGet verified root = some claim)
    (htarget : claim.target = target) (withinLimit : Bool) (missing : String) :
    missing ∈ (closureOf verified withinLimit (some root) target).unavailable ↔
      ∃ entry ∈ queueOf verified root, ∃ claim, verifiedGet verified entry.1 = some claim
        ∧ (claim.pins = none ∧ missing = claim.target
          ∨ ∃ pin ∈ claim.pins.getD [], ¬Allowed verified entry claim pin
            ∧ missing = pin.target) := by
  obtain ⟨nodes, hmatches, hout⟩ := closureOf_walk hroot htarget withinLimit
  have hone : ∀ {entry node}, Matches verified entry node →
      (missing ∈ unavailableFrom verified node ↔
        node.pins = none ∧ missing = node.target
          ∨ ∃ pin ∈ node.pins.getD [], ¬Allowed verified entry node.toVerifiedClaim pin
            ∧ missing = pin.target) := by
    intro entry node hmatch
    have hrefused : ∀ pin, (!isAvailable verified node pin) = true ↔
        ¬Allowed verified entry node.toVerifiedClaim pin := by
      intro pin
      rw [Bool.not_eq_true', ← Bool.not_eq_true, isAvailable_eq hmatch]
      rfl
    unfold unavailableFrom
    cases hpins : node.pins with
    | none => simp
    | some pins =>
        simp only [List.mem_map, List.mem_filter, hrefused, Option.getD_some, reduceCtorEq,
          false_and, false_or, and_assoc, eq_comm]
  rw [hout]
  simp only [List.mem_eraseDups, List.mem_flatMap]
  constructor
  · rintro ⟨node, hnode, hmem⟩
    obtain ⟨entry, hentry, hmatch⟩ := Related.mem_right hmatches hnode
    exact ⟨entry, hentry, _, hmatch.claim, (hone hmatch).mp hmem⟩
  · rintro ⟨entry, hentry, claim, hclaim, hwhy⟩
    obtain ⟨node, hnode, hmatch⟩ := Related.mem_left hmatches hentry
    have hsame := hmatch.claim
    rw [hclaim] at hsame
    cases hsame
    exact ⟨node, hnode, (hone hmatch).mpr hwhy⟩

end Closure

end Asimposium
