import Asimposium.Lib.Kahn

/-!
# Planning a batch

`planBatchCommit` checks the members of a batch against its bounds and puts
them in the order they are committed in, parents before what they caused.
A member arrives unchecked: its temporary id, the list of its parents and
each of these may be of another type.
-/

namespace Asimposium.Krater

/-! ## Members -/

/-- `caused_by` as it arrives; in the list, `none` is not a string. -/
inductive CausedBy where
  | absent
  | notAList
  | list (parents : List (Option String))
deriving Repr, DecidableEq

/-- `none` as the temporary id is not a string. -/
structure BatchMember where
  tempId : Option String
  causedBy : CausedBy
deriving Repr, DecidableEq

inductive BatchPlanRefusalCode where
  | empty
  | tooLarge
  | invalidTempId
  | duplicateTempId
  | selfCausalRef
  | duplicateCausalRef
  | danglingCausalRef
  | causalCycle
deriving Repr, DecidableEq

structure BatchPlanFailure where
  code : BatchPlanRefusalCode
  detail : String
deriving Repr, DecidableEq

def maxBatchMembers : Nat := 16

def maxCausedByPerMember : Nat := maxBatchMembers - 1

/-- `BATCH_TEMP_ID_PATTERN`. -/
def isBatchTempId (id : String) : Bool :=
  match id.toList with
  | 't' :: 'm' :: 'p' :: ':' :: first :: rest =>
      first.isAlphanum && rest.length ≤ 123
        && rest.all fun c => c.isAlphanum || c == '.' || c == '_' || c == ':' || c == '-'
  | _ => false

/-- The check of a temporary id, of a member or of a parent. -/
def isTempId : Option String → Bool
  | none => false
  | some id => 5 ≤ id.length && id.length ≤ 128 && isBatchTempId id

namespace BatchMember

variable (m : BatchMember)

def id : String := m.tempId.getD ""

/-- `member.causedBy ?? []`, as it arrives. -/
def causes : List (Option String) :=
  match m.causedBy with
  | .list parents => parents
  | _ => []

def parents : List String := m.causes.map (·.getD "")

end BatchMember

/-! ## The checks -/

def repeatedId : List String → List String → Option String
  | _, [] => none
  | seen, id :: rest => if seen.contains id then some id else repeatedId (id :: seen) rest

def parentRefusal (ids : List String) (id : String) :
    List String → List (Option String) → Option BatchPlanFailure
  | _, [] => none
  | seen, parent :: rest =>
      if !isTempId parent then
        some ⟨.invalidTempId,
          "member " ++ id ++ " references invalid caused_by temporary id format"⟩
      else if parent.getD "" == id then
        some ⟨.selfCausalRef, "member " ++ id ++ " cannot list itself in caused_by"⟩
      else if seen.contains (parent.getD "") then
        some ⟨.duplicateCausalRef,
          "member " ++ id ++ " carries duplicate caused_by reference " ++ parent.getD ""⟩
      else if !ids.contains (parent.getD "") then
        some ⟨.danglingCausalRef,
          id ++ " follows " ++ parent.getD "" ++ ", which is not a member of this batch"⟩
      else parentRefusal ids id (parent.getD "" :: seen) rest

def memberRefusal (ids : List String) (m : BatchMember) : Option BatchPlanFailure :=
  if m.causedBy == .notAList then
    some ⟨.danglingCausalRef, "member " ++ m.id ++ " caused_by must be an array"⟩
  else if maxCausedByPerMember < m.causes.length then
    some ⟨.tooLarge, "member " ++ m.id ++ " caused_by length " ++ toString m.causes.length
      ++ " exceeds " ++ toString maxCausedByPerMember ++ " bound"⟩
  else parentRefusal ids m.id [] m.causes

/-- The checks before the order, in the order they are made. -/
def batchRefusal (members : List BatchMember) : Option BatchPlanFailure :=
  if members.isEmpty then some ⟨.empty, "a batch must carry at least one member"⟩
  else if maxBatchMembers < members.length then
    some ⟨.tooLarge, toString members.length ++ " members exceeds the "
      ++ toString maxBatchMembers ++ "-member bound"⟩
  else match members.findIdx? fun m => !isTempId m.tempId with
    | some index => some ⟨.invalidTempId, "member at index " ++ toString index
        ++ " has invalid temporary id (must match tmp:<identifier>, 5-128 chars)"⟩
    | none =>
        match repeatedId [] (members.map (·.id)) with
        | some id => some ⟨.duplicateTempId, "temporary id " ++ id ++ " appears twice"⟩
        | none => members.findSome? (memberRefusal (members.map (·.id)))

/-! ## The order -/

/-- `inDegree.get(id) ?? 0` before the loop. -/
def inDegree (members : List BatchMember) (id : String) : Int :=
  match members.reverse.find? (·.id == id) with
  | some m => m.parents.length
  | none => 0

/-- `dependents.get(id) ?? []`. -/
def dependentsOf (members : List BatchMember) (id : String) : List String :=
  members.flatMap fun m => (m.parents.filter (· == id)).map fun _ => m.id

def commitOrder (members : List BatchMember) : List String :=
  (Kahn.run (dependentsOf members) members.length
    { degree := inDegree members
      queue := (members.map (·.id)).filter fun id => inDegree members id = 0
      order := [] }).order

def planBatchCommit (members : List BatchMember) : Except BatchPlanFailure (List String) :=
  match batchRefusal members with
  | some failure => .error failure
  | none =>
      if (commitOrder members).length ≠ members.length then
        .error ⟨.causalCycle,
          "the caused_by references form a cycle — dependencies must be a DAG (P10)"⟩
      else .ok (commitOrder members)

/-! ## Well-formed batches -/

structure WellCaused (members : List BatchMember) (m : BatchMember) : Prop where
  isList : m.causedBy ≠ .notAList
  bounded : m.causes.length ≤ maxCausedByPerMember
  tempIds : ∀ parent ∈ m.causes, isTempId parent = true
  distinct : m.parents.Nodup
  other : m.id ∉ m.parents
  known : ∀ parent ∈ m.parents, parent ∈ members.map (·.id)

structure WellFormed (members : List BatchMember) : Prop where
  nonempty : members ≠ []
  bounded : members.length ≤ maxBatchMembers
  tempIds : ∀ m ∈ members, isTempId m.tempId = true
  distinct : (members.map (·.id)).Nodup
  caused : ∀ m ∈ members, WellCaused members m

theorem repeatedId_eq_none {seen ids : List String} :
    repeatedId seen ids = none ↔ ids.Nodup ∧ ∀ id ∈ ids, id ∉ seen := by
  induction ids generalizing seen with
  | nil => simp [repeatedId]
  | cons id rest ih =>
      rw [repeatedId]
      split
      · rename_i hseen
        rw [List.contains_iff_mem] at hseen
        simp [hseen]
      · rename_i hseen
        rw [List.contains_iff_mem] at hseen
        rw [ih, List.nodup_cons]
        constructor
        · rintro ⟨hnodup, hfresh⟩
          refine ⟨⟨fun hmem => hfresh id hmem (List.mem_cons_self ..), hnodup⟩, ?_⟩
          intro other hother
          rcases List.mem_cons.mp hother with rfl | hother
          · exact hseen
          · exact fun hmem => hfresh other hother (List.mem_cons_of_mem _ hmem)
        · rintro ⟨⟨hid, hnodup⟩, hfresh⟩
          refine ⟨hnodup, fun other hother hmem => ?_⟩
          rcases List.mem_cons.mp hmem with rfl | hmem
          · exact hid hother
          · exact hfresh other (List.mem_cons_of_mem _ hother) hmem

theorem parentRefusal_eq_none {ids seen : List String} {id : String}
    {causes : List (Option String)} :
    parentRefusal ids id seen causes = none ↔
      (∀ parent ∈ causes, isTempId parent = true) ∧ id ∉ causes.map (·.getD "")
        ∧ (causes.map (·.getD "")).Nodup ∧ (∀ parent ∈ causes.map (·.getD ""), parent ∉ seen)
        ∧ ∀ parent ∈ causes.map (·.getD ""), parent ∈ ids := by
  induction causes generalizing seen with
  | nil => simp [parentRefusal]
  | cons parent rest ih =>
      rw [parentRefusal, List.map_cons]
      by_cases htemp : isTempId parent = true
      · by_cases hself : parent.getD "" = id
        · simp [htemp, hself]
        · by_cases hseen : parent.getD "" ∈ seen
          · simp [htemp, hself, hseen]
          · by_cases hknown : parent.getD "" ∈ ids
            · have hself' : (parent.getD "" == id) = false := beq_false_of_ne hself
              have hseen' : seen.contains (parent.getD "") = false := by simpa using hseen
              have hknown' : ids.contains (parent.getD "") = true := List.contains_iff_mem.mpr hknown
              simp only [htemp, hself', hseen', hknown', Bool.not_true, Bool.false_eq_true, if_false,
                ih, List.mem_cons, List.nodup_cons, forall_eq_or_imp, hknown, hseen, true_and,
                not_or, not_false_eq_true]
              constructor
              · rintro ⟨htemps, hid, hnodup, hfresh, hids⟩
                refine ⟨htemps, ⟨fun heq => hself heq.symm, hid⟩, ⟨?_, hnodup⟩, ?_, hids⟩
                · exact fun hmem => (hfresh _ hmem).1 rfl
                · exact fun other hother => (hfresh other hother).2
              · rintro ⟨htemps, ⟨-, hid⟩, ⟨hparent, hnodup⟩, hfresh, hids⟩
                refine ⟨htemps, hid, hnodup, fun other hother => ⟨?_, hfresh other hother⟩, hids⟩
                rintro rfl
                exact hparent hother
            · simp [htemp, hself, hseen, hknown]
      · simp [htemp]

variable {members : List BatchMember}

theorem memberRefusal_eq_none {m : BatchMember} :
    memberRefusal (members.map (·.id)) m = none ↔ WellCaused members m := by
  rw [memberRefusal]
  split
  · rename_i hlist
    rw [beq_iff_eq] at hlist
    exact ⟨nofun, fun h => absurd hlist h.isList⟩
  · rename_i hlist
    rw [beq_iff_eq] at hlist
    split
    · rename_i hlong
      exact ⟨nofun, fun h => absurd h.bounded (Nat.not_le.mpr hlong)⟩
    · rename_i hlong
      rw [parentRefusal_eq_none]
      constructor
      · rintro ⟨htemps, hself, hnodup, -, hknown⟩
        exact ⟨hlist, Nat.le_of_not_lt hlong, htemps, hnodup, hself, hknown⟩
      · intro h
        exact ⟨h.tempIds, h.other, h.distinct, fun _ _ => List.not_mem_nil, h.known⟩

theorem batchRefusal_eq_none : batchRefusal members = none ↔ WellFormed members := by
  rw [batchRefusal]
  split
  · rename_i hempty
    exact ⟨nofun, fun h => absurd (List.isEmpty_iff.mp hempty) h.nonempty⟩
  rename_i hempty
  split
  · rename_i hlong
    exact ⟨nofun, fun h => absurd h.bounded (Nat.not_le.mpr hlong)⟩
  rename_i hlong
  cases hindex : members.findIdx? fun m => !isTempId m.tempId with
  | some index =>
      refine ⟨nofun, fun h => ?_⟩
      have hnone : (members.findIdx? fun m => !isTempId m.tempId) = none := by
        refine List.findIdx?_eq_none_iff.mpr fun m hm => ?_
        rw [h.tempIds m hm]
        rfl
      rw [hindex] at hnone
      cases hnone
  | none =>
      have htemps : ∀ m ∈ members, isTempId m.tempId = true := by
        intro m hm
        have hm := List.findIdx?_eq_none_iff.mp hindex m hm
        rwa [Bool.not_eq_false'] at hm
      cases hrepeated : repeatedId [] (members.map (·.id)) with
      | some id =>
          refine ⟨nofun, fun h => ?_⟩
          have hnone := repeatedId_eq_none.mpr
            ⟨h.distinct, fun _ _ => List.not_mem_nil⟩
          rw [hrepeated] at hnone
          cases hnone
      | none =>
          dsimp only
          rw [List.findSome?_eq_none_iff]
          constructor
          · intro hcaused
            refine ⟨fun hnil => hempty (List.isEmpty_iff.mpr hnil), Nat.le_of_not_lt hlong, htemps,
              (repeatedId_eq_none.mp hrepeated).1, ?_⟩
            exact fun m hm => memberRefusal_eq_none.mp (hcaused m hm)
          · exact fun h m hm => memberRefusal_eq_none.mpr (h.caused m hm)

/-! ## The graph of a batch -/

def Causes (members : List BatchMember) (parent id : String) : Prop :=
  ∃ m ∈ members, m.id = id ∧ parent ∈ m.parents

def Acyclic (members : List BatchMember) : Prop :=
  ∀ id, ¬ Relation.TransGen (Causes members) id id

def ParentsFirst (members : List BatchMember) (order : List String) : Prop :=
  ∀ before id after, order = before ++ id :: after →
    ∀ parent, Causes members parent id → parent ∈ before

theorem find?_id (h : (members.map (·.id)).Nodup) {m : BatchMember} (hm : m ∈ members) :
    members.find? (·.id == m.id) = some m := by
  cases hfound : members.find? (·.id == m.id) with
  | none =>
      have hnone := List.find?_eq_none.mp hfound m hm
      rw [beq_self_eq_true] at hnone
      exact absurd rfl hnone
  | some other =>
      have hid : other.id = m.id :=
        beq_iff_eq.mp (List.find?_some (p := fun x : BatchMember => x.id == m.id) hfound)
      exact congrArg some (List.inj_on_of_nodup_map h (List.mem_of_find?_eq_some hfound) hm hid)

def parentsOf (members : List BatchMember) (id : String) : List String :=
  match members.find? (·.id == id) with
  | some m => m.parents
  | none => []

theorem parentsOf_id (h : (members.map (·.id)).Nodup) {m : BatchMember} (hm : m ∈ members) :
    parentsOf members m.id = m.parents := by
  rw [parentsOf, find?_id h hm]

theorem mem_parentsOf (h : (members.map (·.id)).Nodup) {parent id : String} :
    parent ∈ parentsOf members id ↔ Causes members parent id := by
  constructor
  · intro hparent
    unfold parentsOf at hparent
    split at hparent
    · rename_i m hfound
      exact ⟨m, List.mem_of_find?_eq_some hfound,
        beq_iff_eq.mp (List.find?_some (p := fun x : BatchMember => x.id == id) hfound), hparent⟩
    · cases hparent
  · rintro ⟨m, hm, rfl, hparent⟩
    rw [parentsOf_id h hm]
    exact hparent

def WellFormed.graph {members : List BatchMember} (h : WellFormed members) : Kahn.Graph String where
  ids := members.map (·.id)
  parents := parentsOf members
  ids_nodup := h.distinct
  parents_nodup := by
    intro id hid
    obtain ⟨m, hm, rfl⟩ := List.mem_map.mp hid
    rw [parentsOf_id h.distinct hm]
    exact (h.caused m hm).distinct
  parents_mem := by
    intro id hid parent hparent
    obtain ⟨m, hm, -, hparent⟩ := (mem_parentsOf h.distinct).mp hparent
    exact (h.caused m hm).known parent hparent

theorem inDegree_eq (h : (members.map (·.id)).Nodup) (id : String) :
    inDegree members id = (parentsOf members id).length := by
  have hreverse : (members.reverse.map (·.id)).Nodup := by
    rw [List.map_reverse, List.nodup_reverse]
    exact h
  by_cases hid : ∃ m ∈ members, m.id = id
  · obtain ⟨m, hm, rfl⟩ := hid
    rw [inDegree, find?_id hreverse (List.mem_reverse.mpr hm), parentsOf_id h hm]
  · have hnone : ∀ m ∈ members, ¬ (m.id == id) = true := fun m hm heq =>
      hid ⟨m, hm, beq_iff_eq.mp heq⟩
    rw [inDegree, List.find?_eq_none.mpr fun m hm => hnone m (List.mem_reverse.mp hm), parentsOf,
      List.find?_eq_none.mpr hnone]
    rfl

theorem flatMap_ite {α β : Type} (f : α → β) (p : α → Bool) (l : List α) :
    (l.flatMap fun a => if p a then [f a] else []) = (l.filter p).map f := by
  induction l with
  | nil => rfl
  | cons a l ih =>
      rw [List.flatMap_cons, ih, List.filter_cons]
      split <;> rfl

theorem dependentsOf_eq (h : WellFormed members) : dependentsOf members = h.graph.dependents := by
  funext parent
  have hone : ∀ m ∈ members, ((m.parents.filter (· == parent)).map fun _ => m.id)
      = if decide (parent ∈ m.parents) then [m.id] else [] := by
    intro m hm
    have hnodup := (h.caused m hm).distinct
    by_cases hmem : parent ∈ m.parents
    · rw [List.filter_beq, hnodup.count, if_pos hmem]
      simp [hmem]
    · rw [List.filter_beq, hnodup.count, if_neg hmem]
      simp [hmem]
  have hflat : dependentsOf members parent
      = (members.filter fun m => decide (parent ∈ m.parents)).map (·.id) := by
    rw [← flatMap_ite, dependentsOf]
    exact List.flatMap_congr hone
  rw [hflat, Kahn.Graph.dependents, WellFormed.graph]
  dsimp only
  rw [List.filter_map]
  congr 1
  refine List.filter_congr fun m hm => ?_
  show decide (parent ∈ m.parents) = decide (parent ∈ parentsOf members m.id)
  rw [parentsOf_id h.distinct hm]

theorem commitOrder_eq (h : WellFormed members) :
    commitOrder members
      = (Kahn.run h.graph.dependents members.length h.graph.start).order := by
  have hdegree : inDegree members = fun id => ((parentsOf members id).length : Int) :=
    funext (inDegree_eq h.distinct)
  rw [commitOrder, dependentsOf_eq h, hdegree, Kahn.Graph.start, WellFormed.graph]
  simp only [Int.natCast_eq_zero]

theorem graph_acyclic (h : WellFormed members) : h.graph.Acyclic ↔ Acyclic members := by
  have hsame : h.graph.Causes = Causes members := by
    funext parent id
    refine propext ⟨fun hcauses => (mem_parentsOf h.distinct).mp hcauses.2, fun hcauses => ?_⟩
    refine ⟨?_, (mem_parentsOf h.distinct).mpr hcauses⟩
    obtain ⟨m, hm, rfl, -⟩ := hcauses
    exact List.mem_map.mpr ⟨m, hm, rfl⟩
  rw [Kahn.Graph.Acyclic, hsame, Acyclic]

theorem graph_causal (h : WellFormed members) {order : List String} :
    h.graph.Causal order → ParentsFirst members order :=
  fun hcausal before id after heq parent hcauses =>
    hcausal before id after heq parent ((mem_parentsOf h.distinct).mpr hcauses)

/-! ## The plan -/

theorem commitOrder_spec (h : WellFormed members) :
    ParentsFirst members (commitOrder members)
      ∧ ((commitOrder members).length = members.length ↔ Acyclic members)
      ∧ (Acyclic members → (commitOrder members).Perm (members.map (·.id))) := by
  have hlength : h.graph.ids.length = members.length := List.length_map _
  obtain ⟨hcausal, hcomplete, hperm⟩ := h.graph.run_start hlength.le
  rw [← commitOrder_eq h] at hcausal hcomplete hperm
  rw [hlength, graph_acyclic h] at hcomplete
  rw [graph_acyclic h] at hperm
  exact ⟨graph_causal h hcausal, hcomplete, hperm⟩

theorem planBatchCommit_ok {order : List String} :
    planBatchCommit members = .ok order
      ↔ WellFormed members ∧ Acyclic members ∧ commitOrder members = order := by
  rw [planBatchCommit]
  cases hrefusal : batchRefusal members with
  | some failure =>
      refine ⟨nofun, fun h => ?_⟩
      rw [batchRefusal_eq_none.mpr h.1] at hrefusal
      cases hrefusal
  | none =>
      have hformed := batchRefusal_eq_none.mp hrefusal
      obtain ⟨-, hcomplete, -⟩ := commitOrder_spec hformed
      dsimp only
      split
      · rename_i hshort
        exact ⟨nofun, fun h => absurd (hcomplete.mpr h.2.1) hshort⟩
      · rename_i hlength
        rw [ne_eq, not_not] at hlength
        constructor
        · intro h
          exact ⟨hformed, hcomplete.mp hlength, Except.ok.inj h⟩
        · rintro ⟨-, -, rfl⟩
          rfl

/-- The plan of a batch is exact. Last, a batch that is extended and stays
valid keeps each of its members, once. -/
theorem planBatchCommit_exact (members : List BatchMember) :
    ((∃ order, planBatchCommit members = .ok order) ↔ WellFormed members ∧ Acyclic members)
      ∧ (∀ order, planBatchCommit members = .ok order →
        order.Perm (members.map (·.id)) ∧ ParentsFirst members order)
      ∧ (WellFormed members → ¬ Acyclic members →
        ∃ detail, planBatchCommit members = .error ⟨.causalCycle, detail⟩)
      ∧ ∀ larger order, planBatchCommit larger = .ok order →
        members.map (·.id) ⊆ larger.map (·.id) → ∀ m ∈ members, order.count m.id = 1 := by
  refine ⟨?_, ?_, ?_, ?_⟩
  · constructor
    · rintro ⟨order, h⟩
      obtain ⟨hformed, hacyclic, -⟩ := planBatchCommit_ok.mp h
      exact ⟨hformed, hacyclic⟩
    · rintro ⟨hformed, hacyclic⟩
      exact ⟨_, planBatchCommit_ok.mpr ⟨hformed, hacyclic, rfl⟩⟩
  · intro order h
    obtain ⟨hformed, hacyclic, rfl⟩ := planBatchCommit_ok.mp h
    obtain ⟨hfirst, -, hperm⟩ := commitOrder_spec hformed
    exact ⟨hperm hacyclic, hfirst⟩
  · intro hformed hcyclic
    obtain ⟨-, hcomplete, -⟩ := commitOrder_spec hformed
    refine ⟨"the caused_by references form a cycle — dependencies must be a DAG (P10)", ?_⟩
    rw [planBatchCommit, batchRefusal_eq_none.mpr hformed]
    exact if_pos fun hlength => hcyclic (hcomplete.mp hlength)
  · intro larger order h hsub m hm
    obtain ⟨hformed, hacyclic, rfl⟩ := planBatchCommit_ok.mp h
    have hperm := (commitOrder_spec hformed).2.2 hacyclic
    rw [hperm.count_eq]
    exact List.count_eq_one_of_mem hformed.distinct (hsub (List.mem_map.mpr ⟨m, hm, rfl⟩))

end Asimposium.Krater
