import Asimposium.Lib.Worklist
import Asimposium.Ledger.ScientificChecks
import Mathlib.Order.Bounds.Basic

/-!
# Withdrawn and ungrounded inputs

Withdrawal or unavailable grounding removes positive authority, not
history. `scientificInputEffects` reads one snapshot of rows and their
currently readable payloads and returns the reviews and evidence whose
authors withdrew them, and every evidence that cannot be relied on:
withdrawn, unreadable, with a reference that does not resolve, or
derived from such evidence through exact references.

The rows are those of one query. A `Map` filled in a loop is the lookup
of the last row that sets the key; the `Set`s are lists used through
membership.
-/

namespace Asimposium

/-! ## Rows -/

/-- `ScientificRow`: an event's envelope with its projection columns. A
`null` column and an absent one are not told apart by the code. -/
structure ScientificRow where
  claimId : String
  eventId : String
  seq : Int
  type : EventType
  objectId : String
  objectVersion : Int
  targetVersion : Int
  payloadSha256 : String
  payloadJson : Option String
  createdAt : Option String := none
  fellowId : String
  sponsorId : String
  contentDigest : Option String := none
  statement : Option String := none
  direction : Option String := none
  /-- `weighted_refutation === 1`. -/
  weightedRefutation : Bool := false
  /-- `weighted_statement_defect === 1`. -/
  weightedStatementDefect : Bool := false
  withdrawnEventId : Option String := none
  withdrawnKind : Option String := none
  withdrawnSha256 : Option String := none
  concessionEventId : Option String := none
  retractionTarget : Option String := none
  directiveDisclosure : Option String := none
deriving DecidableEq

def isTruthy (value : Option String) : Bool :=
  match value with
  | some text => text ≠ ""
  | none => false

namespace ScientificRow

variable (reader : PayloadReader) (row : ScientificRow)

/-- `claim.created` or `claim.revised`. -/
def isPublication : Bool := row.type == .claimCreated || row.type == .claimRevised

/-- The payload, when its bytes are there, still have the recorded digest
and hold a JSON object. -/
def readable : Option Payload :=
  match row.payloadJson with
  | none => none
  | some json => if reader.sha256 json ≠ row.payloadSha256 then none else reader.parse json

end ScientificRow

/-- `contents.get(eventId)`. -/
def contentOf (reader : PayloadReader) (rows : List ScientificRow) (eventId : String) :
    Option Payload :=
  rows.reverse.findSome? fun row =>
    if row.eventId = eventId then row.readable reader else none

/-! ## Withdrawals -/

section Effects

variable (rows : List ScientificRow) (contents : String → Option Payload)

/-- `byEvent.get(eventId)`. -/
def rowOfEvent (eventId : String) : Option ScientificRow :=
  rows.reverse.find? (·.eventId = eventId)

/-- `evidence.get(evidenceId)` among the evidence rows. -/
def evidenceRowOf (evidenceId : String) : Option ScientificRow :=
  rows.reverse.find? fun row => row.type == .evidenceCreated && row.objectId = evidenceId

/-- `` `${withdrawn_kind}.created` `` for the two kinds that are admitted. -/
def createdTypeOf (kind : Option String) : Option EventType :=
  if kind = some "evidence" then some .evidenceCreated
  else if kind = some "review" then some .reviewCreated
  else none

/-- The envelopes agree that `row` withdraws `original`. -/
def withdrawalMatches (row original : ScientificRow) : Bool :=
  original.seq < row.seq && original.claimId == row.claimId
    && original.fellowId == row.fellowId && original.targetVersion == row.targetVersion
    && original.objectVersion == 1 && some original.payloadSha256 == row.withdrawnSha256
    && createdTypeOf row.withdrawnKind == some original.type

/-- An available explanation has to name the same withdrawal. -/
def withdrawalWitnessed (row original : ScientificRow) (payload : Payload) : Bool :=
  payload.targetObject == some original.objectId
    && payload.targetEventId == some original.eventId
    && payload.targetKind == row.withdrawnKind
    && payload.targetDigest == some (payloadDigestText original.payloadSha256)
    && payload.claimId == some row.claimId && payload.claimVersion == some row.targetVersion

/-- A missing explanation cannot resurrect support: the envelopes retain
the withdrawal. -/
def withdraws (row original : ScientificRow) : Bool :=
  withdrawalMatches row original
    && (match contents row.eventId with
      | some payload => withdrawalWitnessed row original payload
      | none => true)

/-- The input `row` withdraws. -/
def withdrawnInput (row : ScientificRow) : Option ScientificRow :=
  match row.type, row.withdrawnEventId with
  | .objectRetracted, some eventId =>
      if eventId = "" then none
      else match rowOfEvent rows eventId with
        | none => none
        | some original => if withdraws contents row original then some original else none
  | _, _ => none

def withdrawnInputs : List ScientificRow := rows.filterMap (withdrawnInput rows contents)

/-- `withdrawnEvents`. -/
def withdrawnEvents : List String := (withdrawnInputs rows contents).map (·.eventId)

/-! ## Evidence dependencies -/

/-- The exact evidence a payload is grounded in; `none` when a check or a
provenance is not well formed or names one evidence twice. -/
def evidenceDependencies (payload : Payload) : Option (List ScientificEvidenceReference) :=
  let check : Option (List ScientificEvidenceReference) := match payload.falsificationCheck with
    | .absent => some []
    | .invalid => none
    | .valid check => if (check.evidence.map (·.evidenceId)).Nodup then some check.evidence else none
  let method : Option (List ScientificEvidenceReference) := match payload.scientificProvenance with
    | .absent => some []
    | .invalid => none
    | .valid provenance =>
        if (provenance.methodEvidence.map (·.evidenceId)).Nodup then some provenance.methodEvidence
        else none
  match check, method with
  | some check, some method => some (check ++ method)
  | _, _ => none

/-- `EvidenceResponseSchema.shape.computed_class.safeParse(…).success`. -/
def isComputedClass (value : Option String) : Bool :=
  match value with
  | some text => ["assertion", "heuristic", "citation", "computation", "certified"].contains text
  | none => false

/-- The references of a readable evidence row with a computed class. -/
def groundingOf (row : ScientificRow) : Option (List ScientificEvidenceReference) :=
  match contents row.eventId with
  | none => none
  | some payload => if isComputedClass payload.computedClass then evidenceDependencies payload else none

def isUngroundedClass (value : Option String) : Bool :=
  value == some "assertion" || value == some "heuristic"

/-- The referenced evidence is readable and bears on the same exact claim
version, before the row that refers to it. -/
def referenceResolves (row : ScientificRow) (reference : ScientificEvidenceReference) : Bool :=
  match evidenceRowOf rows reference.evidenceId with
  | none => false
  | some source =>
      match contents source.eventId with
      | none => false
      | some body =>
          reference.digest == payloadDigestText source.payloadSha256 && source.seq < row.seq
            && source.claimId == row.claimId && source.targetVersion == row.targetVersion
            && body.bearsOnKind == some "claim" && body.bearsOnId == some row.claimId
            && body.bearsOnVersion == some row.targetVersion && body.mode == some "confirmatory"
            && !body.selectedHypothesis && !isUngroundedClass body.computedClass
            && body.kind.isSome && body.direction.isSome
            && (match body.bodyMd with | some text => !isBlank text | none => false)

def isInvalidEvidence (row : ScientificRow) : Bool :=
  row.type == .evidenceCreated
    && match groundingOf contents row with
      | none => true
      | some references => references.any fun reference => !referenceResolves rows contents row reference

/-- `invalidatedEvidence` before the traversal. -/
def invalidSeeds : List String :=
  ((withdrawnInputs rows contents).filter (·.type == .evidenceCreated)).map (·.objectId)
    ++ (rows.filter (isInvalidEvidence rows contents)).map (·.objectId)

/-- `dependents.get(evidenceId) ?? []`. -/
def dependentsOf (evidenceId : String) : List String :=
  (rows.filter fun row => row.type == .evidenceCreated
    && match groundingOf contents row with
      | none => false
      | some references => references.any (·.evidenceId == evidenceId)).map (·.objectId)

/-- `invalidatedEvidence` after it. -/
def invalidatedEvidence : List String :=
  Worklist.closure (dependentsOf rows contents)
    ((invalidSeeds rows contents).length + rows.length) (invalidSeeds rows contents)

end Effects

/-! ## Characterisation -/

section Exact

variable {rows : List ScientificRow} {contents : String → Option Payload}

theorem rowOfEvent_mem {eventId : String} {row : ScientificRow}
    (h : rowOfEvent rows eventId = some row) : row ∈ rows ∧ row.eventId = eventId := by
  have hfind := List.find?_some h
  exact ⟨List.mem_reverse.mp (List.mem_of_find?_eq_some h), by simpa using hfind⟩

theorem withdrawnInput_mem {row original : ScientificRow}
    (h : withdrawnInput rows contents row = some original) :
    original ∈ rows ∧ createdTypeOf row.withdrawnKind = some original.type := by
  unfold withdrawnInput at h
  split at h
  · split at h
    · cases h
    · split at h
      · cases h
      · rename_i found hfound
        split at h
        · rename_i hwithdraws
          cases h
          simp only [withdraws, withdrawalMatches, Bool.and_eq_true, beq_iff_eq] at hwithdraws
          exact ⟨(rowOfEvent_mem hfound).1, hwithdraws.1.2⟩
        · cases h
  · cases h

theorem createdTypeOf_cases {kind : Option String} {type : EventType}
    (h : createdTypeOf kind = some type) : type = .evidenceCreated ∨ type = .reviewCreated := by
  unfold createdTypeOf at h
  split at h
  · exact .inl (Option.some.inj h).symm
  · split at h
    · exact .inr (Option.some.inj h).symm
    · cases h

theorem mem_withdrawnEvents {eventId : String} (h : eventId ∈ withdrawnEvents rows contents) :
    ∃ original ∈ rows, original.eventId = eventId
      ∧ (original.type = .evidenceCreated ∨ original.type = .reviewCreated) := by
  obtain ⟨original, hmem, heq⟩ := List.mem_map.mp h
  obtain ⟨row, -, hrow⟩ := List.mem_filterMap.mp hmem
  obtain ⟨horiginal, htype⟩ := withdrawnInput_mem hrow
  exact ⟨original, horiginal, heq, createdTypeOf_cases htype⟩

theorem mem_dependentsOf {evidenceId dependent : String} :
    dependent ∈ dependentsOf rows contents evidenceId ↔
      ∃ row ∈ rows, row.type = .evidenceCreated ∧ row.objectId = dependent
        ∧ ∃ references, groundingOf contents row = some references
          ∧ ∃ reference ∈ references, reference.evidenceId = evidenceId := by
  unfold dependentsOf
  constructor
  · intro h
    obtain ⟨row, hrow, hid⟩ := List.mem_map.mp h
    obtain ⟨hmem, hkeep⟩ := List.mem_filter.mp hrow
    simp only [Bool.and_eq_true, beq_iff_eq] at hkeep
    cases hg : groundingOf contents row with
    | none => simp [hg] at hkeep
    | some references => exact ⟨row, hmem, hkeep.1, hid, references, hg, by simpa [hg] using hkeep.2⟩
  · rintro ⟨row, hmem, htype, hid, references, hg, hreference⟩
    refine List.mem_map.mpr ⟨row, List.mem_filter.mpr ⟨hmem, ?_⟩, hid⟩
    simpa [htype, hg] using hreference

theorem dependentsOf_objects :
    ∀ x ∈ (rows.map (·.objectId)).toFinset, ∀ y ∈ dependentsOf rows contents x,
      y ∈ (rows.map (·.objectId)).toFinset := by
  intro x _ y hy
  obtain ⟨row, hrow, -, rfl, -⟩ := mem_dependentsOf.mp hy
  exact List.mem_toFinset.mpr (List.mem_map.mpr ⟨row, hrow, rfl⟩)

theorem invalidSeeds_objects :
    ∀ x ∈ invalidSeeds rows contents, x ∈ (rows.map (·.objectId)).toFinset := by
  have hobject : ∀ row ∈ rows, row.objectId ∈ (rows.map (·.objectId)).toFinset := fun row hrow =>
    List.mem_toFinset.mpr (List.mem_map.mpr ⟨row, hrow, rfl⟩)
  intro x hx
  rcases List.mem_append.mp hx with hx | hx
  · obtain ⟨original, hmem, rfl⟩ := List.mem_map.mp hx
    obtain ⟨row, -, hrow⟩ := List.mem_filterMap.mp (List.mem_filter.mp hmem).1
    exact hobject original (withdrawnInput_mem hrow).1
  · obtain ⟨row, hmem, rfl⟩ := List.mem_map.mp hx
    exact hobject row (List.mem_filter.mp hmem).1

theorem objects_le : (invalidSeeds rows contents).length + (rows.map (·.objectId)).toFinset.card
    ≤ (invalidSeeds rows contents).length + rows.length :=
  Nat.add_le_add_left ((List.toFinset_card_le _).trans (List.length_map _).le) _

theorem mem_invalidatedEvidence {evidenceId : String} :
    evidenceId ∈ invalidatedEvidence rows contents ↔
      Worklist.Reached (dependentsOf rows contents) (invalidSeeds rows contents) evidenceId :=
  Worklist.mem_closure dependentsOf_objects invalidSeeds_objects objects_le

theorem closure_invalidSeeds (more : Nat) :
    Worklist.closure (dependentsOf rows contents)
        ((invalidSeeds rows contents).length + rows.length + more) (invalidSeeds rows contents)
      = invalidatedEvidence rows contents := by
  refine Worklist.drain_add dependentsOf_objects invalidSeeds_objects ?_ more
  exact (Nat.add_le_add_left (Finset.card_le_card Finset.sdiff_subset) _).trans objects_le

end Exact

end Asimposium

/-!
## Invalidated evidence is a least fixed point

Whatever the references among the evidence, also cyclic and forward ones,
the traversal ends and what it invalidates is the least set that holds every
withdrawn or unusable input and whatever depends on a member. One more
withdrawal leaves every reference and every earlier withdrawal as it was, so
that it can only add to the set.
-/

namespace Asimposium

/-! ## The rule -/

section Rule

variable (rows : List ScientificRow) (contents : String → Option Payload)

inductive InvalidInput : String → Prop
  | withdrawn {row original : ScientificRow} (hrow : row ∈ rows)
      (hwithdrawn : withdrawnInput rows contents row = some original)
      (htype : original.type = .evidenceCreated) : InvalidInput original.objectId
  | unusable {row : ScientificRow} (hrow : row ∈ rows)
      (hinvalid : isInvalidEvidence rows contents row = true) : InvalidInput row.objectId

def DependsOn (dependent evidenceId : String) : Prop :=
  ∃ row ∈ rows, row.type = .evidenceCreated ∧ row.objectId = dependent
    ∧ ∃ references, groundingOf contents row = some references
      ∧ ∃ reference ∈ references, reference.evidenceId = evidenceId

structure ClosedInvalid (invalid : Set String) : Prop where
  inputs : ∀ evidenceId, InvalidInput rows contents evidenceId → evidenceId ∈ invalid
  dependents : ∀ dependent evidenceId, evidenceId ∈ invalid →
    DependsOn rows contents dependent evidenceId → dependent ∈ invalid

end Rule

variable {rows : List ScientificRow} {contents : String → Option Payload}

theorem mem_invalidSeeds {evidenceId : String} :
    evidenceId ∈ invalidSeeds rows contents ↔ InvalidInput rows contents evidenceId := by
  rw [invalidSeeds, List.mem_append]
  constructor
  · rintro (hseed | hseed)
    · obtain ⟨original, hmem, rfl⟩ := List.mem_map.mp hseed
      obtain ⟨hmem, htype⟩ := List.mem_filter.mp hmem
      obtain ⟨row, hrow, hwithdrawn⟩ := List.mem_filterMap.mp hmem
      exact .withdrawn hrow hwithdrawn (beq_iff_eq.mp htype)
    · obtain ⟨row, hmem, rfl⟩ := List.mem_map.mp hseed
      obtain ⟨hrow, hinvalid⟩ := List.mem_filter.mp hmem
      exact .unusable hrow hinvalid
  · rintro (@⟨row, original, hrow, hwithdrawn, htype⟩ | @⟨row, hrow, hinvalid⟩)
    · refine .inl (List.mem_map.mpr ⟨original, List.mem_filter.mpr ⟨?_, beq_iff_eq.mpr htype⟩, rfl⟩)
      exact List.mem_filterMap.mpr ⟨row, hrow, hwithdrawn⟩
    · exact .inr (List.mem_map.mpr ⟨row, List.mem_filter.mpr ⟨hrow, hinvalid⟩, rfl⟩)

theorem closedInvalid_invalidatedEvidence :
    ClosedInvalid rows contents { id | id ∈ invalidatedEvidence rows contents } where
  inputs := fun _ hinput => mem_invalidatedEvidence.mpr (.seed (mem_invalidSeeds.mpr hinput))
  dependents := fun _ _ hid hdepends =>
    mem_invalidatedEvidence.mpr ((mem_invalidatedEvidence.mp hid).step (mem_dependentsOf.mpr hdepends))

theorem ClosedInvalid.subset {invalid : Set String} (h : ClosedInvalid rows contents invalid) :
    ∀ id ∈ invalidatedEvidence rows contents, id ∈ invalid := by
  intro id hid
  induction mem_invalidatedEvidence.mp hid with
  | seed hseed => exact h.inputs _ (mem_invalidSeeds.mp hseed)
  | step hreached hnext ih =>
      exact h.dependents _ _ (ih (mem_invalidatedEvidence.mpr hreached)) (mem_dependentsOf.mp hnext)

/-! ## One more withdrawal -/

theorem find?_insert {α : Type} {p : α → Bool} {a : α} (h : p a = false) (before after : List α) :
    (before ++ a :: after).find? p = (before ++ after).find? p := by
  rw [List.find?_append, List.find?_append, List.find?_cons, h]

section OneMore

variable {before after : List ScientificRow} {row : ScientificRow}
  {contents' : String → Option Payload}

theorem rowOfEvent_insert {eventId : String} (h : row.eventId ≠ eventId) :
    rowOfEvent (before ++ row :: after) eventId = rowOfEvent (before ++ after) eventId := by
  rw [rowOfEvent, rowOfEvent, List.reverse_append, List.reverse_cons, List.append_assoc,
    List.singleton_append, List.reverse_append]
  refine find?_insert ?_ _ _
  exact decide_eq_false h

theorem evidenceRowOf_insert (h : row.type = .objectRetracted) (evidenceId : String) :
    evidenceRowOf (before ++ row :: after) evidenceId
      = evidenceRowOf (before ++ after) evidenceId := by
  have hother : (row.type == .evidenceCreated && decide (row.objectId = evidenceId)) = false := by
    rw [h]
    rfl
  rw [evidenceRowOf, evidenceRowOf, List.reverse_append, List.reverse_cons, List.append_assoc,
    List.singleton_append, List.reverse_append]
  refine find?_insert ?_ _ _
  exact hother

theorem evidenceRowOf_mem {evidenceId : String} {source : ScientificRow}
    (h : evidenceRowOf rows evidenceId = some source) : source ∈ rows :=
  List.mem_reverse.mp (List.mem_of_find?_eq_some h)

variable (hfresh : ∀ other ∈ before ++ after, other.eventId ≠ row.eventId)
  (hcontents : ∀ eventId, eventId ≠ row.eventId → contents' eventId = contents eventId)

include hfresh hcontents

theorem withdrawnInput_insert {other original : ScientificRow} (hother : other ∈ before ++ after)
    (h : withdrawnInput (before ++ after) contents other = some original) :
    withdrawnInput (before ++ row :: after) contents' other = some original := by
  unfold withdrawnInput at h ⊢
  split at h
  · rename_i eventId htype hwithdrawn
    split at h
    · cases h
    · rename_i hempty
      split at h
      · cases h
      · rename_i found hfound
        have hid : row.eventId ≠ eventId := by
          obtain ⟨hmem, rfl⟩ := rowOfEvent_mem hfound
          exact (hfresh found hmem).symm
        rw [if_neg hempty, rowOfEvent_insert hid, hfound]
        dsimp only
        rwa [withdraws, hcontents _ (hfresh other hother), ← withdraws]
  · cases h

theorem groundingOf_insert {other : ScientificRow} (hother : other ∈ before ++ after) :
    groundingOf contents' other = groundingOf contents other := by
  rw [groundingOf, groundingOf, hcontents _ (hfresh other hother)]

theorem referenceResolves_insert (htype : row.type = .objectRetracted) (other : ScientificRow)
    (reference : ScientificEvidenceReference) :
    referenceResolves (before ++ row :: after) contents' other reference
      = referenceResolves (before ++ after) contents other reference := by
  rw [referenceResolves, referenceResolves, evidenceRowOf_insert htype]
  cases hsource : evidenceRowOf (before ++ after) reference.evidenceId with
  | none => rfl
  | some source =>
      dsimp only
      rw [hcontents _ (hfresh source (evidenceRowOf_mem hsource))]

theorem invalidInput_insert (htype : row.type = .objectRetracted) {evidenceId : String}
    (h : InvalidInput (before ++ after) contents evidenceId) :
    InvalidInput (before ++ row :: after) contents' evidenceId := by
  have hmem : ∀ other ∈ before ++ after, other ∈ before ++ row :: after := by
    intro other hother
    rw [List.mem_append, List.mem_cons]
    exact (List.mem_append.mp hother).imp_right .inr
  cases h with
  | @withdrawn other original hother hwithdrawn horiginal =>
      exact .withdrawn (hmem other hother)
        (withdrawnInput_insert hfresh hcontents hother hwithdrawn) horiginal
  | @unusable other hother hinvalid =>
      refine .unusable (hmem other hother) ?_
      rw [isInvalidEvidence, groundingOf_insert hfresh hcontents hother]
      simp only [referenceResolves_insert hfresh hcontents htype]
      exact hinvalid

theorem dependsOn_insert {dependent evidenceId : String}
    (h : DependsOn (before ++ after) contents dependent evidenceId) :
    DependsOn (before ++ row :: after) contents' dependent evidenceId := by
  obtain ⟨other, hother, hevidence, hid, references, hgrounding, hreference⟩ := h
  refine ⟨other, ?_, hevidence, hid, references, ?_, hreference⟩
  · rw [List.mem_append, List.mem_cons]
    exact (List.mem_append.mp hother).imp_right .inr
  · rw [groundingOf_insert hfresh hcontents hother]
    exact hgrounding

end OneMore

/-! ## The fixed point -/

/-- The traversal ends, with the least closed set, and a withdrawal more
takes nothing out of it. -/
theorem invalidatedEvidence_least (rows : List ScientificRow)
    (contents : String → Option Payload) :
    (∀ more, Worklist.closure (dependentsOf rows contents)
        ((invalidSeeds rows contents).length + rows.length + more) (invalidSeeds rows contents)
          = invalidatedEvidence rows contents)
      ∧ IsLeast { invalid | ClosedInvalid rows contents invalid }
        { id | id ∈ invalidatedEvidence rows contents }
      ∧ ∀ before row after contents', before ++ after = rows → row.type = .objectRetracted →
        (∀ other ∈ rows, other.eventId ≠ row.eventId) →
        (∀ eventId, eventId ≠ row.eventId → contents' eventId = contents eventId) →
        invalidatedEvidence rows contents ⊆ invalidatedEvidence (before ++ row :: after) contents' := by
  refine ⟨?_, ⟨closedInvalid_invalidatedEvidence, fun invalid h => h.subset⟩, ?_⟩
  · intro more
    exact closure_invalidSeeds more
  · rintro before row after contents' rfl htype hfresh hcontents
    have hclosed : ClosedInvalid (before ++ after) contents
        { id | id ∈ invalidatedEvidence (before ++ row :: after) contents' } := by
      refine ⟨fun id hinput => ?_, fun dependent id hid hdepends => ?_⟩
      · exact closedInvalid_invalidatedEvidence.inputs id
          (invalidInput_insert hfresh hcontents htype hinput)
      · exact closedInvalid_invalidatedEvidence.dependents dependent id hid
          (dependsOn_insert hfresh hcontents hdepends)
    exact hclosed.subset

end Asimposium
