import Asimposium.Ledger.ScientificDisposition

/-!
# Withholding payloads

Content controls null the payload of a row and leave its envelope and
its immutable columns. `Withheld` relates a row to itself with or
without its payload, `Dimmed` says what a snapshot of withheld rows
still knows: nothing it could not read before, no ground it did not have
before, and every withdrawal it knew.

`Recorded` is what the store promises of the rows one query returns:
the order and the keys of the ledger, and columns that agree with the
payload they were computed from.
-/

namespace Asimposium

/-! ## Rows as recorded -/

/-- The projection columns of a row agree with its payload. -/
structure ColumnsMatch (row : ScientificRow) (payload : Payload) : Prop where
  refutation : row.type = .reviewCreated → payload.couldFail = true →
    isRefutingVerdict payload.verdict = true → row.weightedRefutation = true
  defect : row.type = .reviewCreated → payload.couldFail = true →
    (∃ entries, payload.rubric = some entries
      ∧ ("statement-defect" ∈ entries ∨ "statement-fails-review" ∈ entries)) →
    row.weightedStatementDefect = true
  negative : row.type = .reviewCreated →
    row.weightedRefutation = true ∨ row.weightedStatementDefect = true →
    isNegativeReview (some payload) = true
  retraction : row.type = .objectRetracted → row.retractionTarget = payload.targetObject

def DistinctVersions (rows : List ScientificRow) : Prop :=
  ∀ row ∈ rows, ∀ other ∈ rows, row.isPublication = true → other.isPublication = true →
    row.objectVersion = other.objectVersion → row = other

/-- The rows of one claim as the ledger holds them: its order, the primary
keys of its events, claim versions, reviews and evidence, and the columns
a query computes from what the writer recorded. -/
structure Recorded (reader : PayloadReader) (rows : List ScientificRow) : Prop where
  ordered : rows.Pairwise (·.seq < ·.seq)
  events : rows.Pairwise (·.eventId ≠ ·.eventId)
  objects : rows.Pairwise fun row other => row.type = other.type →
    row.type = .reviewCreated ∨ row.type = .evidenceCreated → row.objectId ≠ other.objectId
  versions : DistinctVersions rows
  positions : ∀ row ∈ rows, 1 ≤ row.seq ∧ isSafeInteger row.seq = true
    ∧ 1 ≤ row.targetVersion ∧ isSafeInteger row.targetVersion = true
  columns : ∀ row ∈ rows, ∀ payload, row.readable reader = some payload → ColumnsMatch row payload

def Withheld (row row' : ScientificRow) : Prop :=
  row' = row ∨ row' = { row with payloadJson := none }

/-! ## Look-ups -/

theorem lookup_iff {α β : Type} {l : List α} {p : α → Bool} {g : α → Option β} {b : β}
    (hunique : ∀ x ∈ l, ∀ y ∈ l, p x = true → p y = true → x = y) :
    (l.reverse.findSome? fun x => if p x then g x else none) = some b ↔
      ∃ x ∈ l, p x = true ∧ g x = some b := by
  constructor
  · intro h
    obtain ⟨x, hx, hb⟩ := List.exists_of_findSome?_eq_some h
    split at hb
    · exact ⟨x, List.mem_reverse.mp hx, ‹_›, hb⟩
    · cases hb
  · rintro ⟨x, hx, hp, hb⟩
    cases hfind : l.reverse.findSome? fun x => if p x then g x else none with
    | none =>
        have hnone := List.findSome?_eq_none_iff.mp hfind x (List.mem_reverse.mpr hx)
        rw [if_pos hp, hb] at hnone
        cases hnone
    | some c =>
        obtain ⟨y, hy, hc⟩ := List.exists_of_findSome?_eq_some hfind
        split at hc
        · rename_i hpy
          rw [hunique x hx y (List.mem_reverse.mp hy) hp hpy] at hb
          exact hc.symm.trans hb
        · cases hc

theorem eq_of_pairwise {α : Type} {R : α → α → Prop} {l : List α} (h : l.Pairwise R) {x y : α}
    (hx : x ∈ l) (hy : y ∈ l) (hxy : ¬ R x y) (hyx : ¬ R y x) : x = y := by
  by_contra hne
  rcases List.pairwise_iff_getElem.mp h with hpair
  obtain ⟨i, hi, rfl⟩ := List.getElem_of_mem hx
  obtain ⟨j, hj, rfl⟩ := List.getElem_of_mem hy
  rcases Nat.lt_trichotomy i j with hlt | rfl | hlt
  · exact hxy (hpair i j hi hj hlt)
  · exact hne rfl
  · exact hyx (hpair j i hj hi hlt)

namespace Withheld

variable {row row' : ScientificRow}

theorem readable (h : Withheld row row') {reader : PayloadReader} {payload : Payload}
    (hread : row'.readable reader = some payload) : row.readable reader = some payload := by
  rcases h with rfl | rfl
  · exact hread
  · cases hread

theorem eventId (h : Withheld row row') : row'.eventId = row.eventId := by
  rcases h with rfl | rfl <;> rfl

theorem seq (h : Withheld row row') : row'.seq = row.seq := by
  rcases h with rfl | rfl <;> rfl

theorem type (h : Withheld row row') : row'.type = row.type := by
  rcases h with rfl | rfl <;> rfl

theorem objectId (h : Withheld row row') : row'.objectId = row.objectId := by
  rcases h with rfl | rfl <;> rfl

theorem objectVersion (h : Withheld row row') : row'.objectVersion = row.objectVersion := by
  rcases h with rfl | rfl <;> rfl

theorem isPublication (h : Withheld row row') : row'.isPublication = row.isPublication := by
  rcases h with rfl | rfl <;> rfl

end Withheld

section Pointwise

variable {rows rows' : List ScientificRow} (h : List.Forall₂ Withheld rows rows')
include h

theorem Withheld.mem_left {row' : ScientificRow} (hmem : row' ∈ rows') :
    ∃ row ∈ rows, Withheld row row' := by
  induction h with
  | nil => cases hmem
  | cons hhead htail ih =>
      rcases List.mem_cons.mp hmem with rfl | hmem
      · exact ⟨_, List.mem_cons_self .., hhead⟩
      · obtain ⟨row, hrow, hwithheld⟩ := ih hmem
        exact ⟨row, List.mem_cons_of_mem _ hrow, hwithheld⟩

theorem Withheld.mem_right {row : ScientificRow} (hmem : row ∈ rows) :
    ∃ row' ∈ rows', Withheld row row' := by
  induction h with
  | nil => cases hmem
  | cons hhead htail ih =>
      rcases List.mem_cons.mp hmem with rfl | hmem
      · exact ⟨_, List.mem_cons_self .., hhead⟩
      · obtain ⟨row', hrow', hwithheld⟩ := ih hmem
        exact ⟨row', List.mem_cons_of_mem _ hrow', hwithheld⟩

theorem Withheld.find? {p : ScientificRow → Bool} (hp : ∀ row row', Withheld row row' → p row' = p row) :
    Option.Rel Withheld (rows.find? p) (rows'.find? p) := by
  induction h with
  | nil => exact .none
  | cons hhead htail ih =>
      rw [List.find?_cons, List.find?_cons, hp _ _ hhead]
      split
      · exact .some hhead
      · exact ih

theorem Withheld.filter {p : ScientificRow → Bool} (hp : ∀ row row', Withheld row row' → p row' = p row) :
    List.Forall₂ Withheld (rows.filter p) (rows'.filter p) := by
  induction h with
  | nil => exact .nil
  | cons hhead htail ih =>
      rw [List.filter_cons, List.filter_cons, hp _ _ hhead]
      split
      · exact .cons hhead ih
      · exact ih

theorem Withheld.getLast? : Option.Rel Withheld rows.getLast? rows'.getLast? := by
  rw [List.getLast?_eq_head?_reverse, List.getLast?_eq_head?_reverse]
  have hreverse := List.rel_reverse h
  generalize rows.reverse = left at hreverse ⊢
  generalize rows'.reverse = right at hreverse ⊢
  cases hreverse with
  | nil => exact .none
  | cons hhead _ => exact .some hhead

theorem Withheld.pairwise {R : ScientificRow → ScientificRow → Prop} (hpair : rows.Pairwise R)
    (hR : ∀ row row' other other', Withheld row row' → Withheld other other' → R row other →
      R row' other') : rows'.Pairwise R := by
  induction h with
  | nil => exact .nil
  | cons hhead htail ih =>
      rw [List.pairwise_cons] at hpair ⊢
      refine ⟨fun other' hother' => ?_, ih hpair.2⟩
      obtain ⟨other, hother, hwithheld⟩ := Withheld.mem_left htail hother'
      exact hR _ _ _ _ hhead hwithheld (hpair.1 other hother)

end Pointwise

/-! ## What a snapshot of withheld rows still knows -/

/-- Nothing is read that was not read before, no ground is gained, and
every withdrawal is kept. -/
structure Dimmed (s s' : Snapshot) : Prop where
  reader : s'.reader = s.reader
  contents : ∀ eventId payload, s'.contents eventId = some payload →
    s.contents eventId = some payload
  claimAt : ∀ version claim, s'.claimAt version = some claim → s.claimAt version = some claim
  evidenceAt : ∀ evidenceId item, s'.evidenceAt evidenceId = some item →
    s.evidenceAt evidenceId = some item
  withdrawn : s.withdrawn ⊆ s'.withdrawn
  invalidated : s.invalidated ⊆ s'.invalidated
  head : s'.head = s.head
  originalAuthor : s'.originalAuthor = s.originalAuthor

section Contents

variable {reader : PayloadReader} {rows rows' : List ScientificRow}

theorem contentOf_iff (hevents : rows.Pairwise (·.eventId ≠ ·.eventId)) {eventId : String}
    {payload : Payload} :
    contentOf reader rows eventId = some payload ↔
      ∃ row ∈ rows, row.eventId = eventId ∧ row.readable reader = some payload := by
  have hlookup := lookup_iff (l := rows) (p := fun row => decide (row.eventId = eventId))
    (g := fun row => row.readable reader) (b := payload) ?_
  · simpa [contentOf] using hlookup
  · intro x hx y hy hpx hpy
    have hsame : x.eventId = y.eventId := (of_decide_eq_true hpx).trans (of_decide_eq_true hpy).symm
    exact eq_of_pairwise hevents hx hy (not_not.mpr hsame) (not_not.mpr hsame.symm)

theorem contentOf_row (hevents : rows.Pairwise (·.eventId ≠ ·.eventId)) {row : ScientificRow}
    (hrow : row ∈ rows) : contentOf reader rows row.eventId = row.readable reader := by
  refine Option.ext fun payload => ?_
  rw [contentOf_iff hevents]
  constructor
  · rintro ⟨other, hother, hid, hread⟩
    rwa [← eq_of_pairwise hevents hother hrow (not_not.mpr hid) (not_not.mpr hid.symm)]
  · exact fun hread => ⟨row, hrow, rfl, hread⟩

theorem contentOf_withheld (h : List.Forall₂ Withheld rows rows')
    (hevents : rows.Pairwise (·.eventId ≠ ·.eventId)) {eventId : String} {payload : Payload}
    (hcontent : contentOf reader rows' eventId = some payload) :
    contentOf reader rows eventId = some payload := by
  have hevents' : rows'.Pairwise (·.eventId ≠ ·.eventId) :=
    Withheld.pairwise h hevents fun _ _ _ _ h₁ h₂ hne => by rwa [h₁.eventId, h₂.eventId]
  obtain ⟨row', hrow', hid, hread⟩ := (contentOf_iff hevents').mp hcontent
  obtain ⟨row, hrow, hwithheld⟩ := Withheld.mem_left h hrow'
  exact (contentOf_iff hevents).mpr
    ⟨row, hrow, hwithheld.eventId.symm.trans hid, hwithheld.readable hread⟩

end Contents

section Effects

variable {rows rows' : List ScientificRow} {contents contents' : String → Option Payload}
  (h : List.Forall₂ Withheld rows rows')
  (hcontents : ∀ eventId payload, contents' eventId = some payload →
    contents eventId = some payload)
include h hcontents

omit h in
theorem withdraws_withheld {row row' original original' : ScientificRow}
    (hrow : Withheld row row') (horiginal : Withheld original original')
    (hwithdraws : withdraws contents row original = true) :
    withdraws contents' row' original' = true := by
  have henvelope : withdrawalMatches row' original' = withdrawalMatches row original := by
    rcases hrow with rfl | rfl <;> rcases horiginal with rfl | rfl <;> rfl
  have hwitness : ∀ payload, withdrawalWitnessed row' original' payload
      = withdrawalWitnessed row original payload := by
    intro payload
    rcases hrow with rfl | rfl <;> rcases horiginal with rfl | rfl <;> rfl
  unfold withdraws at hwithdraws ⊢
  rw [Bool.and_eq_true] at hwithdraws ⊢
  refine ⟨henvelope.trans hwithdraws.1, ?_⟩
  cases hread : contents' row'.eventId with
  | none => rfl
  | some payload =>
      have hfull := hcontents _ _ hread
      rw [hrow.eventId] at hfull
      have hfullWitness := hwithdraws.2
      rw [hfull] at hfullWitness
      exact (hwitness payload).trans hfullWitness

theorem withdrawnInput_withheld {row row' original : ScientificRow} (hrow : Withheld row row')
    (hinput : withdrawnInput rows contents row = some original) :
    ∃ original', withdrawnInput rows' contents' row' = some original'
      ∧ Withheld original original' := by
  have htype := hrow.type
  have hwithdrawn : row'.withdrawnEventId = row.withdrawnEventId := by
    rcases hrow with rfl | rfl <;> rfl
  unfold withdrawnInput at hinput ⊢
  rw [htype, hwithdrawn]
  split at hinput
  · split at hinput
    · cases hinput
    · rename_i eventId _ _ hne
      rw [if_neg hne]
      have hfound : Option.Rel Withheld (rowOfEvent rows eventId) (rowOfEvent rows' eventId) :=
        Withheld.find? (List.rel_reverse h) fun _ _ hw => by rw [hw.eventId]
      split at hinput
      · cases hinput
      · rename_i found hrowOf
        rw [hrowOf] at hfound
        generalize hrowOf' : rowOfEvent rows' eventId = found' at hfound ⊢
        cases hfound with
        | some hw =>
            rename_i found'
            split at hinput
            · rename_i hyes
              cases hinput
              refine ⟨found', ?_, hw⟩
              dsimp only
              rw [if_pos (withdraws_withheld hcontents hrow hw hyes)]
            · cases hinput
  · cases hinput

theorem withdrawnInputs_withheld {original : ScientificRow}
    (hmem : original ∈ withdrawnInputs rows contents) :
    ∃ original' ∈ withdrawnInputs rows' contents', Withheld original original' := by
  obtain ⟨row, hrow, hinput⟩ := List.mem_filterMap.mp hmem
  obtain ⟨row', hrow', hwithheld⟩ := Withheld.mem_right h hrow
  obtain ⟨original', hinput', horiginal⟩ := withdrawnInput_withheld h hcontents hwithheld hinput
  exact ⟨original', List.mem_filterMap.mpr ⟨row', hrow', hinput'⟩, horiginal⟩

theorem withdrawnEvents_withheld :
    withdrawnEvents rows contents ⊆ withdrawnEvents rows' contents' := by
  intro eventId hmem
  obtain ⟨original, horiginal, rfl⟩ := List.mem_map.mp hmem
  obtain ⟨original', hmem', hwithheld⟩ := withdrawnInputs_withheld h hcontents horiginal
  exact List.mem_map.mpr ⟨original', hmem', hwithheld.eventId⟩

omit h in
theorem groundingOf_withheld {row row' : ScientificRow} (hrow : Withheld row row')
    {references : List ScientificEvidenceReference}
    (hgrounding : groundingOf contents' row' = some references) :
    groundingOf contents row = some references := by
  unfold groundingOf at hgrounding ⊢
  cases hread : contents' row'.eventId with
  | none => rw [hread] at hgrounding; cases hgrounding
  | some payload =>
      rw [hread] at hgrounding
      have hfull := hcontents _ _ hread
      rw [hrow.eventId] at hfull
      rw [hfull]
      exact hgrounding

theorem referenceResolves_withheld {row row' : ScientificRow} (hrow : Withheld row row')
    {reference : ScientificEvidenceReference}
    (hresolves : referenceResolves rows' contents' row' reference = true) :
    referenceResolves rows contents row reference = true := by
  have hsource : Option.Rel Withheld (evidenceRowOf rows reference.evidenceId)
      (evidenceRowOf rows' reference.evidenceId) :=
    Withheld.find? (List.rel_reverse h) fun _ _ hw => by rw [hw.type, hw.objectId]
  unfold referenceResolves at hresolves ⊢
  generalize evidenceRowOf rows' reference.evidenceId = source' at hsource hresolves
  generalize evidenceRowOf rows reference.evidenceId = source at hsource ⊢
  cases hsource with
  | none => cases hresolves
  | some hw =>
      rename_i source source'
      dsimp only at hresolves ⊢
      cases hread : contents' source'.eventId with
      | none => rw [hread] at hresolves; cases hresolves
      | some body =>
          have hfull := hcontents _ _ hread
          rw [hw.eventId] at hfull
          rw [hread] at hresolves
          rw [hfull]
          rcases hrow with rfl | rfl <;> rcases hw with rfl | rfl <;> exact hresolves

theorem isInvalidEvidence_withheld {row row' : ScientificRow} (hrow : Withheld row row')
    (hinvalid : isInvalidEvidence rows contents row = true) :
    isInvalidEvidence rows' contents' row' = true := by
  unfold isInvalidEvidence at hinvalid ⊢
  rw [Bool.and_eq_true] at hinvalid ⊢
  refine ⟨by rw [hrow.type]; exact hinvalid.1, ?_⟩
  cases hgrounding : groundingOf contents' row' with
  | none => rfl
  | some references =>
      have hfull := hinvalid.2
      rw [groundingOf_withheld hcontents hrow hgrounding] at hfull
      obtain ⟨reference, hreference, hunresolved⟩ := List.any_eq_true.mp hfull
      refine List.any_eq_true.mpr ⟨reference, hreference, ?_⟩
      cases hresolves : referenceResolves rows' contents' row' reference with
      | false => rfl
      | true =>
          rw [referenceResolves_withheld h hcontents hrow hresolves] at hunresolved
          cases hunresolved

theorem invalidSeeds_withheld : invalidSeeds rows contents ⊆ invalidSeeds rows' contents' := by
  intro evidenceId hmem
  rcases List.mem_append.mp hmem with hmem | hmem
  · obtain ⟨original, horiginal, rfl⟩ := List.mem_map.mp hmem
    obtain ⟨horiginal, htype⟩ := List.mem_filter.mp horiginal
    obtain ⟨original', hmem', hwithheld⟩ := withdrawnInputs_withheld h hcontents horiginal
    refine List.mem_append_left _ (List.mem_map.mpr ⟨original', List.mem_filter.mpr ⟨hmem', ?_⟩,
      hwithheld.objectId⟩)
    rw [hwithheld.type]
    exact htype
  · obtain ⟨row, hrow, rfl⟩ := List.mem_map.mp hmem
    obtain ⟨hrow, hinvalid⟩ := List.mem_filter.mp hrow
    obtain ⟨row', hrow', hwithheld⟩ := Withheld.mem_right h hrow
    exact List.mem_append_right _ (List.mem_map.mpr ⟨row', List.mem_filter.mpr
      ⟨hrow', isInvalidEvidence_withheld h hcontents hwithheld hinvalid⟩, hwithheld.objectId⟩)

/-- Evidence that loses its payload is invalid itself; the rest keeps its
references, so what derives from invalid evidence stays invalid. -/
theorem invalidatedEvidence_withheld :
    invalidatedEvidence rows contents ⊆ invalidatedEvidence rows' contents' := by
  intro evidenceId hmem
  have hreached := mem_invalidatedEvidence.mp hmem
  induction hreached with
  | seed hseed => exact mem_invalidatedEvidence.mpr (.seed (invalidSeeds_withheld h hcontents hseed))
  | step hsource hnext ih =>
      have hbefore := mem_invalidatedEvidence.mp (ih (mem_invalidatedEvidence.mpr hsource))
      refine mem_invalidatedEvidence.mpr ?_
      obtain ⟨row, hrow, htype, rfl, references, hgrounding, hreference⟩ := mem_dependentsOf.mp hnext
      obtain ⟨row', hrow', hwithheld⟩ := Withheld.mem_right h hrow
      rw [← hwithheld.objectId]
      cases hgrounding' : groundingOf contents' row' with
      | none =>
          refine .seed (List.mem_append_right _ (List.mem_map.mpr ⟨row', List.mem_filter.mpr
            ⟨hrow', ?_⟩, rfl⟩))
          simp [isInvalidEvidence, hgrounding', hwithheld.type, htype]
      | some references' =>
          have hsame := groundingOf_withheld hcontents hwithheld hgrounding'
          rw [hgrounding] at hsame
          cases hsame
          exact hbefore.step (mem_dependentsOf.mpr
            ⟨row', hrow', hwithheld.type.trans htype, rfl, references, hgrounding', hreference⟩)

end Effects

section Snapshots

variable {reader : ScientificReader} {rows rows' : List ScientificRow}

theorem DistinctVersions.withheld (h : List.Forall₂ Withheld rows rows')
    (hevents : rows.Pairwise (·.eventId ≠ ·.eventId)) (hversions : DistinctVersions rows) :
    DistinctVersions rows' := by
  intro row' hrow' other' hother' hpub hpub' hsame
  obtain ⟨row, hrow, hwithheld⟩ := Withheld.mem_left h hrow'
  obtain ⟨other, hother, hwithheld'⟩ := Withheld.mem_left h hother'
  rw [hwithheld.isPublication] at hpub
  rw [hwithheld'.isPublication] at hpub'
  rw [hwithheld.objectVersion, hwithheld'.objectVersion] at hsame
  have heq := hversions row hrow other hother hpub hpub' hsame
  have hevents' : rows'.Pairwise (·.eventId ≠ ·.eventId) :=
    Withheld.pairwise h hevents fun _ _ _ _ h₁ h₂ hne => by rwa [h₁.eventId, h₂.eventId]
  have hid : row'.eventId = other'.eventId := by
    rw [hwithheld.eventId, hwithheld'.eventId, heq]
  exact eq_of_pairwise hevents' hrow' hother' (not_not.mpr hid) (not_not.mpr hid.symm)

theorem claimAt_iff (hversions : DistinctVersions rows) {version : Int} {claim : ScientificClaim} :
    (Snapshot.mk reader rows).claimAt version = some claim ↔
      ∃ row ∈ rows, row.isPublication = true ∧ row.objectVersion = version
        ∧ (Snapshot.mk reader rows).publishedClaim row = some claim := by
  have hlookup := lookup_iff (l := rows)
    (p := fun row => row.isPublication && row.objectVersion == version)
    (g := (Snapshot.mk reader rows).publishedClaim) (b := claim) ?_
  · simpa [Snapshot.claimAt, and_assoc] using hlookup
  · intro x hx y hy hpx hpy
    simp only [Bool.and_eq_true, beq_iff_eq] at hpx hpy
    exact hversions x hx y hy hpx.1 hpy.1 (hpx.2.trans hpy.2.symm)

theorem publishedClaim_withheld {row row' : ScientificRow} (hrow : Withheld row row')
    {claim : ScientificClaim}
    (hclaim : (Snapshot.mk reader rows').publishedClaim row' = some claim) :
    (Snapshot.mk reader rows).publishedClaim row = some claim := by
  rcases hrow with rfl | rfl
  · exact hclaim
  · cases hclaim

theorem publishedEvidence_withheld {row row' : ScientificRow} (hrow : Withheld row row')
    {item : ScientificEvidence}
    (hitem : (Snapshot.mk reader rows').publishedEvidence row' = some item) :
    (Snapshot.mk reader rows).publishedEvidence row = some item := by
  rcases hrow with rfl | rfl
  · exact hitem
  · cases hitem

theorem evidenceRows_iff
    (hobjects : rows.Pairwise fun row other => row.type = other.type →
      row.type = .reviewCreated ∨ row.type = .evidenceCreated → row.objectId ≠ other.objectId)
    {evidenceId : String} {item : ScientificEvidence} :
    (rows.reverse.findSome? fun row =>
        if row.type == .evidenceCreated && row.objectId == evidenceId then
          (Snapshot.mk reader rows).publishedEvidence row else none) = some item ↔
      ∃ row ∈ rows, (row.type == .evidenceCreated && row.objectId == evidenceId) = true
        ∧ (Snapshot.mk reader rows).publishedEvidence row = some item := by
  refine lookup_iff ?_
  intro x hx y hy hpx hpy
  simp only [Bool.and_eq_true, beq_iff_eq] at hpx hpy
  refine eq_of_pairwise hobjects hx hy (fun hne => ?_) fun hne => ?_
  · exact hne (hpx.1.trans hpy.1.symm) (.inr hpx.1) (hpx.2.trans hpy.2.symm)
  · exact hne (hpy.1.trans hpx.1.symm) (.inr hpy.1) (hpy.2.trans hpx.2.symm)

theorem Withheld.dimmed (h : List.Forall₂ Withheld rows rows')
    (hrecorded : Recorded reader.toPayloadReader rows) :
    Dimmed ⟨reader, rows⟩ ⟨reader, rows'⟩ := by
  have hcontents : ∀ eventId payload, (Snapshot.mk reader rows').contents eventId = some payload →
      (Snapshot.mk reader rows).contents eventId = some payload :=
    fun _ _ => contentOf_withheld h hrecorded.events
  have hinvalidated : (Snapshot.mk reader rows).invalidated
      ⊆ (Snapshot.mk reader rows').invalidated := invalidatedEvidence_withheld h hcontents
  have hobjects' := Withheld.pairwise h hrecorded.objects
    (R := fun row other => row.type = other.type →
      row.type = .reviewCreated ∨ row.type = .evidenceCreated → row.objectId ≠ other.objectId)
    fun _ _ _ _ h₁ h₂ hne => by rwa [h₁.type, h₂.type, h₁.objectId, h₂.objectId]
  have hhead : Option.Rel Withheld (Snapshot.mk reader rows).headPublication
      (Snapshot.mk reader rows').headPublication :=
    Withheld.getLast? (Withheld.filter h fun _ _ hw => hw.isPublication)
  refine ⟨rfl, hcontents, ?_, ?_, withdrawnEvents_withheld h hcontents, hinvalidated, ?_, ?_⟩
  · intro version claim hclaim
    obtain ⟨row', hrow', hpub, hversion, hpublished⟩ :=
      (claimAt_iff (hrecorded.versions.withheld h hrecorded.events)).mp hclaim
    obtain ⟨row, hrow, hwithheld⟩ := Withheld.mem_left h hrow'
    exact (claimAt_iff hrecorded.versions).mpr ⟨row, hrow, hwithheld.isPublication.symm.trans hpub,
      hwithheld.objectVersion.symm.trans hversion, publishedClaim_withheld hwithheld hpublished⟩
  · intro evidenceId item hitem
    unfold Snapshot.evidenceAt at hitem ⊢
    split at hitem
    · cases hitem
    · rename_i hvalid
      rw [if_neg fun hmem => hvalid (List.contains_iff_mem.mpr
        (hinvalidated (List.contains_iff_mem.mp hmem)))]
      obtain ⟨row', hrow', hkey, hpublished⟩ := (evidenceRows_iff hobjects').mp hitem
      obtain ⟨row, hrow, hwithheld⟩ := Withheld.mem_left h hrow'
      rw [hwithheld.type, hwithheld.objectId] at hkey
      exact (evidenceRows_iff hrecorded.objects).mpr
        ⟨row, hrow, hkey, publishedEvidence_withheld hwithheld hpublished⟩
  · unfold Snapshot.head
    generalize (Snapshot.mk reader rows).headPublication = head at hhead ⊢
    generalize (Snapshot.mk reader rows').headPublication = head' at hhead ⊢
    cases hhead with
    | none => rfl
    | some hw => exact congrArg some hw.objectVersion
  · have hauthor := Withheld.find? h
      (p := fun row => row.type == .claimCreated && row.objectVersion == 1)
      fun _ _ hw => by rw [hw.type, hw.objectVersion]
    unfold Snapshot.originalAuthor
    dsimp only
    generalize rows.find? (fun row => row.type == .claimCreated && row.objectVersion == 1)
      = author at hauthor ⊢
    generalize rows'.find? (fun row => row.type == .claimCreated && row.objectVersion == 1)
      = author' at hauthor ⊢
    cases hauthor with
    | none => rfl
    | some hw =>
        rcases hw with rfl | rfl <;> rfl

end Snapshots

end Asimposium
