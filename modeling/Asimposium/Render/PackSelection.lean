import Asimposium.Render.PackAssertions
import Asimposium.Render.PackEstimate
import Asimposium.Render.Neutralize

/-!
# Prefixes of the visible candidates

Selection only ever holds a prefix of the visible candidates, as the items
they make. For an accepted draft every such prefix renders, and its
estimate is a matter of three numbers: the bytes of its face, the sum of
its item estimates and the estimate of the empty envelope.
-/

namespace Asimposium

open Text Json ExceptRun

/-! ## The item of a candidate -/

/-- The estimate `wholeItemTokenUpperBound` settles on. -/
def wholeItemTokens (sanitizer : Sanitizer) (candidate : PackCandidate) : Nat :=
  match wholeItemTokenUpperBound sanitizer candidate candidate.tokens.toNat with
  | .ok tokens => tokens
  | .error _ => 0

def packItem (sanitizer : Sanitizer) (candidate : PackCandidate) : ComposedPackItem where
  kind := candidate.kind
  id := candidate.id
  scope := candidate.scope
  tokens := wholeItemTokens sanitizer candidate
  untrusted := candidate.untrusted
  body := candidate.body
  whyIncluded := candidate.whyIncluded
  screeningNotice := candidate.screeningNotice

section Item

variable {sanitizer : Sanitizer} {candidate : PackCandidate}

theorem wholeItemTokenUpperBound_eq (sanitizer : Sanitizer) (candidate : PackCandidate) :
    wholeItemTokenUpperBound sanitizer candidate candidate.tokens.toNat
      = .ok (wholeItemTokens sanitizer candidate) := by
  obtain ⟨tokens, htokens, _⟩ :=
    wholeItemTokenUpperBound_ok sanitizer candidate candidate.tokens.toNat
  rw [wholeItemTokens, htokens]

theorem le_wholeItemTokens (sanitizer : Sanitizer) (candidate : PackCandidate) :
    candidate.tokens.toNat ≤ wholeItemTokens sanitizer candidate := by
  obtain ⟨tokens, htokens, hle, _⟩ :=
    wholeItemTokenUpperBound_ok sanitizer candidate candidate.tokens.toNat
  rw [wholeItemTokens, htokens]
  exact hle

theorem preparedFaceItemObject_size_eq (haccepted : CandidateAccepted sanitizer candidate)
    (gap indent : Nat) :
    size gap indent
        (preparedFaceItemObject sanitizer candidate (wholeItemTokens sanitizer candidate))
      = size gap indent
        (preparedItem sanitizer (packItem sanitizer candidate).toProjectionItem).toJson := by
  have hnotice : candidate.untrusted = false → candidate.screeningNotice = none := by
    intro hflag
    rcases haccepted.notice with hnone | hscope
    · exact Option.isNone_iff_eq_none.mp hnone
    · have hsystem := haccepted.trust.mpr hflag
      rw [hscope] at hsystem
      cases hsystem
  cases hflag : candidate.untrusted with
  | true =>
      simp only [preparedFaceItemObject, PreparedItem.toJson, preparedItem, packItem,
        ComposedPackItem.toProjectionItem, hflag, if_true]
      refine size_obj_perm gap indent ?_
      rw [List.append_assoc, List.append_assoc _ (member? _ _) _]
      exact List.Perm.append_left _ List.perm_append_comm
  | false =>
      simp only [preparedFaceItemObject, PreparedItem.toJson, preparedItem, packItem,
        ComposedPackItem.toProjectionItem, hflag, Bool.false_eq_true, if_false, hnotice hflag]
      refine size_obj_perm gap indent ?_
      rw [List.append_assoc, List.append_assoc _ (member? _ _) _]
      exact List.Perm.append_left _ List.perm_append_comm

theorem composeItem_eq (haccepted : CandidateAccepted sanitizer candidate) :
    composeItem sanitizer candidate
      = .ok (packItem sanitizer candidate, itemSize sanitizer (packItem sanitizer candidate)) := by
  have hdelta : ∀ value : Json, byteLength (stableStringify value 2)
      + 4 * countNewlines (stableStringify value 2) = size 2 4 value := by
    intro value
    rw [stableStringify, ← size_shifted (by decide), size_sorted]
  rw [composeItem, wholeItemTokenUpperBound_eq]
  change Except.ok (packItem sanitizer candidate, _) = _
  rw [hdelta, preparedFaceItemObject_size_eq haccepted]
  rfl

theorem CandidateAccepted.listed (haccepted : CandidateAccepted sanitizer candidate) :
    ItemListed sanitizer (packItem sanitizer candidate).toProjectionItem where
  id := haccepted.id.2.1
  idSafe := haccepted.id.2.2
  accepted :=
    { body := haccepted.body.2.1
      kind := haccepted.kind.2
      trust := haccepted.trust
      shown := fun _ => haccepted.body.2.2
      raw := haccepted.raw }

theorem CandidateAccepted.one_le_tokens (haccepted : CandidateAccepted sanitizer candidate) :
    1 ≤ (packItem sanitizer candidate).tokens := by
  have hle := le_wholeItemTokens sanitizer candidate
  have htokens := haccepted.tokens.2
  change 1 ≤ wholeItemTokens sanitizer candidate
  omega

end Item

/-! ## Accepted drafts -/

def OmittedAccepted (unicode : Unicode) (omitted : List OmittedEntry) : Prop :=
  ∀ entry ∈ omitted, ProseText unicode entry.reason ∧ ∀ detail ∈ entry.detail,
    ProseText unicode detail

theorem hasAsimpControlComment_plain (unicode : Unicode) {t : Text} (h : unit '<' ∉ t) :
    hasAsimpControlComment unicode t = false := by
  have happend := hasAsimpControlComment_append unicode (t := []) h
  rw [List.append_nil] at happend
  exact happend

theorem omission_accepted (unicode : Unicode) {reason : String} (hscalar : ScalarText (text reason))
    (hplain : unit '<' ∉ text reason) : OmittedAccepted unicode [omission reason] := by
  intro entry hentry
  obtain rfl := List.mem_singleton.mp hentry
  exact ⟨⟨hscalar, hasAsimpControlComment_plain unicode hplain⟩, fun _ h => nomatch h⟩

theorem budgetExceeded_accepted (unicode : Unicode) :
    OmittedAccepted unicode [omission "budget_exceeded"] :=
  omission_accepted unicode ⟨by decide, by decide⟩ (by decide)

theorem noItems_accepted (unicode : Unicode) :
    OmittedAccepted unicode [omission "no_items_available"] :=
  omission_accepted unicode ⟨by decide, by decide⟩ (by decide)

theorem OmittedAccepted.append {unicode : Unicode} {omitted omitted' : List OmittedEntry}
    (h : OmittedAccepted unicode omitted) (h' : OmittedAccepted unicode omitted') :
    OmittedAccepted unicode (omitted ++ omitted') := by
  intro entry hentry
  rcases List.mem_append.mp hentry with hmem | hmem
  · exact h entry hmem
  · exact h' entry hmem

theorem OmittedAccepted.marked {unicode : Unicode} {omitted : List OmittedEntry}
    (h : OmittedAccepted unicode omitted) : OmittedAccepted unicode (markedOmitted omitted) := by
  unfold markedOmitted
  split
  · exact budgetExceeded_accepted unicode
  · exact h

theorem markedOmitted_ne_nil (omitted : List OmittedEntry) : markedOmitted omitted ≠ [] := by
  unfold markedOmitted
  split
  · exact List.cons_ne_nil _ _
  · rename_i h
    exact fun hnil => h (List.isEmpty_iff.mpr hnil)

structure DraftAccepted (renderer : Renderer) (draft : Draft) : Prop where
  envelope : PackAccepted renderer (draft.contentsWith [] [omission "budget_exceeded"])
  omitted : OmittedAccepted renderer.toUnicode draft.staticOmitted
  candidates : ∀ candidate ∈ draft.visible, CandidateAccepted renderer.toSanitizer candidate
  ids : (draft.visible.map (·.id)).Nodup

def prefixItems (sanitizer : Sanitizer) (draft : Draft) (count : Nat) : List ComposedPackItem :=
  (draft.visible.take count).map (packItem sanitizer)

section Accepted

variable {renderer : Renderer} {draft : Draft}

theorem prefixItems_zero (sanitizer : Sanitizer) (draft : Draft) :
    prefixItems sanitizer draft 0 = [] := rfl

theorem prefixItems_length (sanitizer : Sanitizer) {count : Nat}
    (h : count ≤ draft.visible.length) : (prefixItems sanitizer draft count).length = count := by
  simp [prefixItems, h]

theorem mem_prefixItems {item : ComposedPackItem} {count : Nat}
    (h : item ∈ prefixItems renderer.toSanitizer draft count) :
    ∃ candidate ∈ draft.visible, packItem renderer.toSanitizer candidate = item := by
  obtain ⟨candidate, hcandidate, rfl⟩ := List.mem_map.mp h
  exact ⟨candidate, List.mem_of_mem_take hcandidate, rfl⟩

theorem DraftAccepted.pack (h : DraftAccepted renderer draft) (count : Nat)
    {omitted : List OmittedEntry} (homitted : OmittedAccepted renderer.toUnicode omitted)
    (hne : prefixItems renderer.toSanitizer draft count ≠ [] ∨ omitted ≠ []) :
    PackAccepted renderer
      (draft.contentsWith (prefixItems renderer.toSanitizer draft count) omitted) where
  viewer := h.envelope.viewer
  provenance := h.envelope.provenance
  slowMode := h.envelope.slowMode
  wellSpelled :=
    { header := h.envelope.wellSpelled.header
      title := h.envelope.wellSpelled.title
      preamble := h.envelope.wellSpelled.preamble
      session := h.envelope.wellSpelled.session
      permissions := h.envelope.wellSpelled.permissions
      items := by
        intro item hitem
        obtain ⟨packItem', hpackItem, rfl⟩ := List.mem_map.mp hitem
        obtain ⟨candidate, hcandidate, rfl⟩ := mem_prefixItems hpackItem
        have haccepted := h.candidates candidate hcandidate
        exact ⟨haccepted.kind.1, haccepted.id.1, haccepted.body.1, haccepted.whyIncluded⟩
      omitted := homitted
      nextActions := h.envelope.wellSpelled.nextActions
      degraded := h.envelope.wellSpelled.degraded }
  notEmpty := hne
  cursor := h.envelope.cursor
  budget := h.envelope.budget
  headers := h.envelope.headers
  paths := h.envelope.paths
  notices := by
    intro item hitem
    obtain ⟨candidate, hcandidate, rfl⟩ := mem_prefixItems hitem
    exact (h.candidates candidate hcandidate).notice
  items := by
    intro item hitem
    obtain ⟨candidate, hcandidate, rfl⟩ := mem_prefixItems hitem
    exact (h.candidates candidate hcandidate).listed
  tokens := by
    intro item hitem
    obtain ⟨candidate, hcandidate, rfl⟩ := mem_prefixItems hitem
    exact (h.candidates candidate hcandidate).one_le_tokens
  ids := by
    change (((draft.visible.take count).map (packItem renderer.toSanitizer)).map (·.id)).Nodup
    rw [List.map_map]
    exact h.ids.sublist ((List.take_sublist count draft.visible).map (·.id))

theorem DraftAccepted.emptyPack (h : DraftAccepted renderer draft) {omitted : List OmittedEntry}
    (homitted : OmittedAccepted renderer.toUnicode omitted) :
    PackAccepted renderer (draft.contentsWith [] (markedOmitted omitted)) :=
  h.pack 0 homitted.marked (.inr (markedOmitted_ne_nil omitted))

end Accepted

/-! ## Estimates of prefixes -/

def Draft.envelopeTokens (renderer : Renderer) (draft : Draft) (omitted : List OmittedEntry) :
    Nat :=
  match renderedFaceTokenEstimate renderer (draft.contentsWith [] (markedOmitted omitted)) 0 with
  | .ok envelope => envelope
  | .error _ => 0

/-- The bytes of the face of a prefix, but for the digits of its
estimate. -/
def Draft.prefixSize (sanitizer : Sanitizer) (draft : Draft) (omitted : List OmittedEntry)
    (count : Nat) : Nat :=
  faceSize sanitizer (draft.contentsWith (prefixItems sanitizer draft count) omitted)

/-- A prefix fits the budget beside some sum of its token estimates. -/
def Draft.PrefixFits (renderer : Renderer) (draft : Draft) (omitted : List OmittedEntry)
    (count tokenSum : Nat) : Prop :=
  Fits (draft.prefixSize renderer.toSanitizer omitted count)
    (addNumber tokenSum (draft.envelopeTokens renderer omitted)) draft.contents.budgetTokens

section Accepted

variable {renderer : Renderer} {draft : Draft}

theorem markedOmitted_marked (omitted : List OmittedEntry) :
    markedOmitted (markedOmitted omitted) = markedOmitted omitted := by
  have hne := markedOmitted_ne_nil omitted
  rw [markedOmitted, if_neg]
  simpa [List.isEmpty_iff] using hne

theorem emptyPack_contentsWith (items : List ComposedPackItem) (omitted : List OmittedEntry) :
    emptyPack (draft.contentsWith items omitted) = draft.contentsWith [] (markedOmitted omitted) :=
  rfl

theorem DraftAccepted.budget_lt (h : DraftAccepted renderer draft) :
    draft.contents.budgetTokens < 2 ^ 53 := by
  have hle := h.envelope.budget
  change draft.contents.budgetTokens ≤ maxSafeInteger at hle
  unfold maxSafeInteger at hle
  omega

theorem DraftAccepted.envelope_ok (h : DraftAccepted renderer draft) {omitted : List OmittedEntry}
    (homitted : OmittedAccepted renderer.toUnicode omitted) :
    renderedFaceTokenEstimate renderer (draft.contentsWith [] (markedOmitted omitted)) 0
      = .ok (draft.envelopeTokens renderer omitted) := by
  obtain ⟨envelope, henvelope⟩ :=
    renderedFaceTokenEstimate_accepted (h.emptyPack homitted) fun _ => Nat.zero_le 0
  rw [Draft.envelopeTokens, henvelope]

theorem DraftAccepted.estimate (h : DraftAccepted renderer draft) {omitted : List OmittedEntry}
    (homitted : OmittedAccepted renderer.toUnicode omitted) (count : Nat)
    (hne : prefixItems renderer.toSanitizer draft count ≠ [] ∨ omitted ≠ []) :
    ∃ result, estimatePackTokens renderer
        (draft.contentsWith (prefixItems renderer.toSanitizer draft count) omitted) = .ok result
      ∧ Estimates (draft.prefixSize renderer.toSanitizer omitted count)
        (addNumber (runTokens (prefixItems renderer.toSanitizer draft count))
          (draft.envelopeTokens renderer omitted)) draft.contents.budgetTokens result :=
  estimatePackTokens_accepted (h.pack count homitted hne) (h.envelope_ok homitted)

theorem DraftAccepted.measured (h : DraftAccepted renderer draft) {omitted : List OmittedEntry}
    (homitted : OmittedAccepted renderer.toUnicode omitted) :
    ∃ measured, estimatePackTokens renderer (draft.contentsWith [] (markedOmitted omitted))
        = .ok measured
      ∧ (measured ≤ draft.contents.budgetTokens
        ↔ draft.envelopeTokens renderer omitted ≤ draft.contents.budgetTokens)
      ∧ (measured ≤ draft.contents.budgetTokens →
        measured = draft.envelopeTokens renderer omitted) := by
  have henvelope := h.envelope_ok homitted.marked
  rw [markedOmitted_marked] at henvelope
  have hsame : draft.envelopeTokens renderer (markedOmitted omitted)
      = draft.envelopeTokens renderer omitted := by
    rw [Draft.envelopeTokens, Draft.envelopeTokens, markedOmitted_marked]
  rw [hsame] at henvelope
  obtain ⟨measured, hmeasured, hestimates⟩ :=
    estimatePackTokens_accepted (h.emptyPack homitted) (by
      rw [emptyPack_contentsWith, markedOmitted_marked]
      exact henvelope)
  have hfloor := renderedFaceTokenEstimate_ok henvelope
  have hbudget := h.budget_lt
  set envelope := draft.envelopeTokens renderer omitted with henv
  change Estimates _ (addNumber 0 envelope) draft.contents.budgetTokens measured at hestimates
  have hexact : addNumber 0 envelope ≤ draft.contents.budgetTokens →
      addNumber 0 envelope = envelope := by
    intro hle
    have hsum := addNumber_eq_of_lt (hle.trans_lt hbudget)
    omega
  have hof : envelope ≤ draft.contents.budgetTokens → measured = envelope := by
    intro hle
    have hadd : addNumber 0 envelope = 0 + envelope := addNumber_of_lt (by omega)
    have habove := hestimates.above
    have hleast := hestimates.least envelope (by have := hfloor.above; omega) (hfloor.covers hle)
    omega
  refine ⟨measured, hmeasured, ⟨fun hle => ?_, fun hle => by rw [hof hle]; exact hle⟩,
    fun hle => ?_⟩
  · have habove := hestimates.above
    have hadd := hexact (by omega)
    omega
  · have habove := hestimates.above
    have hadd := hexact (by omega)
    exact hof (by omega)

end Accepted

/-! ## The accounting -/

/-- The variables of the selection describe the first `count` visible
candidates, and what is cached for a phase was rendered under the
omissions of that phase. -/
structure Accounted (renderer : Renderer) (draft : Draft)
    (omittedOf : OmissionPhase → List OmittedEntry) (count : Nat) (selection : Selection) :
    Prop where
  items : selection.items = prefixItems renderer.toSanitizer draft count
  deltas : selection.includedDeltas = selection.items.map (itemSize renderer.toSanitizer)
  bytes : selection.includedItemBytes
    = (selection.items.map (itemSize renderer.toSanitizer)).sum
  anchor : ∀ anchor ∈ selection.anchor, anchor.bytes = faceSize renderer.toSanitizer
        (draft.contentsWith [] (markedOmitted (omittedOf anchor.phase))) + anchor.width
      ∧ anchor.substitutedMarker = (omittedOf anchor.phase).isEmpty
  floors : ∀ phase measured, selection.envelopeFloors.lookup phase = some measured →
    estimatePackTokens renderer (draft.contentsWith [] (markedOmitted (omittedOf phase)))
      = .ok measured

theorem budgetExceededMarkerBytes_eq :
    arraySize [omissionSize (omission "budget_exceeded")]
      = arraySize [] + budgetExceededMarkerBytes := by
  have hsize : byteLength (stableStringify (.arr [(omission "budget_exceeded").toJson]) 2)
      + 2 * countNewlines (stableStringify (.arr [(omission "budget_exceeded").toJson]) 2)
      = arraySize [omissionSize (omission "budget_exceeded")] := by
    rw [stableStringify, ← size_shifted (by decide), size_sorted, size_arr]
    rfl
  unfold budgetExceededMarkerBytes
  dsimp only
  rw [hsize]
  have harray : arraySize [omissionSize (omission "budget_exceeded")]
      = 4 + (6 + omissionSize (omission "budget_exceeded")) := rfl
  rw [harray]
  simp only [arraySize]
  omega

theorem arraySize_eq (sizes : List Nat) : arraySize sizes
    = 2 + sizes.sum + if 0 < sizes.length then 6 * sizes.length + 2 else 0 := by
  cases sizes with
  | nil => rfl
  | cons size sizes =>
      have hsum : ∀ sizes : List Nat, (sizes.map fun size => 6 + size).sum
          = 6 * sizes.length + sizes.sum := by
        intro sizes
        induction sizes with
        | nil => rfl
        | cons size sizes ih =>
            rw [List.map_cons, List.sum_cons, List.sum_cons, ih, List.length_cons]
            omega
      rw [if_pos (by simp), arraySize, hsum]
      · omega
      · exact List.cons_ne_nil _ _

section Accounted

variable {renderer : Renderer} {draft : Draft} {omittedOf : OmissionPhase → List OmittedEntry}
  {count : Nat} {selection : Selection}

theorem Accounted.accountedBytes (h : Accounted renderer draft omittedOf count selection)
    {anchor : Anchor}
    (hbytes : anchor.bytes = faceSize renderer.toSanitizer
      (draft.contentsWith [] (markedOmitted (omittedOf anchor.phase))) + anchor.width)
    (hmarker : anchor.substitutedMarker = (omittedOf anchor.phase).isEmpty) (estimate : Nat) :
    (accountedBytes anchor selection estimate).toNat
      = draft.prefixSize renderer.toSanitizer (omittedOf anchor.phase) count + width estimate := by
  have hmarked : (arraySize ((markedOmitted (omittedOf anchor.phase)).map omissionSize) : Int)
      + (if anchor.substitutedMarker then -budgetExceededMarkerBytes else 0 : Int)
      = arraySize ((omittedOf anchor.phase).map omissionSize) := by
    cases homitted : omittedOf anchor.phase with
    | nil =>
        have hempty : anchor.substitutedMarker = true := by rw [hmarker, homitted]; rfl
        have hmark := budgetExceededMarkerBytes_eq
        rw [if_pos hempty]
        change (arraySize [omissionSize (omission "budget_exceeded")] : Int) + _ = arraySize []
        omega
    | cons entry rest =>
        have hfull : anchor.substitutedMarker = false := by rw [hmarker, homitted]; rfl
        rw [if_neg (by rw [hfull]; exact Bool.false_ne_true)]
        exact Int.add_zero _
  have hitems := arraySize_eq (selection.items.map (itemSize renderer.toSanitizer))
  rw [List.length_map, ← h.bytes] at hitems
  have hfaceSize : draft.prefixSize renderer.toSanitizer (omittedOf anchor.phase) count
      = fixedSize draft.contents
        + arraySize (selection.items.map (itemSize renderer.toSanitizer))
        + arraySize ((omittedOf anchor.phase).map omissionSize) := by
    rw [h.items]
    rfl
  have hanchor : anchor.bytes = fixedSize draft.contents + 2
      + arraySize ((markedOmitted (omittedOf anchor.phase)).map omissionSize) + anchor.width :=
    hbytes
  have hsum : Asimposium.accountedBytes anchor selection estimate
      = (draft.prefixSize renderer.toSanitizer (omittedOf anchor.phase) count
        + width estimate : Nat) := by
    unfold Asimposium.accountedBytes
    omega
  rw [hsum, Int.toNat_natCast]

theorem Accounted.ensureAnchor (hdraft : DraftAccepted renderer draft)
    (h : Accounted renderer draft omittedOf count selection) (phase : OmissionPhase)
    (homitted : OmittedAccepted renderer.toUnicode (omittedOf phase)) {tokenSum : Nat}
    (hsum : max 1 tokenSum ≤ draft.contents.budgetTokens) :
    ∃ anchor, ensureAnchor renderer draft phase (omittedOf phase) tokenSum selection = .ok anchor
      ∧ anchor.phase = phase
      ∧ anchor.bytes = faceSize renderer.toSanitizer
        (draft.contentsWith [] (markedOmitted (omittedOf anchor.phase))) + anchor.width
      ∧ anchor.substitutedMarker = (omittedOf anchor.phase).isEmpty := by
  have hrender := renderedBytes_accepted (hdraft.emptyPack homitted)
    (Nat.le_max_left 1 tokenSum) hsum (Nat.zero_le _)
  unfold Asimposium.ensureAnchor
  dsimp only
  rw [hrender]
  split
  · exact ⟨_, rfl, rfl, rfl, rfl⟩
  · rename_i anchor hanchor
    split
    · rename_i hsignature
      exact ⟨anchor, rfl, hsignature.1, h.anchor anchor hanchor⟩
    · exact ⟨_, rfl, rfl, rfl, rfl⟩

theorem Accounted.envelopeFloorTokens (hdraft : DraftAccepted renderer draft)
    (h : Accounted renderer draft omittedOf count selection) (phase : OmissionPhase)
    (homitted : OmittedAccepted renderer.toUnicode (omittedOf phase)) :
    ∃ measured floors, envelopeFloorTokens renderer draft phase (omittedOf phase) selection
        = .ok (measured, { selection with envelopeFloors := floors })
      ∧ Accounted renderer draft omittedOf count { selection with envelopeFloors := floors }
      ∧ estimatePackTokens renderer (draft.contentsWith [] (markedOmitted (omittedOf phase)))
        = .ok measured := by
  unfold Asimposium.envelopeFloorTokens
  cases hlookup : selection.envelopeFloors.lookup phase with
  | some measured =>
      exact ⟨measured, selection.envelopeFloors, rfl, h, h.floors phase measured hlookup⟩
  | none =>
      obtain ⟨measured, hmeasured, _⟩ := hdraft.measured homitted
      refine ⟨measured, (phase, measured) :: selection.envelopeFloors, ?_,
        ⟨h.items, h.deltas, h.bytes, h.anchor, ?_⟩, hmeasured⟩
      · dsimp only
        rw [hmeasured]
        rfl
      · intro phase' measured' hlookup'
        rw [List.lookup_cons] at hlookup'
        split at hlookup'
        · rename_i heq
          cases hlookup'
          rw [beq_iff_eq.mp heq]
          exact hmeasured
        · exact h.floors phase' measured' hlookup'

theorem Accounted.quickEstimate (hdraft : DraftAccepted renderer draft)
    (h : Accounted renderer draft omittedOf count selection) (legacy : Bool)
    (phase : OmissionPhase) (homitted : OmittedAccepted renderer.toUnicode (omittedOf phase))
    (hne : prefixItems renderer.toSanitizer draft count ≠ [] ∨ omittedOf phase ≠ [])
    (tokenSum : Nat) :
    ∃ estimate anchor floors, quickEstimate renderer draft legacy phase (omittedOf phase) tokenSum
          selection = .ok (estimate, { selection with anchor := anchor, envelopeFloors := floors })
      ∧ Accounted renderer draft omittedOf count
        { selection with anchor := anchor, envelopeFloors := floors }
      ∧ (estimate ≤ draft.contents.budgetTokens
        ↔ draft.PrefixFits renderer (omittedOf phase) count
          (if legacy then runTokens (prefixItems renderer.toSanitizer draft count)
            else tokenSum)) := by
  cases legacy with
  | true =>
      obtain ⟨estimate, hestimate, hestimates⟩ := hdraft.estimate homitted count hne
      refine ⟨estimate, selection.anchor, selection.envelopeFloors, ?_, h, hestimates.le_iff⟩
      rw [← h.items] at hestimate
      rw [Asimposium.quickEstimate, if_pos rfl, hestimate]
      rfl
  | false =>
      obtain ⟨measured, floors, hfloors, haccounted, hmeasured⟩ :=
        h.envelopeFloorTokens hdraft phase homitted
      obtain ⟨measured', hmeasured', hinside, hexact⟩ := hdraft.measured homitted
      obtain rfl := Except.ok.inj (hmeasured.symm.trans hmeasured')
      have hbudget := hdraft.budget_lt
      have hfits : draft.PrefixFits renderer (omittedOf phase) count tokenSum
          ↔ Fits (draft.prefixSize renderer.toSanitizer (omittedOf phase) count)
            (addNumber tokenSum measured) draft.contents.budgetTokens := by
        by_cases hle : measured ≤ draft.contents.budgetTokens
        · rw [hexact hle]
          rfl
        · have hover : ∀ floor, draft.contents.budgetTokens < floor →
              ¬Fits (draft.prefixSize renderer.toSanitizer (omittedOf phase) count)
                (addNumber tokenSum floor) draft.contents.budgetTokens := by
            intro floor hfloor hfits
            have hsum := hfits.floor_le
            have hadd := addNumber_eq_of_lt (a := tokenSum) (b := floor) (by omega)
            omega
          exact iff_of_false (hover _ (by omega)) (hover _ (by omega))
      rw [Asimposium.quickEstimate, if_neg Bool.false_ne_true, if_neg Bool.false_ne_true, hfits,
        hfloors]
      change ∃ estimate anchor floors', (if draft.contents.budgetTokens
          < max 1 (addNumber tokenSum measured) then _ else _) = Except.ok (estimate, _) ∧ _
      split
      · rename_i hover
        refine ⟨_, selection.anchor, floors, rfl, haccounted, ?_⟩
        exact iff_of_false (by omega) fun hfits => by have := hfits.floor_le; omega
      · rename_i hfloor
        have hle : max 1 tokenSum ≤ draft.contents.budgetTokens := by
          have hadd := addNumber_eq_of_lt (a := tokenSum) (b := measured) (by omega)
          omega
        obtain ⟨anchor, hanchor, rfl, hbytes, hmarker⟩ :=
          haccounted.ensureAnchor hdraft phase homitted hle
        rw [hanchor]
        have hnext : ∀ estimate following, (Except.ok (max (addNumber tokenSum measured)
            (ceilQuarter (Asimposium.accountedBytes anchor
              { selection with envelopeFloors := floors } estimate).toNat)) :
            Except PackFailure Nat) = .ok following →
            following = nextEstimate
              (draft.prefixSize renderer.toSanitizer (omittedOf anchor.phase) count)
              (addNumber tokenSum measured) estimate := by
          intro estimate following hok
          rw [← Except.ok.inj hok, haccounted.accountedBytes hbytes hmarker]
          rfl
        obtain ⟨settled, hsettled⟩ := Settle.settle_ok_of (P := fun _ => True)
          (fun _ _ => ⟨_, rfl, fun _ => trivial⟩) trivial
          (settle_estimates_ne hnext (fun _ h => nomatch h) (Nat.not_lt.mp hfloor))
        refine ⟨settled, some anchor, floors, ?_, ?_, (settle_estimates hnext hsettled).le_iff⟩
        · change (Settle.settle _ _ _ _ _ >>= _) = _
          rw [hsettled]
          rfl
        · refine ⟨h.items, h.deltas, h.bytes, ?_, haccounted.floors⟩
          rintro anchor' ⟨⟩
          exact ⟨hbytes, hmarker⟩

end Accounted

end Asimposium
