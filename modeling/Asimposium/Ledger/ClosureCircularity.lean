import Asimposium.Ledger.DependencyClosure

/-!
# Circularity and the order of the pins

The walk checks a pin against the identities on the one path by which
its claim was first reached. Which path that is can depend on the order
of the pins, and a closure can be complete although another chain of
pins returns to an identity (`order_decides`).

`Direct k p id` are the chains of `k` sound pins the walk may keep. The
order plays no part exactly when all direct chains to one publication
refuse the same pins (`Unambiguous`); a complete closure is then free of
returning chains unless none of its publications shows the defect that
would have made it incomplete (`circularity_iff`).
-/

namespace Asimposium

open BreadthFirst GuardedSearch

/-! ## The same pins in another order -/

/-- The pin as it is recorded in two histories: the same premise, with
digests that agree in both or in neither. -/
structure SamePin (verified verified' : List VerifiedClaim) (claim claim' : VerifiedClaim)
    (pin pin' : ClaimDependencyPin) : Prop where
  eventId : pin'.eventId = pin.eventId
  claimId : pin'.claimId = pin.claimId
  version : pin'.version = pin.version
  sound : isSound verified' claim' pin' = isSound verified claim pin

structure SameVersion (verified verified' : List VerifiedClaim) (claim claim' : VerifiedClaim) :
    Prop where
  eventId : claim'.eventId = claim.eventId
  target : claim'.target = claim.target
  pins : Option.Rel (fun pins pins' => ∃ permuted, pins.Perm permuted
    ∧ List.Forall₂ (SamePin verified verified' claim claim') permuted pins')
    claim.pins claim'.pins

/-- The same recorded pins, those of each claim version permuted. The
payload digests cover the order, so they may be recorded anew. -/
def Repinned (verified verified' : List VerifiedClaim) : Prop :=
  List.Forall₂ (SameVersion verified verified') verified verified'

structure SameClaim (verified verified' : List VerifiedClaim) (claim claim' : VerifiedClaim) :
    Prop where
  target : claim'.target = claim.target
  unknown : claim'.pins = none ↔ claim.pins = none
  pins : ∀ pin ∈ claim.pins.getD [], ∃ pin' ∈ claim'.pins.getD [],
    SamePin verified verified' claim claim' pin pin'
  pins' : ∀ pin' ∈ claim'.pins.getD [], ∃ pin ∈ claim.pins.getD [],
    SamePin verified verified' claim claim' pin pin'

def SameHistory (verified verified' : List VerifiedClaim) : Prop :=
  ∀ eventId, Option.Rel (SameClaim verified verified') (verifiedGet verified eventId)
    (verifiedGet verified' eventId)

theorem related_find? {α β : Type} {R : α → β → Prop} {l : List α} {l' : List β}
    {p : α → Bool} {q : β → Bool} (h : List.Forall₂ R l l') (hpq : ∀ a b, R a b → p a = q b) :
    Option.Rel R (l.find? p) (l'.find? q) := by
  induction h with
  | nil => exact .none
  | @cons a b _ _ hhead _ ih =>
      rw [List.find?_cons, List.find?_cons, hpq a b hhead]
      cases q b with
      | true => exact .some hhead
      | false => exact ih

theorem SameVersion.sameClaim {verified verified' : List VerifiedClaim}
    {claim claim' : VerifiedClaim} (h : SameVersion verified verified' claim claim') :
    SameClaim verified verified' claim claim' := by
  have hpins := h.pins
  generalize hlisted : claim.pins = pins at hpins
  generalize hlisted' : claim'.pins = pins' at hpins
  cases hpins with
  | none => exact ⟨h.target, by rw [hlisted, hlisted'], by simp [hlisted], by simp [hlisted']⟩
  | some hpermuted =>
      obtain ⟨permuted, hperm, hsame⟩ := hpermuted
      refine ⟨h.target, by simp [hlisted, hlisted'], fun pin hpin => ?_, fun pin' hpin' => ?_⟩
      · rw [hlisted, Option.getD_some] at hpin
        rw [hlisted', Option.getD_some]
        exact Related.mem_left hsame (hperm.mem_iff.mp hpin)
      · rw [hlisted', Option.getD_some] at hpin'
        rw [hlisted, Option.getD_some]
        obtain ⟨pin, hpin, hrelated⟩ := Related.mem_right hsame hpin'
        exact ⟨pin, hperm.mem_iff.mpr hpin, hrelated⟩

theorem Repinned.sameHistory {verified verified' : List VerifiedClaim}
    (h : Repinned verified verified') : SameHistory verified verified' := by
  intro eventId
  have hfind := related_find? (p := (·.eventId == eventId)) (q := (·.eventId == eventId)) h
    fun claim claim' hsame => by rw [hsame.eventId]
  unfold verifiedGet
  generalize verified.find? (·.eventId == eventId) = found at *
  generalize verified'.find? (·.eventId == eventId) = found' at *
  cases hfind with
  | none => exact .none
  | some hsame => exact .some hsame.sameClaim

section History

variable {verified verified' : List VerifiedClaim}

theorem SamePin.symm {claim claim' : VerifiedClaim} {pin pin' : ClaimDependencyPin}
    (h : SamePin verified verified' claim claim' pin pin') :
    SamePin verified' verified claim' claim pin' pin :=
  ⟨h.eventId.symm, h.claimId.symm, h.version.symm, h.sound.symm⟩

theorem SamePin.target {claim claim' : VerifiedClaim} {pin pin' : ClaimDependencyPin}
    (h : SamePin verified verified' claim claim' pin pin') : pin'.target = pin.target := by
  rw [ClaimDependencyPin.target, ClaimDependencyPin.target, h.claimId, h.version]

theorem SameClaim.symm {claim claim' : VerifiedClaim}
    (h : SameClaim verified verified' claim claim') : SameClaim verified' verified claim' claim := by
  refine ⟨h.target.symm, h.unknown.symm, fun pin' hpin' => ?_, fun pin hpin => ?_⟩
  · obtain ⟨pin, hpin, hsame⟩ := h.pins' pin' hpin'
    exact ⟨pin, hpin, hsame.symm⟩
  · obtain ⟨pin', hpin', hsame⟩ := h.pins pin hpin
    exact ⟨pin', hpin', hsame.symm⟩

theorem SameHistory.symm (h : SameHistory verified verified') : SameHistory verified' verified := by
  intro eventId
  have hget := h eventId
  generalize verifiedGet verified eventId = found at *
  generalize verifiedGet verified' eventId = found' at *
  cases hget with
  | none => exact .none
  | some hsame => exact .some hsame.symm

theorem SameHistory.get (h : SameHistory verified verified') {eventId : String}
    {claim : VerifiedClaim} (hclaim : verifiedGet verified eventId = some claim) :
    ∃ claim', verifiedGet verified' eventId = some claim'
      ∧ SameClaim verified verified' claim claim' := by
  have hget := h eventId
  rw [hclaim] at hget
  generalize verifiedGet verified' eventId = found' at *
  cases hget with
  | some hsame => exact ⟨_, rfl, hsame⟩

theorem SameHistory.targetOf_eq (h : SameHistory verified verified') :
    targetOf verified' = targetOf verified := by
  funext eventId
  have hget := h eventId
  unfold targetOf
  generalize verifiedGet verified eventId = found at *
  generalize verifiedGet verified' eventId = found' at *
  cases hget with
  | none => rfl
  | some hsame => exact hsame.target

theorem SameHistory.labelOf_eq (h : SameHistory verified verified') :
    labelOf verified' = labelOf verified := by
  funext eventId
  rw [labelOf, labelOf, h.targetOf_eq]

theorem SameHistory.soundPins_subset (h : SameHistory verified verified') (eventId : String) :
    soundPins verified eventId ⊆ soundPins verified' eventId := by
  intro child hchild
  obtain ⟨claim, hclaim, pin, hpin, hsound, rfl⟩ := mem_soundPins.mp hchild
  obtain ⟨claim', hclaim', hsame⟩ := h.get hclaim
  obtain ⟨pin', hpin', hsamePin⟩ := hsame.pins pin hpin
  exact mem_soundPins.mpr
    ⟨claim', hclaim', pin', hpin', hsamePin.sound.trans hsound, hsamePin.eventId⟩

theorem SameHistory.fronts_eq (h : SameHistory verified verified') (root : String) :
    fronts (soundPins verified') (labelOf verified') root
      = fronts (soundPins verified) (labelOf verified) root := by
  rw [h.labelOf_eq]
  exact fronts_congr fun eventId child =>
    ⟨fun hchild => h.symm.soundPins_subset eventId hchild,
      fun hchild => h.soundPins_subset eventId hchild⟩

end History

/-! ## Direct chains -/

/-- A chain of `k` sound pins from the root to a publication that
repeats no identity, each of whose publications is reached by no shorter
chain of the kind. -/
def Direct (verified : List VerifiedClaim) (root : String) (k : ℕ) (p : List String)
    (eventId : String) : Prop :=
  Front (soundPins verified) (labelOf verified) root k p eventId

/-- All direct chains to a publication refuse the same sound pins. -/
def Unambiguous (verified : List VerifiedClaim) (root : String) : Prop :=
  ∀ k, Agrees (soundPins verified) (labelOf verified) root k

/-- No chain of sound pins from the root returns to an identity on it. -/
def RevisitFree (verified : List VerifiedClaim) (root : String) : Prop :=
  ∀ p eventId, Walk (soundPins verified) root p eventId → (p.map (labelOf verified)).Nodup

/-- Some publication on a direct chain has unknown pins, an unsound pin
or a pin back to an identity on the chain, or rows were cut off. -/
def Defect (verified : List VerifiedClaim) (withinLimit : Bool) (root : String) : Prop :=
  withinLimit = false ∨ ∃ k p eventId claim, Direct verified root k p eventId
    ∧ verifiedGet verified eventId = some claim
    ∧ ∀ pins, claim.pins = some pins → ∃ pin ∈ pins, ¬Allowed verified (eventId, p) claim pin

section Direct

variable {verified verified' : List VerifiedClaim} {root target : String}
  {claim claim' : VerifiedClaim}

theorem SameHistory.direct (h : SameHistory verified verified') {k : ℕ} {p : List String}
    {eventId : String} : Direct verified' root k p eventId ↔ Direct verified root k p eventId := by
  unfold Direct Front
  rw [h.fronts_eq root]

theorem SameHistory.agrees (h : SameHistory verified verified') {k : ℕ}
    (hagree : Agrees (soundPins verified) (labelOf verified) root k) :
    Agrees (soundPins verified') (labelOf verified') root k := by
  intro p p' n hp hp' c hc
  rw [h.labelOf_eq]
  exact hagree p p' n (h.direct.mp hp) (h.direct.mp hp') c (h.symm.soundPins_subset n hc)

theorem queueOf_direct (hroot : verifiedGet verified root = some claim)
    (hagree : Unambiguous verified root) :
    (∀ entry ∈ queueOf verified root, ∃ k, entry.2.length = k + 1
        ∧ Direct verified root k entry.2 entry.1)
      ∧ ∀ k p eventId, Direct verified root k p eventId →
        ∃ entry ∈ queueOf verified root, entry.1 = eventId ∧ entry.2.length = k + 1
          ∧ Direct verified root k entry.2 eventId := by
  have h := queueOf_guarded hroot
  have hlevels := fun k => levels h (k := k) (fun entry hentry _ => by simpa using hentry)
    (fun j _ => hagree j)
  rw [List.append_nil] at hlevels
  refine ⟨fun entry hentry => ?_, fun k p eventId hdirect => ?_⟩
  · have hpos := h.length_pos (by simpa using hentry)
    obtain ⟨k, hk⟩ : ∃ k, entry.2.length = k + 1 := ⟨entry.2.length - 1, by omega⟩
    exact ⟨k, hk, (hlevels k).1 entry hentry hk⟩
  · obtain ⟨entry, hentry, rfl, hlength⟩ := (hlevels k).2 p eventId hdirect
    exact ⟨entry, hentry, rfl, hlength, (hlevels k).1 entry hentry hlength⟩

theorem allowed_congr (hagree : Unambiguous verified root) {k : ℕ} {p p' : List String}
    {eventId : String} (hclaim : verifiedGet verified eventId = some claim)
    (hp : Direct verified root k p eventId) (hp' : Direct verified root k p' eventId)
    {pin : ClaimDependencyPin} (hpin : pin ∈ claim.pins.getD [])
    (h : Allowed verified (eventId, p) claim pin) : Allowed verified (eventId, p') claim pin := by
  refine ⟨h.1, fun hmem => h.2 ?_⟩
  have hlabel := (isSound_target h.1).2.1
  rw [← hlabel] at hmem ⊢
  exact hagree k p' p eventId hp' hp pin.eventId
    (mem_soundPins.mpr ⟨claim, hclaim, pin, hpin, h.1, rfl⟩) hmem

theorem complete_iff_defect (hroot : verifiedGet verified root = some claim)
    (htarget : claim.target = target) (hagree : Unambiguous verified root)
    (withinLimit : Bool) :
    (closureOf verified withinLimit (some root) target).complete = true
      ↔ ¬Defect verified withinLimit root := by
  obtain ⟨hkept, hmet⟩ := queueOf_direct hroot hagree
  rw [complete_iff hroot htarget]
  constructor
  · rintro ⟨hwithin, hall⟩ (hfalse | ⟨k, p, eventId, found, hdirect, hfound, hwrong⟩)
    · rw [hwithin] at hfalse; cases hfalse
    · obtain ⟨entry, hentry, rfl, -, hdirect'⟩ := hmet k p eventId hdirect
      obtain ⟨pins, hpins, hallowed⟩ := hall entry hentry found hfound
      obtain ⟨pin, hpin, hrefused⟩ := hwrong pins hpins
      refine hrefused (allowed_congr hagree hfound hdirect' hdirect ?_ (hallowed pin hpin))
      rw [hpins]
      exact hpin
  · intro hnone
    refine ⟨?_, fun entry hentry found hfound => ?_⟩
    · by_contra hfalse
      exact hnone (.inl (by simpa using hfalse))
    · obtain ⟨k, -, hdirect⟩ := hkept entry hentry
      by_contra hwrong
      refine hnone (.inr ⟨k, entry.2, entry.1, found, hdirect, hfound, fun pins hpins => ?_⟩)
      by_contra hgood
      refine hwrong ⟨pins, hpins, fun pin hpin => ?_⟩
      by_contra hrefused
      exact hgood ⟨pin, hpin, hrefused⟩

end Direct

/-! ## The order plays no part where chains agree -/

structure SameOutcome (out out' : DependencyClosure) : Prop where
  rootAvailable : out'.rootAvailable = out.rootAvailable
  complete : out'.complete = out.complete
  members : ∀ member, member ∈ out'.nodes.map (·.target) ↔ member ∈ out.nodes.map (·.target)
  edges : ∀ edge, edge ∈ out'.edges ↔ edge ∈ out.edges
  unavailable : ∀ missing, missing ∈ out'.unavailable ↔ missing ∈ out.unavailable

section Order

variable {verified verified' : List VerifiedClaim} {root target : String}
  {claim claim' : VerifiedClaim}

theorem SamePin.allowed (h : SameHistory verified verified') {pin pin' : ClaimDependencyPin}
    (hsame : SamePin verified verified' claim claim' pin pin') (entry : String × List String) :
    Allowed verified' entry claim' pin' ↔ Allowed verified entry claim pin := by
  unfold Allowed
  rw [hsame.sound, hsame.claimId, h.labelOf_eq]

theorem SameHistory.entry (h : SameHistory verified verified')
    (hroot : verifiedGet verified root = some claim)
    (hroot' : verifiedGet verified' root = some claim') (hagree : Unambiguous verified root)
    {entry : String × List String} (hentry : entry ∈ queueOf verified root)
    {found : VerifiedClaim} (hfound : verifiedGet verified entry.1 = some found) :
    ∃ entry' ∈ queueOf verified' root, ∃ found', entry'.1 = entry.1
      ∧ entry'.2.length = entry.2.length ∧ verifiedGet verified' entry'.1 = some found'
      ∧ SameClaim verified verified' found found'
      ∧ ∀ pin ∈ found.pins.getD [], ∀ pin', SamePin verified verified' found found' pin pin' →
        (Allowed verified' entry' found' pin' ↔ Allowed verified entry found pin) := by
  obtain ⟨k, hlength, hdirect⟩ := (queueOf_direct hroot hagree).1 entry hentry
  obtain ⟨entry', hentry', heq, hlength', hdirect'⟩ :=
    (queueOf_direct hroot' fun j => h.agrees (hagree j)).2 k _ _ (h.direct.mpr hdirect)
  obtain ⟨found', hfound', hsame⟩ := h.get hfound
  refine ⟨entry', hentry', found', heq, hlength'.trans hlength.symm, heq ▸ hfound', hsame,
    fun pin hpin pin' hsamePin => ?_⟩
  have hback : Direct verified root k entry'.2 entry.1 := h.direct.mp hdirect'
  rw [hsamePin.allowed h]
  exact ⟨fun hallowed => allowed_congr hagree hfound hback hdirect hpin hallowed,
    fun hallowed => allowed_congr hagree hfound hdirect hback hpin hallowed⟩

theorem SameHistory.outcome_subset (h : SameHistory verified verified')
    (hroot : verifiedGet verified root = some claim)
    (hroot' : verifiedGet verified' root = some claim') (htarget : claim.target = target)
    (htarget' : claim'.target = target) (hagree : Unambiguous verified root)
    (withinLimit : Bool) :
    let out := closureOf verified withinLimit (some root) target
    let out' := closureOf verified' withinLimit (some root) target
    (∀ member ∈ out.nodes.map (·.target), member ∈ out'.nodes.map (·.target))
      ∧ (∀ edge ∈ out.edges, edge ∈ out'.edges)
      ∧ ∀ missing ∈ out.unavailable, missing ∈ out'.unavailable := by
  intro out out'
  refine ⟨fun member hmember => ?_, fun edge hedge => ?_, fun missing hmissing => ?_⟩
  · obtain ⟨entry, hentry, hlong, rfl⟩ := (member_iff hroot htarget withinLimit member).mp hmember
    obtain ⟨found, hfound⟩ := queueOf_get hroot hentry
    obtain ⟨entry', hentry', -, heq, hlength, -⟩ := h.entry hroot hroot' hagree hentry hfound
    refine (member_iff hroot' htarget' withinLimit _).mpr ⟨entry', hentry', by omega, ?_⟩
    rw [heq, h.targetOf_eq]
  · obtain ⟨entry, hentry, found, hfound, pin, hpin, hsource, hpinned, havailable⟩ :=
      (edge_iff hroot htarget withinLimit edge).mp hedge
    obtain ⟨entry', hentry', found', -, -, hfound', hsame, hallowed⟩ :=
      h.entry hroot hroot' hagree hentry hfound
    obtain ⟨pin', hpin', hsamePin⟩ := hsame.pins pin hpin
    exact (edge_iff hroot' htarget' withinLimit edge).mpr
      ⟨entry', hentry', found', hfound', pin', hpin', hsource.trans hsame.target.symm,
        hpinned.trans hsamePin.target.symm, havailable.trans (hallowed pin hpin pin' hsamePin).symm⟩
  · obtain ⟨entry, hentry, found, hfound, hwhy⟩ :=
      (unavailable_iff hroot htarget withinLimit missing).mp hmissing
    obtain ⟨entry', hentry', found', -, -, hfound', hsame, hallowed⟩ :=
      h.entry hroot hroot' hagree hentry hfound
    refine (unavailable_iff hroot' htarget' withinLimit missing).mpr
      ⟨entry', hentry', found', hfound', ?_⟩
    rcases hwhy with ⟨hunknown, rfl⟩ | ⟨pin, hpin, hrefused, rfl⟩
    · exact .inl ⟨hsame.unknown.mpr hunknown, hsame.target.symm⟩
    · obtain ⟨pin', hpin', hsamePin⟩ := hsame.pins pin hpin
      exact .inr ⟨pin', hpin', fun hmem => hrefused ((hallowed pin hpin pin' hsamePin).mp hmem),
        hsamePin.target.symm⟩

theorem SameHistory.defect_iff (h : SameHistory verified verified') (withinLimit : Bool) :
    Defect verified' withinLimit root ↔ Defect verified withinLimit root := by
  have hforward : ∀ {v v' : List VerifiedClaim}, SameHistory v v' → Defect v withinLimit root →
      Defect v' withinLimit root := by
    rintro v v' h (hfalse | ⟨k, p, eventId, found, hdirect, hfound, hwrong⟩)
    · exact .inl hfalse
    · obtain ⟨found', hfound', hsame⟩ := h.get hfound
      refine .inr ⟨k, p, eventId, found', h.direct.mpr hdirect, hfound', fun pins' hpins' => ?_⟩
      cases hpins : found.pins with
      | none => rw [hsame.unknown.mpr hpins] at hpins'; cases hpins'
      | some pins =>
          obtain ⟨pin, hpin, hrefused⟩ := hwrong pins hpins
          obtain ⟨pin', hpin', hsamePin⟩ := hsame.pins pin (by rw [hpins]; exact hpin)
          rw [hpins'] at hpin'
          exact ⟨pin', hpin', fun hallowed => hrefused ((hsamePin.allowed h _).mp hallowed)⟩
  exact ⟨hforward h.symm, hforward h⟩

theorem SameHistory.outcome (h : SameHistory verified verified')
    (hagree : ∀ claim, verifiedGet verified root = some claim → claim.target = target →
      Unambiguous verified root) (withinLimit : Bool) :
    SameOutcome (closureOf verified withinLimit (some root) target)
      (closureOf verified' withinLimit (some root) target) := by
  by_cases hroot : ∃ claim, verifiedGet verified root = some claim ∧ claim.target = target
  · obtain ⟨claim, hroot, htarget⟩ := hroot
    obtain ⟨claim', hroot', hsame⟩ := h.get hroot
    have htarget' : claim'.target = target := hsame.target.trans htarget
    have hagree := hagree claim hroot htarget
    have hagree' : Unambiguous verified' root := fun k => h.agrees (hagree k)
    obtain ⟨hmembers, hedges, hmissing⟩ :=
      h.outcome_subset hroot hroot' htarget htarget' hagree withinLimit
    obtain ⟨hmembers', hedges', hmissing'⟩ :=
      h.symm.outcome_subset hroot' hroot htarget' htarget hagree' withinLimit
    refine ⟨?_, ?_, fun member => ⟨hmembers' member, hmembers member⟩,
      fun edge => ⟨hedges' edge, hedges edge⟩, fun missing => ⟨hmissing' missing, hmissing missing⟩⟩
    · obtain ⟨nodes, -, hout⟩ := closureOf_walk hroot htarget withinLimit
      obtain ⟨nodes', -, hout'⟩ := closureOf_walk hroot' htarget' withinLimit
      rw [hout, hout']
    · rw [Bool.eq_iff_iff, complete_iff_defect hroot' htarget' hagree',
        complete_iff_defect hroot htarget hagree, h.defect_iff]
  · have hnone : ∀ claim, verifiedGet verified root = some claim → claim.target ≠ target :=
      fun claim hclaim htarget => hroot ⟨claim, hclaim, htarget⟩
    have hnone' : ∀ claim, verifiedGet verified' root = some claim → claim.target ≠ target := by
      intro claim' hclaim' htarget'
      obtain ⟨claim, hclaim, hsame⟩ := h.symm.get hclaim'
      exact hnone claim hclaim (hsame.target.trans htarget')
    rw [closureOf_none withinLimit hnone, closureOf_none withinLimit hnone']
    exact ⟨rfl, rfl, fun _ => Iff.rfl, fun _ => Iff.rfl, fun _ => Iff.rfl⟩

end Order

/-! ## Where chains disagree the order decides -/

def nextOn : List String → String → Option String
  | a :: b :: rest, eventId => if a = eventId then some b else nextOn (b :: rest) eventId
  | _, _ => none

def prefer (next : Option String) (pins : List ClaimDependencyPin) : List ClaimDependencyPin :=
  match next with
  | none => pins
  | some eventId => pins.filter (·.eventId == eventId) ++ pins.filter (!·.eventId == eventId)

def preferOn (p : List String) (claim : VerifiedClaim) : VerifiedClaim :=
  { claim with pins := claim.pins.map (prefer (nextOn p claim.eventId)) }

theorem nextOn_prefix {p q : List String} {u w : String} (hnodup : p.Nodup)
    (h : (q ++ [u]) ++ [w] <+: p) : nextOn p u = some w := by
  obtain ⟨rest, rfl⟩ := h
  induction q with
  | nil => simp [nextOn]
  | cons a q ih =>
      have htail := ih (List.nodup_cons.mp hnodup).2
      have hne : a ≠ u := by
        rintro rfl
        exact (List.nodup_cons.mp hnodup).1 (by simp)
      cases q with
      | nil => simp [nextOn, hne]
      | cons b q => simpa [nextOn, hne] using htail

theorem prefer_perm (next : Option String) (pins : List ClaimDependencyPin) :
    pins.Perm (prefer next pins) := by
  cases next with
  | none => exact .refl _
  | some eventId => exact (List.filter_append_perm _ pins).symm

section Prefer

variable {verified : List VerifiedClaim} {root target : String} {claim : VerifiedClaim}

theorem verifiedGet_prefer (p : List String) (eventId : String) :
    verifiedGet (verified.map (preferOn p)) eventId
      = (verifiedGet verified eventId).map (preferOn p) := by
  rw [verifiedGet, List.find?_map]
  rfl

theorem isSound_prefer (p : List String) (claim : VerifiedClaim) (pin : ClaimDependencyPin) :
    isSound (verified.map (preferOn p)) (preferOn p claim) pin = isSound verified claim pin := by
  unfold isSound
  rw [verifiedGet_prefer]
  cases verifiedGet verified pin.eventId with
  | none => rfl
  | some child => rfl

theorem prefer_repinned (verified : List VerifiedClaim) (p : List String) :
    Repinned verified (verified.map (preferOn p)) := by
  refine List.forall₂_map_right_iff.mpr (List.forall₂_same.mpr fun claim _ => ?_)
  refine ⟨rfl, rfl, ?_⟩
  have hpins : (preferOn p claim).pins = claim.pins.map (prefer (nextOn p claim.eventId)) := rfl
  rw [hpins]
  cases claim.pins with
  | none => exact .none
  | some pins =>
      refine .some ⟨_, prefer_perm _ pins, List.forall₂_same.mpr fun pin _ => ?_⟩
      exact ⟨rfl, rfl, rfl, isSound_prefer p claim pin⟩

theorem walk_edge {edges : String → List String} {p q : List String} {v u w : String}
    (h : Walk edges root p v) (hinit : (q ++ [u]) ++ [w] <+: p) : w ∈ edges u := by
  induction h with
  | start =>
      have hlen := hinit.length_le
      simp at hlen
  | @step p x c hwalk hedge ih =>
      rcases Nat.lt_or_ge p.length ((q ++ [u]) ++ [w]).length with hlong | hshort
      · -- the two last elements are those of the last step
        have hlen := hinit.length_le
        have hone : (p ++ [c]).length = p.length + 1 := by simp
        have heq := hinit.eq_of_length (by omega)
        obtain ⟨rfl, hlast⟩ := List.append_inj' heq rfl
        obtain rfl : w = c := by simpa using hlast
        have hend := hwalk.last
        rw [List.getLast?_append, List.getLast?_singleton] at hend
        cases hend
        exact hedge
      · obtain ⟨rest, hrest⟩ := hinit
        refine ih ⟨rest.dropLast, ?_⟩
        have hne : rest ≠ [] := by
          rintro rfl
          have hlen := congrArg List.length hrest
          simp only [List.length_append, List.length_singleton, List.length_nil] at hlen hshort
          omega
        have hcut := congrArg List.dropLast hrest
        rwa [List.dropLast_append_of_ne_nil hne, List.dropLast_concat] at hcut

theorem prefer_listsFirst {k : ℕ} {p : List String} {eventId : String}
    (h : Direct verified root k p eventId) :
    ListsFirst (soundPins (verified.map (preferOn p))) p := by
  intro q u w hinit
  have hnext := nextOn_prefix (List.Nodup.of_map _ h.labels_nodup) hinit
  obtain ⟨claim, hclaim, pin, hpin, hsound, rfl⟩ :=
    mem_soundPins.mp (walk_edge h.walk hinit)
  have heventId : claim.eventId = u := verifiedGet_eventId hclaim
  have hpins : ((preferOn p claim).pins.getD []) =
      (claim.pins.getD []).filter (·.eventId == pin.eventId)
        ++ (claim.pins.getD []).filter (!·.eventId == pin.eventId) := by
    have hmap : (preferOn p claim).pins
        = claim.pins.map (prefer (some pin.eventId)) := by
      rw [← hnext, ← heventId]
      rfl
    rw [hmap]
    cases claim.pins with
    | none => rfl
    | some pins => rfl
  have hsoundPins : soundPins (verified.map (preferOn p)) u
      = (((preferOn p claim).pins.getD []).filter (isSound verified claim)).map (·.eventId) := by
    rw [soundPins, verifiedGet_prefer, hclaim]
    have hfun : isSound (verified.map (preferOn p)) (preferOn p claim) = isSound verified claim :=
      funext fun pin => isSound_prefer p claim pin
    simp only [Option.map_some, hfun]
  -- every pin of the first part leads to the next event
  rw [hsoundPins, hpins, List.filter_append, List.map_append]
  have hfirst : ∃ first rest, ((claim.pins.getD []).filter (·.eventId == pin.eventId)).filter
      (isSound verified claim) = first :: rest := by
    refine List.exists_cons_of_ne_nil (List.ne_nil_of_mem (a := pin) ?_)
    simp [List.mem_filter, hpin, hsound]
  obtain ⟨first, rest, hlist⟩ := hfirst
  have hmem : first ∈ ((claim.pins.getD []).filter (·.eventId == pin.eventId)).filter
      (isSound verified claim) := by rw [hlist]; simp
  have hsame : first.eventId = pin.eventId := by
    have hpart := (List.mem_filter.mp (List.mem_filter.mp hmem).1).2
    simpa using hpart
  rw [hlist]
  simp [hsame]

theorem prefer_kept (hroot : verifiedGet verified root = some claim) {k : ℕ} {p : List String}
    {eventId : String} (hdirect : Direct verified root k p eventId)
    (hagree : ∀ j < k, Agrees (soundPins verified) (labelOf verified) root j) :
    (eventId, p) ∈ queueOf (verified.map (preferOn p)) root := by
  have hsame := (prefer_repinned verified p).sameHistory
  obtain ⟨claim', hroot', -⟩ := hsame.get hroot
  exact kept_of_first ((verified.map (preferOn p)).map (·.eventId))
    (fun _ _ _ hchild => soundPins_mem hchild) (root_mem hroot') (by simp)
    (hsame.direct.mpr hdirect) (prefer_listsFirst hdirect) fun j hj => hsame.agrees (hagree j hj)

/-- Where the order plays no part, direct chains to one publication
refuse the same pins: each of two chains can be made the kept one. -/
theorem unambiguous_of_outcome (hroot : verifiedGet verified root = some claim)
    (htarget : claim.target = target) (withinLimit : Bool)
    (hdistinct : ∀ a ∈ verified, ∀ b ∈ verified, a.target = b.target → a.eventId = b.eventId)
    (h : ∀ verified', Repinned verified verified' →
      SameOutcome (closureOf verified withinLimit (some root) target)
        (closureOf verified' withinLimit (some root) target)) :
    Unambiguous verified root := by
  intro k
  induction k using Nat.strong_induction_on with
  | _ k ih =>
      intro p p' eventId hp hp' child hchild hmem
      by_contra hallowed
      obtain ⟨found, hfound, pin, hpin, hsound, rfl⟩ := mem_soundPins.mp hchild
      have hlabel := (isSound_target hsound).2.1
      rw [hlabel] at hmem hallowed
      -- the chain `p'` allows the pin, so some closure shows the edge available
      have hedge : { source := found.target, target := pin.target, available := true }
          ∈ (closureOf verified withinLimit (some root) target).edges := by
        have hrepinned := prefer_repinned verified p'
        obtain ⟨root', hroot', hsame⟩ := hrepinned.sameHistory.get hroot
        obtain ⟨found', hfound', hsameFound⟩ := hrepinned.sameHistory.get hfound
        obtain ⟨pin', hpin', hsamePin⟩ := hsameFound.pins pin hpin
        refine ((h _ hrepinned).edges _).mp ((edge_iff hroot' (hsame.target.trans htarget)
          withinLimit _).mpr ⟨_, prefer_kept hroot hp' ih, found', hfound', pin', hpin',
            hsameFound.target.symm, hsamePin.target.symm, ?_⟩)
        rw [hsamePin.allowed hrepinned.sameHistory]
        exact ⟨fun _ => ⟨hsound, hallowed⟩, fun _ => rfl⟩
      -- but the closure that keeps `p` refuses it
      have hrepinned := prefer_repinned verified p
      obtain ⟨root', hroot', hsame⟩ := hrepinned.sameHistory.get hroot
      obtain ⟨entry, hentry, other', hother', pin₁, hpin₁, hsource, hpinned, havailable⟩ :=
        (edge_iff hroot' (hsame.target.trans htarget) withinLimit _).mp
          (((h _ hrepinned).edges _).mpr hedge)
      obtain ⟨other, hother, hsameOther⟩ := hrepinned.sameHistory.symm.get hother'
      have hallowed₁ := havailable.mp rfl
      have hentry₁ : entry.1 = eventId := by
        have heq := hdistinct other (verifiedGet_mem hother) found (verifiedGet_mem hfound)
          (hsameOther.target.trans hsource.symm)
        rwa [verifiedGet_eventId hother, verifiedGet_eventId hfound] at heq
      have hkept : entry = (eventId, p) :=
        (queueOf_guarded hroot').eq_of_fst (by simpa using hentry)
          (by simpa using prefer_kept hroot hp ih) hentry₁
      subst hkept
      refine hallowed₁.2 ?_
      rw [hrepinned.sameHistory.labelOf_eq]
      have hlabel₁ : pin₁.claimId = pin.claimId := by
        rw [← identityOf_exactVersion pin₁.shape pin₁.version,
          ← identityOf_exactVersion pin.shape pin.version]
        exact congrArg identityOf hpinned.symm
      rw [hlabel₁]
      exact hmem

end Prefer

/-- The closure of a root decides circularity independently of the order
of the pins, and a complete closure holds no returning chain, exactly
when direct chains agree and returning chains show a defect. -/
theorem circularity_iff (verified : List VerifiedClaim) (withinLimit : Bool)
    (root : Option String) (target : String)
    (hdistinct : ∀ a ∈ verified, ∀ b ∈ verified, a.target = b.target → a.eventId = b.eventId) :
    ((∀ verified', Repinned verified verified' →
        SameOutcome (closureOf verified withinLimit root target)
          (closureOf verified' withinLimit root target))
      ∧ ((closureOf verified withinLimit root target).complete = true →
        ∀ eventId ∈ root, RevisitFree verified eventId))
    ↔ ∀ eventId ∈ root, ∀ claim, verifiedGet verified eventId = some claim →
        claim.target = target → Unambiguous verified eventId
          ∧ (RevisitFree verified eventId ∨ Defect verified withinLimit eventId) := by
  cases root with
  | none =>
      simp only [Option.not_mem_none, false_implies, implies_true, and_true, iff_true]
      exact fun verified' _ => ⟨rfl, rfl, fun _ => Iff.rfl, fun _ => Iff.rfl, fun _ => Iff.rfl⟩
  | some eventId =>
      simp only [Option.mem_def, Option.some.injEq, forall_eq']
      constructor
      · rintro ⟨horder, hfree⟩ claim hroot htarget
        have hagree := unambiguous_of_outcome hroot htarget withinLimit hdistinct horder
        refine ⟨hagree, ?_⟩
        by_cases hdefect : Defect verified withinLimit eventId
        · exact .inr hdefect
        · exact .inl (hfree ((complete_iff_defect hroot htarget hagree withinLimit).mpr hdefect))
      · intro hcondition
        refine ⟨fun verified' hrepinned => hrepinned.sameHistory.outcome
          (fun claim hroot htarget => (hcondition claim hroot htarget).1) withinLimit,
          fun hcomplete => ?_⟩
        by_cases hroot : ∃ claim, verifiedGet verified eventId = some claim
            ∧ claim.target = target
        · obtain ⟨claim, hroot, htarget⟩ := hroot
          obtain ⟨hagree, hfree | hdefect⟩ := hcondition claim hroot htarget
          · exact hfree
          · exact absurd hdefect
              ((complete_iff_defect hroot htarget hagree withinLimit).mp hcomplete)
        · rw [closureOf_none withinLimit fun claim hclaim htarget =>
            hroot ⟨claim, hclaim, htarget⟩] at hcomplete
          cases hcomplete

/-! ## A diamond with a second version of one identity

`C-1` rests on `C-2` and on version 2 of `C-3`. Both rest on `C-4`,
which rests on version 1 of `C-3`: the chain through version 2 returns
to `C-3`, the chain through `C-2` does not. -/

def contentZero : String :=
  "sha256:0000000000000000000000000000000000000000000000000000000000000000"

def digestB1 : String := "23d46765f5d2689625ad600913a6468097f30736ba19f16f0b1888f1bf486dcf"
def digestX : String := "ecfcd0ad242f911c49c8154ed3914b5643f09a86a11deb55f6b7bee8491229a8"
def digestA : String := "8858cb3a1d8755610b305a2998aebaf10bc1f25c8561022ce8e6d025fae1d2f6"
def digestB2 : String := "18194dce15eac124ebe702d9023bb950c2645b7b2b261bc66e2b8417ebcbf1fb"
def digestR : String := "e232cf40712d94365a23c3c41c1a1f9c1d353a54da44632a08c4b4fb2fd07f98"
def digestR' : String := "807bce84b02f9db1fcb2922b6d9902705a5d3e72a30a221b8da784e05dc17053"

def pinB1 : ClaimDependencyPin := ⟨"C-3", 1, contentZero, "B1", digestB1, by decide⟩
def pinX : ClaimDependencyPin := ⟨"C-4", 1, contentZero, "X1", digestX, by decide⟩
def pinA : ClaimDependencyPin := ⟨"C-2", 1, contentZero, "A1", digestA, by decide⟩
def pinB2 : ClaimDependencyPin := ⟨"C-3", 2, contentZero, "B2", digestB2, by decide⟩

def pinText (pin : ClaimDependencyPin) : String :=
  "\x7b\"claim_id\":\"" ++ pin.claimId ++ "\",\"version\":" ++ toString pin.version
    ++ ",\"content_digest\":\"" ++ pin.contentDigest ++ "\",\"event_id\":\"" ++ pin.eventId
    ++ "\",\"payload_digest\":\"" ++ pin.payloadDigest ++ "\"\x7d"

/-- The payload of a publication and the fields read back from it. -/
def publication (claimId statement : String) (baseVersion : Option Int)
    (pins : List ClaimDependencyPin) : String × Payload :=
  ("\x7b\"claim_id\":\"" ++ claimId ++ "\",\"statement\":\"" ++ statement ++ "\""
      ++ (match baseVersion with
          | some base => ",\"base_version\":" ++ toString base
          | none => "")
      ++ ",\"dependency_pins\":[" ++ ",".intercalate (pins.map pinText) ++ "]\x7d",
    { claimId := some claimId, statement := some statement, falsifier := none, kind := none
      baseVersion, dependencyPins := .valid pins })

def publicationB1 := publication "C-3" "b" none []
def publicationX := publication "C-4" "xx" none [pinB1]
def publicationA := publication "C-2" "a" none [pinX]
def publicationB2 := publication "C-3" "b" (some 1) [pinX]
def publicationR := publication "C-1" "r" none [pinA, pinB2]
def publicationR' := publication "C-1" "r" none [pinB2, pinA]

/-- The texts are told apart by their lengths, but for those of `C-1`. -/
def diamondReader : PayloadReader where
  sha256 text :=
    if text = publicationR'.1 then digestR'
    else ([(55, digestB1), (277, digestX), (276, digestA), (293, digestB2),
      (498, digestR)].lookup text.utf8ByteSize).getD ""
  parse text :=
    if text = publicationR'.1 then some publicationR'.2
    else [(55, publicationB1.2), (277, publicationX.2), (276, publicationA.2),
      (293, publicationB2.2), (498, publicationR.2)].lookup text.utf8ByteSize

def diamondRow (eventId claimId : String) (version seq : Int) (type : EventType)
    (digest json : String) : DependencyClosureRow where
  eventId := eventId
  problemId := "P-1"
  claimId := claimId
  version := version
  type := type
  seq := seq
  payloadSha256 := digest
  contentDigest := some contentZero
  payloadJson := some json

def rowR (digest json : String) := diamondRow "R1" "C-1" 1 5 .claimCreated digest json
def rowA := diamondRow "A1" "C-2" 1 3 .claimCreated digestA publicationA.1
def rowB1 := diamondRow "B1" "C-3" 1 1 .claimCreated digestB1 publicationB1.1
def rowB2 := diamondRow "B2" "C-3" 2 4 .claimRevised digestB2 publicationB2.1
def rowX := diamondRow "X1" "C-4" 1 2 .claimCreated digestX publicationX.1

def diamondRows (digest json : String) : List DependencyClosureRow :=
  [rowR digest json, rowA, rowB1, rowB2, rowX]

def diamond (root : DependencyClosureRow) (pins : List ClaimDependencyPin) : List VerifiedClaim :=
  [{ row := root, statement := "r", falsifier := none, kind := none, pins := some pins },
    { row := rowA, statement := "a", falsifier := none, kind := none, pins := some [pinX] },
    { row := rowB1, statement := "b", falsifier := none, kind := none, pins := some [] },
    { row := rowB2, statement := "b", falsifier := none, kind := none, pins := some [pinX] },
    { row := rowX, statement := "xx", falsifier := none, kind := none, pins := some [pinB1] }]

theorem diamond_sizes : publicationB1.1.utf8ByteSize = 55 ∧ publicationX.1.utf8ByteSize = 277
    ∧ publicationA.1.utf8ByteSize = 276 ∧ publicationB2.1.utf8ByteSize = 293
    ∧ publicationR.1.utf8ByteSize = 498 ∧ publicationR'.1.utf8ByteSize = 498
    ∧ publicationR.1 ≠ publicationR'.1 := by decide +kernel

theorem diamondReader_short {text : String} (h : text.utf8ByteSize ≠ 498) :
    text ≠ publicationR'.1 := by
  rintro rfl
  exact h diamond_sizes.2.2.2.2.2.1

theorem diamondReader_read {text : String} {size : Nat} (h : text.utf8ByteSize = size)
    (hne : size ≠ 498) :
    diamondReader.sha256 text = ([(55, digestB1), (277, digestX), (276, digestA),
        (293, digestB2), (498, digestR)].lookup size).getD ""
      ∧ diamondReader.parse text = [(55, publicationB1.2), (277, publicationX.2),
        (276, publicationA.2), (293, publicationB2.2), (498, publicationR.2)].lookup size := by
  subst h
  exact ⟨if_neg (diamondReader_short hne), if_neg (diamondReader_short hne)⟩

theorem verifiedRow_eq {reader : PayloadReader} {row : DependencyClosureRow} {json : String}
    {payload : Payload} {claim : VerifiedClaim} (hjson : row.payloadJson = some json)
    (hparse : reader.parse json = some payload) (hverify : verifyPayload row payload = some claim) :
    ((row.payloadJson.bind reader.parse).bind (verifyPayload row)).toList = [claim] := by
  rw [hjson, Option.bind_some, hparse, Option.bind_some, hverify, Option.toList_some]

theorem diamond_verified (digest : String) (published : String × Payload)
    (pins : List ClaimDependencyPin) (hsize : published.1.utf8ByteSize = 498)
    (hdigest : diamondReader.sha256 published.1 = digest)
    (hparse : diamondReader.parse published.1 = some published.2)
    (hroot : verifyPayload (rowR digest published.1) published.2
      = some { row := rowR digest published.1, statement := "r", falsifier := none, kind := none
               pins := some pins }) :
    verifiedClaims diamondReader "P-1" (diamondRows digest published.1)
      = diamond (rowR digest published.1) pins := by
  obtain ⟨hB1, hX, hA, hB2, -, -, -⟩ := diamond_sizes
  obtain ⟨hshaB1, hparseB1⟩ := diamondReader_read hB1 (by decide)
  obtain ⟨hshaX, hparseX⟩ := diamondReader_read hX (by decide)
  obtain ⟨hshaA, hparseA⟩ := diamondReader_read hA (by decide)
  obtain ⟨hshaB2, hparseB2⟩ := diamondReader_read hB2 (by decide)
  have hrows : verifyRows diamondReader "P-1" 0 (diamondRows digest published.1)
      = diamond (rowR digest published.1) pins := by
    have htotal : 0 + (diamondRows digest published.1).length * 498 ≤ dependencyTotalBytes := by
      have hlength : (diamondRows digest published.1).length = 5 := rfl
      rw [hlength]
      decide
    rw [verifyRows_read 498 (by decide) htotal]
    · rw [diamondRows, List.flatMap_cons, List.flatMap_cons, List.flatMap_cons, List.flatMap_cons,
        List.flatMap_cons, List.flatMap_nil, verifiedRow_eq rfl hparse hroot,
        verifiedRow_eq rfl hparseA (if_pos (by decide)),
        verifiedRow_eq rfl hparseB1 (if_pos (by decide)),
        verifiedRow_eq rfl hparseB2 (if_pos (by decide)),
        verifiedRow_eq rfl hparseX (if_pos (by decide))]
      rfl
    · intro row hrow
      simp only [diamondRows, List.mem_cons, List.not_mem_nil, or_false] at hrow
      rcases hrow with rfl | rfl | rfl | rfl | rfl
      · exact ⟨rfl, _, rfl, hsize.le, hdigest⟩
      · exact ⟨rfl, _, rfl, by omega, hshaA⟩
      · exact ⟨rfl, _, rfl, by omega, hshaB1⟩
      · exact ⟨rfl, _, rfl, by omega, hshaB2⟩
      · exact ⟨rfl, _, rfl, by omega, hshaX⟩
  have htake : (diamondRows digest published.1).take dependencyClosureLimit
      = diamondRows digest published.1 := rfl
  rw [verifiedClaims, htake, hrows]
  rfl

def verifiedR : List VerifiedClaim := diamond (rowR digestR publicationR.1) [pinA, pinB2]
def verifiedR' : List VerifiedClaim := diamond (rowR digestR' publicationR'.1) [pinB2, pinA]

theorem verifiedR_eq :
    verifiedClaims diamondReader "P-1" (diamondRows digestR publicationR.1) = verifiedR := by
  obtain ⟨-, -, -, -, hR, -, hne⟩ := diamond_sizes
  have hread : diamondReader.sha256 publicationR.1 = digestR
      ∧ diamondReader.parse publicationR.1 = some publicationR.2 := by
    simp only [diamondReader, hne, hR, if_false]
    exact ⟨rfl, rfl⟩
  exact diamond_verified digestR publicationR [pinA, pinB2] hR hread.1 hread.2
    (if_pos (by decide))

theorem verifiedR'_eq :
    verifiedClaims diamondReader "P-1" (diamondRows digestR' publicationR'.1) = verifiedR' := by
  obtain ⟨-, -, -, -, -, hR', -⟩ := diamond_sizes
  have hread' : diamondReader.sha256 publicationR'.1 = digestR'
      ∧ diamondReader.parse publicationR'.1 = some publicationR'.2 := by
    simp [diamondReader]
  exact diamond_verified digestR' publicationR' [pinB2, pinA] hR' hread'.1 hread'.2
    (if_pos (by decide))

theorem diamond_repinned : Repinned verifiedR verifiedR' := by
  have hsame : ∀ {claim claim' pin}, isSound verifiedR' claim' pin = isSound verifiedR claim pin →
      SamePin verifiedR verifiedR' claim claim' pin pin := fun h => ⟨rfl, rfl, rfl, h⟩
  refine .cons ⟨rfl, rfl, .some ⟨[pinB2, pinA], .swap .., .cons (hsame ?_) (.cons (hsame ?_) .nil)⟩⟩
    (.cons ⟨rfl, rfl, .some ⟨_, .refl _, .cons (hsame ?_) .nil⟩⟩
    (.cons ⟨rfl, rfl, .some ⟨_, .refl _, .nil⟩⟩
    (.cons ⟨rfl, rfl, .some ⟨_, .refl _, .cons (hsame ?_) .nil⟩⟩
    (.cons ⟨rfl, rfl, .some ⟨_, .refl _, .cons (hsame ?_) .nil⟩⟩ .nil))))
  all_goals decide +kernel

/-- Listing the pins of one claim in another order turns a complete
closure into an incomplete one; the complete one holds a chain that
returns to `C-3`. -/
theorem order_decides :
    Repinned (verifiedClaims diamondReader "P-1" (diamondRows digestR publicationR.1))
        (verifiedClaims diamondReader "P-1" (diamondRows digestR' publicationR'.1))
      ∧ (composeDependencyClosure diamondReader (diamondRows digestR publicationR.1) "P-1"
          "C-1@1").complete = true
      ∧ (composeDependencyClosure diamondReader (diamondRows digestR' publicationR'.1) "P-1"
          "C-1@1").complete = false
      ∧ ¬RevisitFree (verifiedClaims diamondReader "P-1" (diamondRows digestR publicationR.1))
          "R1" := by
  have hcompose : ∀ digest json,
      composeDependencyClosure diamondReader (diamondRows digest json) "P-1" "C-1@1"
        = closureOf (verifiedClaims diamondReader "P-1" (diamondRows digest json)) true
          (some "R1") "C-1@1" := fun _ _ => rfl
  rw [hcompose, hcompose, verifiedR_eq, verifiedR'_eq]
  refine ⟨diamond_repinned, by decide +kernel, by decide +kernel, fun hfree => ?_⟩
  have hwalk : Walk (soundPins verifiedR) "R1" ((([("R1" : String)] ++ ["B2"]) ++ ["X1"]) ++ ["B1"])
      "B1" :=
    .step (.step (.step .start (u := "R1") (by decide +kernel)) (by decide +kernel))
      (by decide +kernel)
  exact absurd (hfree _ _ hwalk) (by decide +kernel)

theorem circularity_iff_diamond :
    ((∀ verified', Repinned verifiedR verified' →
        SameOutcome (closureOf verifiedR true (some "R1") "C-1@1")
          (closureOf verified' true (some "R1") "C-1@1"))
      ∧ ((closureOf verifiedR true (some "R1") "C-1@1").complete = true →
        ∀ eventId ∈ some "R1", RevisitFree verifiedR eventId))
    ↔ ∀ eventId ∈ some "R1", ∀ claim, verifiedGet verifiedR eventId = some claim →
        claim.target = "C-1@1" → Unambiguous verifiedR eventId
          ∧ (RevisitFree verifiedR eventId ∨ Defect verifiedR true eventId) :=
  circularity_iff verifiedR true (some "R1") "C-1@1" (by decide +kernel)

end Asimposium
