import Mathlib
import Asimposium.Render.PackFace

/-!
# What the estimates settle on

An estimate of a face of so many bytes above a floor is the least number
at or above both that covers the face with its own digits. The loops that
look for it ascend, so they settle, whether the face is rendered or
accounted for, and so does the loop over a single item.
-/

namespace Asimposium

open Text Json ExceptRun Settle

/-! ## Estimates -/

theorem ceilQuarter_le {bytes n : Nat} : ceilQuarter bytes ≤ n ↔ bytes ≤ 4 * n := by
  unfold ceilQuarter
  omega

theorem ceilQuarter_mono {m n : Nat} (h : m ≤ n) : ceilQuarter m ≤ ceilQuarter n := by
  unfold ceilQuarter
  omega

/-- The estimate that follows an estimate of a face of `size` bytes
without the digits. -/
def nextEstimate (size floor estimate : Nat) : Nat := max floor (ceilQuarter (size + width estimate))

theorem nextEstimate_mono (size floor : Nat) : Monotone (nextEstimate size floor) := by
  intro m n h
  have hwidth := width_mono h
  exact max_le_max le_rfl (ceilQuarter_mono (by omega))

theorem le_nextEstimate (size floor : Nat) : max 1 floor ≤ nextEstimate size floor (max 1 floor) := by
  have hwidth := width_pos (max 1 floor)
  unfold nextEstimate ceilQuarter
  omega

def Covers (size estimate : Nat) : Prop := size + width estimate ≤ 4 * estimate

theorem nextEstimate_le {size floor estimate : Nat} :
    nextEstimate size floor estimate ≤ estimate ↔ floor ≤ estimate ∧ Covers size estimate := by
  rw [nextEstimate, max_le_iff, ceilQuarter_le]
  rfl

/-- What a loop over the estimates of a face returns: the least estimate
above the floor that covers the face, or something over the budget. -/
structure Estimates (size floor budget result : Nat) : Prop where
  above : max 1 floor ≤ result
  least : ∀ estimate, max 1 floor ≤ estimate → Covers size estimate → result ≤ estimate
  covers : result ≤ budget → Covers size result

/-- An estimate above the floor and within the budget covers the face. -/
def Fits (size floor budget : Nat) : Prop :=
  ∃ estimate, max 1 floor ≤ estimate ∧ estimate ≤ budget ∧ Covers size estimate

theorem Estimates.le_iff {size floor budget result : Nat}
    (h : Estimates size floor budget result) : result ≤ budget ↔ Fits size floor budget := by
  constructor
  · intro hle
    exact ⟨result, h.above, hle, h.covers hle⟩
  · rintro ⟨estimate, habove, hle, hcovers⟩
    exact (h.least estimate habove hcovers).trans hle

theorem Fits.floor_le {size floor budget : Nat} (h : Fits size floor budget) :
    max 1 floor ≤ budget := by
  obtain ⟨estimate, habove, hle, _⟩ := h
  exact habove.trans hle

theorem Fits.mono {size size' floor floor' budget budget' : Nat} (h : Fits size floor budget)
    (hsize : size' ≤ size) (hfloor : floor' ≤ floor) (hbudget : budget ≤ budget') :
    Fits size' floor' budget' := by
  obtain ⟨estimate, habove, hle, hcovers⟩ := h
  unfold Covers at hcovers
  exact ⟨estimate, by omega, hle.trans hbudget, by unfold Covers; omega⟩

theorem settle_estimates {ε : Type} {next : Nat → Except ε Nat} {exhausted : ε}
    {size floor budget fuel result : Nat}
    (hnext : ∀ estimate following, next estimate = .ok following →
      following = nextEstimate size floor estimate)
    (h : Settle.settle next (fun estimate => decide (budget < estimate)) exhausted fuel
      (max 1 floor) = .ok result) : Estimates size floor budget result := by
  have hascends : Ascends next (nextEstimate size floor) (max 1 floor) :=
    ⟨nextEstimate_mono size floor, le_nextEstimate size floor, hnext⟩
  obtain ⟨habove, hleast⟩ := settle_least hascends h
  refine ⟨habove, fun estimate hestimate hcovers => hleast estimate hestimate
    (nextEstimate_le.mpr ⟨by omega, hcovers⟩), fun hle => ?_⟩
  have hfixed := settle_fixed hascends h (decide_eq_false (by omega))
  exact (nextEstimate_le.mp hfixed.le).2

theorem settle_estimates_ne {ε : Type} {next : Nat → Except ε Nat} {exhausted : ε}
    {size floor budget : Nat}
    (hnext : ∀ estimate following, next estimate = .ok following →
      following = nextEstimate size floor estimate)
    (herror : ∀ estimate, next estimate ≠ .error exhausted) (hfloor : max 1 floor ≤ budget) :
    Settle.settle next (fun estimate => decide (budget < estimate)) exhausted (budget + 2)
      (max 1 floor) ≠ .error exhausted := by
  refine settle_not_exhausted ⟨nextEstimate_mono size floor, le_nextEstimate size floor, hnext⟩
    herror hfloor ?_ (by omega)
  intro value _ hover
  have hle := of_decide_eq_false hover
  omega

section Rendered

variable {renderer : Renderer} {pack : PackContents}

theorem renderedStep_ok {floor estimate following : Nat}
    (h : (renderedBytes renderer (packProjection pack estimate)).map (fun bytes =>
      max floor (ceilQuarter bytes)) = .ok following) :
    following = nextEstimate (faceSize renderer.toSanitizer pack) floor estimate := by
  obtain ⟨bytes, hbytes, rfl⟩ := map_ok.mp h
  rw [renderedBytes_eq hbytes]
  rfl

theorem renderedBytes_ne_unsettled {projection : Projection} :
    renderedBytes renderer projection ≠ .error .unsettled := by
  unfold renderedBytes
  split
  · intro h
    cases h
  · intro h
    cases h

theorem renderedFaceTokenEstimate_ok {floor result : Nat}
    (h : renderedFaceTokenEstimate renderer pack floor = .ok result) :
    Estimates (faceSize renderer.toSanitizer pack) floor pack.budgetTokens result := by
  unfold renderedFaceTokenEstimate at h
  dsimp only at h
  split at h
  · rename_i hover
    rw [← Except.ok.inj h]
    exact ⟨le_rfl, fun _ habove _ => habove, fun hle => absurd hover (Nat.not_lt.mpr hle)⟩
  · exact settle_estimates (fun _ _ => renderedStep_ok) h

theorem renderedFaceTokenEstimate_ne_unsettled (floor : Nat) :
    renderedFaceTokenEstimate renderer pack floor ≠ .error .unsettled := by
  unfold renderedFaceTokenEstimate
  dsimp only
  split
  · intro h
    cases h
  · rename_i hfloor
    refine settle_estimates_ne (fun _ _ => renderedStep_ok) ?_ (Nat.not_lt.mp hfloor)
    intro estimate h
    exact renderedBytes_ne_unsettled (map_error.mp h)

theorem renderedFaceTokenEstimate_rendered {floor result : Nat}
    (h : renderedFaceTokenEstimate renderer pack floor = .ok result)
    (hle : result ≤ pack.budgetTokens) :
    ∃ prepared, prepareProjection renderer (packProjection pack result) = .ok prepared
      ∧ ceilQuarter (byteLength (renderJsonFace prepared)) ≤ result := by
  unfold renderedFaceTokenEstimate at h
  dsimp only at h
  split at h
  · rename_i hover
    rw [← Except.ok.inj h] at hle
    omega
  · rcases settle_result h with hover | hfixed
    · have hlt := of_decide_eq_true hover
      omega
    · obtain ⟨bytes, hbytes, hresult⟩ := map_ok.mp hfixed
      unfold renderedBytes at hbytes
      split at hbytes
      · cases hbytes
      · rename_i prepared hprepared
        refine ⟨prepared, hprepared, ?_⟩
        rw [Except.ok.inj hbytes]
        exact (le_max_right _ _).trans hresult.le

theorem renderedFaceTokenEstimate_accepted (haccepted : PackAccepted renderer pack) {floor : Nat}
    (hitems : floor ≤ pack.budgetTokens → itemTokens pack.items ≤ floor) :
    ∃ result, renderedFaceTokenEstimate renderer pack floor = .ok result := by
  have hne := @renderedFaceTokenEstimate_ne_unsettled renderer pack floor
  unfold renderedFaceTokenEstimate at hne ⊢
  dsimp only at hne ⊢
  split at hne
  · rename_i hover
    exact ⟨_, if_pos hover⟩
  · rename_i hfloor
    rw [if_neg hfloor]
    refine settle_ok_of (P := fun estimate => max 1 floor ≤ estimate
      ∧ estimate ≤ pack.budgetTokens) ?_ ⟨le_rfl, Nat.not_lt.mp hfloor⟩ hne
    rintro estimate ⟨habove, hle⟩
    have hfloorItems := hitems (by omega)
    refine ⟨_, map_ok.mpr ⟨_, renderedBytes_accepted haccepted (by omega) hle (by omega), rfl⟩,
      fun hinside => ⟨?_, Nat.not_lt.mp (of_decide_eq_false hinside)⟩⟩
    exact (le_nextEstimate _ floor).trans (nextEstimate_mono _ floor habove)

end Rendered

/-! ## Token sums -/

theorem addNumber_of_lt {a b : Nat} (h : a + b < 2 ^ 53) : addNumber a b = a + b :=
  Significand.round_of_lt (by decide) h

theorem addNumber_eq_of_lt {a b : Nat} (h : addNumber a b < 2 ^ 53) : addNumber a b = a + b :=
  Significand.eq_of_round_lt (by decide) h

theorem subNumber_of_lt {a b : Nat} (h : a < 2 ^ 53) : subNumber a b = a - b :=
  Significand.round_of_lt (by decide) ((Nat.sub_le a b).trans_lt h)

def runTokens (items : List ComposedPackItem) : Nat :=
  items.foldl (fun total item => addNumber total item.tokens) 0

theorem runTokens_concat (items : List ComposedPackItem) (item : ComposedPackItem) :
    runTokens (items ++ [item]) = addNumber (runTokens items) item.tokens := List.foldl_concat ..

theorem itemTokens_concat (items : List ComposedPackItem) (item : ComposedPackItem) :
    itemTokens (items ++ [item]) = itemTokens items + item.tokens := by
  simp [itemTokens]

theorem runTokens_eq {items : List ComposedPackItem} (h : runTokens items < 2 ^ 53) :
    runTokens items = itemTokens items := by
  induction items using List.reverseRecOn with
  | nil => rfl
  | append_singleton items item ih =>
      rw [runTokens_concat] at h ⊢
      have hsum := addNumber_eq_of_lt h
      rw [hsum] at h ⊢
      rw [ih (by omega), itemTokens_concat]

theorem runTokens_of_lt {items : List ComposedPackItem} (h : itemTokens items < 2 ^ 53) :
    runTokens items = itemTokens items := by
  induction items using List.reverseRecOn with
  | nil => rfl
  | append_singleton items item ih =>
      rw [itemTokens_concat] at h
      rw [runTokens_concat, itemTokens_concat, ih (by omega), addNumber_of_lt h]

/-! ## The whole pack -/

theorem estimatePackTokens_ok {renderer : Renderer} {pack : PackContents} {result : Nat}
    (h : estimatePackTokens renderer pack = .ok result) :
    ∃ envelope, renderedFaceTokenEstimate renderer (emptyPack pack) 0 = .ok envelope
      ∧ renderedFaceTokenEstimate renderer pack (addNumber (runTokens pack.items) envelope)
        = .ok result := bind_ok.mp h

theorem estimatePackTokens_ne_unsettled (renderer : Renderer) (pack : PackContents) :
    estimatePackTokens renderer pack ≠ .error .unsettled := by
  intro h
  rcases bind_error.mp h with h | ⟨_, _, h⟩
  · exact renderedFaceTokenEstimate_ne_unsettled 0 h
  · exact renderedFaceTokenEstimate_ne_unsettled _ h

theorem estimatePackTokens_accepted {renderer : Renderer} {pack : PackContents}
    (haccepted : PackAccepted renderer pack) {envelope : Nat}
    (henvelope : renderedFaceTokenEstimate renderer (emptyPack pack) 0 = .ok envelope) :
    ∃ result, estimatePackTokens renderer pack = .ok result
      ∧ Estimates (faceSize renderer.toSanitizer pack)
        (addNumber (runTokens pack.items) envelope) pack.budgetTokens result := by
  have hbudget : pack.budgetTokens < 2 ^ 53 := by
    have hle := haccepted.budget
    unfold maxSafeInteger at hle
    omega
  have hitems : addNumber (runTokens pack.items) envelope ≤ pack.budgetTokens →
      itemTokens pack.items ≤ addNumber (runTokens pack.items) envelope := by
    intro hfloor
    have hsum := addNumber_eq_of_lt (hfloor.trans_lt hbudget)
    have hlt : runTokens pack.items < 2 ^ 53 := by omega
    rw [hsum, runTokens_eq hlt]
    exact Nat.le_add_right _ _
  obtain ⟨result, hresult⟩ := renderedFaceTokenEstimate_accepted haccepted hitems
  exact ⟨result, bind_ok.mpr ⟨envelope, henvelope, hresult⟩, renderedFaceTokenEstimate_ok hresult⟩

section Item

variable {sanitizer : Sanitizer} {item : PackCandidate}

theorem preparedFaceItemObject_size (gap indent estimate : Nat) :
    size gap indent (preparedFaceItemObject sanitizer item estimate) + 1
      = size gap indent (preparedFaceItemObject sanitizer item 0) + width estimate := by
  have hobj : ∀ m ms, size gap indent (.obj (m :: ms))
      = 1 + newlineSize gap indent + membersSize gap (indent + gap) (m :: ms) := fun _ _ => rfl
  have hmember : ∀ key value, membersSize gap (indent + gap) (member key value)
      = 1 + newlineSize gap (indent + gap) + keySize gap (text key)
        + size gap (indent + gap) value := fun key value => rfl
  have hnum : ∀ n : Nat, size gap (indent + gap) (.num n) = width n := fun n => by
    rw [size, ofInt_natCast]
    rfl
  have hzero : width 0 = 1 := by decide
  simp only [preparedFaceItemObject, member, List.cons_append, List.nil_append, hobj]
  simp only [membersSize, hnum, hzero]
  omega

/-- The bytes of the object of an item, with its delimiter, but for the
digits of its estimate. -/
def objectSize (sanitizer : Sanitizer) (item : PackCandidate) : Nat :=
  size 0 0 (preparedFaceItemObject sanitizer item 0)

theorem wholeItemStep (supplied estimate : Nat) :
    max supplied (ceilQuarter
        (byteLength (stableStringify (preparedFaceItemObject sanitizer item estimate) 0) + 1))
      = nextEstimate (objectSize sanitizer item) supplied estimate := by
  rw [byteLength_stableStringify, preparedFaceItemObject_size]
  rfl

/-- The estimate of an item is the least at or above the supplied one that
covers its object with a delimiter. -/
theorem wholeItemTokenUpperBound_ok (sanitizer : Sanitizer) (item : PackCandidate)
    (supplied : Nat) : ∃ tokens, wholeItemTokenUpperBound sanitizer item supplied = .ok tokens
      ∧ supplied ≤ tokens ∧ Covers (objectSize sanitizer item) tokens := by
  have hcomputes : ∀ estimate following, (Except.ok (max supplied (ceilQuarter
      (byteLength (stableStringify (preparedFaceItemObject sanitizer item estimate) 0) + 1))) :
        Except PackFailure Nat) = .ok following →
      following = nextEstimate (objectSize sanitizer item) supplied estimate := by
    intro estimate following h
    rw [← Except.ok.inj h, wholeItemStep]
  have hascends : Ascends (fun estimate => (Except.ok (max supplied (ceilQuarter
      (byteLength (stableStringify (preparedFaceItemObject sanitizer item estimate) 0) + 1))) :
        Except PackFailure Nat)) (nextEstimate (objectSize sanitizer item) supplied) supplied :=
    ⟨nextEstimate_mono _ _, le_max_left _ _, hcomputes⟩
  have hsize : 1 ≤ objectSize sanitizer item := by
    unfold objectSize preparedFaceItemObject
    simp only [member, List.cons_append, List.nil_append, size]
    omega
  have hbytes : byteLength (stableStringify (preparedFaceItemObject sanitizer item supplied) 0) + 1
      = objectSize sanitizer item + width supplied := by
    rw [byteLength_stableStringify, preparedFaceItemObject_size]
    rfl
  have hne : wholeItemTokenUpperBound sanitizer item supplied ≠ .error .unsettled := by
    refine settle_not_exhausted hascends (fun _ h => by cases h)
      (le_max_left supplied (objectSize sanitizer item)) ?_ (by dsimp only; omega)
    intro value hvalue _
    refine max_le (le_max_left _ _) (ceilQuarter_le.mpr ?_)
    have hmono := width_mono hvalue
    have hself := width_le_self (n := max supplied (objectSize sanitizer item)) (by omega)
    omega
  obtain ⟨tokens, htokens⟩ := settle_ok_of (P := fun _ => True)
    (fun _ _ => ⟨_, rfl, fun _ => trivial⟩) trivial hne
  refine ⟨tokens, htokens, (settle_least hascends htokens).1, ?_⟩
  exact (nextEstimate_le.mp (settle_fixed hascends htokens rfl).le).2

end Item

end Asimposium
