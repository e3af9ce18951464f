import Asimposium.Krater.Export
import Mathlib.Data.List.Nodup

/-!
# The nonce table

The digests of the nonces that were presented, each until it expires. A
claim is one conflict-aware statement: it inserts the digest, or takes
over a row that has expired, and otherwise changes nothing. Expired rows
are deleted by bounded batches before each claim and by the scheduled
sweep.
-/

namespace Asimposium.Envelopes

open Krater

structure NonceRow where
  nonceHash : String
  expiresAt : Int
  claimedAt : Int
deriving DecidableEq

def validEpochSecond (value : Int) : Bool := isSafeInteger value && 0 ≤ value

/-- The input contract of every nonce store: the window must still be
open. -/
def claimableWindow (expiresAt now : Int) : Bool :=
  validEpochSecond now && validEpochSecond expiresAt && now < expiresAt

/-! ## `D1NonceStore` -/

/-- The adapter over the table; a cleanup batch is never empty by
configuration. -/
structure D1NonceStore where
  cleanupBatchSize : Nat
  positive : 1 ≤ cleanupBatchSize

/-- The expired rows of one cleanup batch, the oldest first. -/
def D1NonceStore.batch (store : D1NonceStore) (now : Int) (rows : List NonceRow) : List NonceRow :=
  ((rows.filter fun r => r.expiresAt ≤ now).mergeSort fun a b => a.expiresAt ≤ b.expiresAt).take
    store.cleanupBatchSize

def D1NonceStore.cleanupExpired (store : D1NonceStore) (now : Int) (rows : List NonceRow) :
    List NonceRow :=
  rows.filter fun r => !((store.batch now rows).map (·.nonceHash)).contains r.nonceHash

/-- The upsert: `none` when a `CHECK` of the table refuses the row, else the
table and whether a row changed. -/
def claimNonce (nonceHash : String) (expiresAt now : Int) (rows : List NonceRow) :
    Option (List NonceRow × Bool) :=
  if !(isSha256Hex nonceHash && now < expiresAt) then none
  else match rows.find? (·.nonceHash == nonceHash) with
    | none => some (rows ++ [⟨nonceHash, expiresAt, now⟩], true)
    | some row =>
        if row.expiresAt ≤ now then
          some (rows.map fun r =>
            if r.nonceHash == nonceHash then ⟨nonceHash, expiresAt, now⟩ else r, true)
        else some (rows, false)

def expireSecurityRecords (nowMs : Int) (rows : List NonceRow) : List NonceRow :=
  rows.filter fun r => !(r.expiresAt ≤ nowMs / 1000)

/-! ## What the statements keep -/

/-- The digest has a row that expires at `instant` or later. -/
def Remembered (rows : List NonceRow) (nonceHash : String) (instant : Int) : Prop :=
  ∃ r ∈ rows, r.nonceHash = nonceHash ∧ instant ≤ r.expiresAt

/-- `nonce_hash` is the primary key. -/
def Keyed (rows : List NonceRow) : Prop := (rows.map (·.nonceHash)).Nodup

variable {rows : List NonceRow} {r : NonceRow}

theorem Keyed.eq (h : Keyed rows) {q : NonceRow} (hr : r ∈ rows) (hq : q ∈ rows)
    (heq : r.nonceHash = q.nonceHash) : r = q :=
  List.inj_on_of_nodup_map h hr hq heq

variable {now : Int}

theorem D1NonceStore.mem_batch {store : D1NonceStore} (h : r ∈ store.batch now rows) :
    r ∈ rows ∧ r.expiresAt ≤ now := by
  have hsorted := List.mem_of_mem_take h
  rw [List.mem_mergeSort, List.mem_filter, decide_eq_true_eq] at hsorted
  exact hsorted

theorem D1NonceStore.mem_cleanupExpired {store : D1NonceStore} (hkeyed : Keyed rows)
    (hr : r ∈ rows) (hlive : now < r.expiresAt) : r ∈ store.cleanupExpired now rows := by
  unfold D1NonceStore.cleanupExpired
  rw [List.mem_filter]
  refine ⟨hr, ?_⟩
  rw [Bool.not_eq_true', List.contains_eq_mem, decide_eq_false_iff_not, List.mem_map]
  rintro ⟨q, hq, heq⟩
  obtain ⟨hmem, hexpired⟩ := D1NonceStore.mem_batch hq
  rw [hkeyed.eq hmem hr heq] at hexpired
  omega

theorem D1NonceStore.cleanupExpired_sublist (store : D1NonceStore) (now : Int)
    (rows : List NonceRow) : (store.cleanupExpired now rows).Sublist rows :=
  List.filter_sublist

theorem expireSecurityRecords_sublist (nowMs : Int) (rows : List NonceRow) :
    (expireSecurityRecords nowMs rows).Sublist rows :=
  List.filter_sublist

theorem mem_expireSecurityRecords {nowMs : Int} (hr : r ∈ rows)
    (hlive : nowMs / 1000 < r.expiresAt) : r ∈ expireSecurityRecords nowMs rows := by
  unfold expireSecurityRecords
  rw [List.mem_filter, Bool.not_eq_true', decide_eq_false_iff_not]
  exact ⟨hr, by omega⟩

theorem Keyed.sublist {rows' : List NonceRow} (h : Keyed rows) (hsub : rows'.Sublist rows) :
    Keyed rows' :=
  (hsub.map _).nodup h

theorem claimNonce_cases {nonceHash : String} {expiresAt : Int} {rows' : List NonceRow}
    {changed : Bool} (h : claimNonce nonceHash expiresAt now rows = some (rows', changed)) :
    (rows' = rows ++ [⟨nonceHash, expiresAt, now⟩] ∧ changed = true
      ∧ ∀ r ∈ rows, r.nonceHash ≠ nonceHash)
    ∨ (rows' = rows.map (fun r =>
          if r.nonceHash == nonceHash then ⟨nonceHash, expiresAt, now⟩ else r)
      ∧ changed = true ∧ ∃ r ∈ rows, r.nonceHash = nonceHash ∧ r.expiresAt ≤ now)
    ∨ (rows' = rows ∧ changed = false ∧ ∃ r ∈ rows, r.nonceHash = nonceHash ∧ now < r.expiresAt) := by
  unfold claimNonce at h
  split at h
  · cases h
  split at h
  · rename_i hnone
    obtain ⟨rfl, rfl⟩ := Prod.mk.inj (Option.some.inj h)
    refine .inl ⟨rfl, rfl, fun r hr heq => ?_⟩
    have hmiss := List.find?_eq_none.mp hnone r hr
    exact hmiss (beq_iff_eq.mpr heq)
  · rename_i row hrow
    have hmem := List.mem_of_find?_eq_some hrow
    have hfound := List.find?_some (p := fun q : NonceRow => q.nonceHash == nonceHash) hrow
    have hhash : row.nonceHash = nonceHash := beq_iff_eq.mp hfound
    split at h
    · rename_i hexpired
      obtain ⟨rfl, rfl⟩ := Prod.mk.inj (Option.some.inj h)
      exact .inr (.inl ⟨rfl, rfl, row, hmem, hhash, hexpired⟩)
    · obtain ⟨rfl, rfl⟩ := Prod.mk.inj (Option.some.inj h)
      exact .inr (.inr ⟨rfl, rfl, row, hmem, hhash, by omega⟩)

theorem claimNonce_changed {nonceHash : String} {expiresAt : Int} {rows' : List NonceRow}
    {changed : Bool} (hkeyed : Keyed rows)
    (h : claimNonce nonceHash expiresAt now rows = some (rows', changed)) :
    changed = false ↔ ∃ r ∈ rows, r.nonceHash = nonceHash ∧ now < r.expiresAt := by
  rcases claimNonce_cases h with ⟨-, rfl, hfresh⟩ | ⟨-, rfl, q, hq, hhash, hexpired⟩ | ⟨-, rfl, hlive⟩
  · refine ⟨fun hfalse => (by cases hfalse), ?_⟩
    rintro ⟨r, hr, heq, -⟩
    exact absurd heq (hfresh r hr)
  · refine ⟨fun hfalse => (by cases hfalse), ?_⟩
    rintro ⟨r, hr, heq, hlive⟩
    rw [hkeyed.eq hr hq (heq.trans hhash.symm)] at hlive
    omega
  · exact ⟨fun _ => hlive, fun _ => rfl⟩

end Asimposium.Envelopes
