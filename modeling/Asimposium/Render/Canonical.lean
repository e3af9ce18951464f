import Mathlib.Data.List.Lex
import Mathlib.Data.List.Sort
import Asimposium.Render.Json

/-!
# Canonical serialization and the fingerprint

`stableStringify` prints a value with the members of every object in the
order of their keys, so a text does not depend on how its object was
built. The fingerprint is FNV-1a over the bytes of such a text.
-/

namespace Asimposium

open Text

/-! ## The order of keys -/

/-- The code units as numbers, which compare as the texts do. -/
def textKey (t : Text) : List Nat := t.map UInt16.toNat

theorem textKey_injective : Function.Injective textKey :=
  List.map_injective_iff.mpr fun _ _ h => UInt16.toNat_inj.mp h

theorem le_iff_textKey (s t : Text) : Text.le s t = true ↔ textKey s ≤ textKey t := by
  rw [← not_lt]
  induction s generalizing t with
  | nil => exact iff_of_true rfl (List.not_lt_nil _)
  | cons u s ih =>
      cases t with
      | nil => exact iff_of_false Bool.false_ne_true fun h => h (List.nil_lt_cons _ _)
      | cons v t =>
          have hcons : textKey (v :: t) < textKey (u :: s)
              ↔ v.toNat < u.toNat ∨ v.toNat = u.toNat ∧ textKey t < textKey s :=
            List.cons_lt_cons_iff
          have hle : Text.le (u :: s) (v :: t) = true
              ↔ u.toNat < v.toNat ∨ u.toNat = v.toNat ∧ Text.le s t = true := by
            simp [Text.le, UInt16.lt_iff_toNat_lt, UInt16.toNat_inj]
          rw [hcons, hle, ih t]
          rcases Nat.lt_trichotomy u.toNat v.toNat with hlt | heq | hgt
          · simp [hlt, hlt.not_gt, hlt.ne']
          · simp [heq]
          · simp [hgt, hgt.not_gt, hgt.ne']

/-! ## Sorted values -/

namespace Json

mutual

/-- `sortValue`. -/
def sorted : Json → Json
  | .arr vs => .arr (sortedElements vs)
  | .obj ms => .obj ((sortedMembers ms).insertionSort fun left right => Text.le left.1 right.1)
  | value => value

def sortedElements : List Json → List Json
  | [] => []
  | v :: vs => sorted v :: sortedElements vs

def sortedMembers : List (Text × Json) → List (Text × Json)
  | [] => []
  | (k, v) :: ms => (k, sorted v) :: sortedMembers ms

end

theorem membersSize_perm (gap indent : Nat) {ms ms' : List (Text × Json)} (h : ms.Perm ms') :
    membersSize gap indent ms = membersSize gap indent ms' := by
  induction h with
  | nil => rfl
  | cons m _ ih => rw [membersSize, membersSize, ih]
  | swap m m' ms => rw [membersSize, membersSize, membersSize, membersSize]; omega
  | trans _ _ ih ih' => exact ih.trans ih'

theorem size_obj_perm (gap indent : Nat) {ms ms' : List (Text × Json)} (h : ms.Perm ms') :
    size gap indent (.obj ms) = size gap indent (.obj ms') := by
  have hlength := h.length_eq
  match ms, ms', hlength with
  | [], [], _ => rfl
  | m :: ms, m' :: ms', _ => rw [size, size, membersSize_perm gap (indent + gap) h]

mutual

theorem size_sorted (gap indent : Nat) (value : Json) :
    size gap indent (sorted value) = size gap indent value := by
  match value with
  | .null => rfl
  | .bool b => rfl
  | .num n => rfl
  | .str t => rfl
  | .arr [] => rfl
  | .arr (v :: vs) =>
      have helements := elementsSize_sorted gap (indent + gap) (v :: vs)
      rw [sorted, sortedElements]
      rw [sortedElements] at helements
      rw [size, size, helements]
  | .obj [] => rfl
  | .obj ((k, v) :: ms) =>
      have hmembers := membersSize_sorted gap (indent + gap) ((k, v) :: ms)
      rw [sorted, size_obj_perm gap indent (List.perm_insertionSort ..), sortedMembers]
      rw [sortedMembers] at hmembers
      rw [size, size, hmembers]

theorem elementsSize_sorted (gap indent : Nat) (vs : List Json) :
    elementsSize gap indent (sortedElements vs) = elementsSize gap indent vs := by
  match vs with
  | [] => rfl
  | v :: vs =>
      rw [sortedElements, elementsSize, elementsSize, size_sorted gap indent v,
        elementsSize_sorted gap indent vs]

theorem membersSize_sorted (gap indent : Nat) (ms : List (Text × Json)) :
    membersSize gap indent (sortedMembers ms) = membersSize gap indent ms := by
  match ms with
  | [] => rfl
  | (k, v) :: ms =>
      rw [sortedMembers, membersSize, membersSize, size_sorted gap indent v,
        membersSize_sorted gap indent ms]

end

/-- A member of an object: absent members are not printed. -/
def member (key : String) (value : Json) : List (Text × Json) := [(text key, value)]

def member? (key : String) (value : Option Json) : List (Text × Json) :=
  value.toList.map fun value => (text key, value)

end Json

def stableStringify (value : Json) (indent : Nat) : Text := value.sorted.stringify indent 0

theorem byteLength_stableStringify (value : Json) (indent : Nat) :
    byteLength (stableStringify value indent) = value.size indent 0 := by
  rw [stableStringify, Json.byteLength_stringify, Json.size_sorted]

/-! ## The fingerprint -/

def fnvStep (hash byte : Nat) : Nat := ((hash ^^^ byte) * 0x100000001b3) % 2 ^ 64

/-- `hash.toString(16).padStart(16, "0")`. -/
def paddedHex (n : Nat) : Text :=
  let digits := (Nat.toDigits 16 n).map unit
  List.replicate (16 - digits.length) (unit '0') ++ digits

def contentFingerprint (t : Text) : Text :=
  text "fnv1a64:" ++ paddedHex (t.utf8.foldl fnvStep 0xcbf29ce484222325)

theorem digitChar_plain {d : Nat} (h : d < 16) : Json.isPlain (unit (Nat.digitChar d)) = true := by
  revert d
  decide

theorem toDigits_plain {n : Nat} {c : Char} (h : c ∈ Nat.toDigits 16 n) :
    Json.isPlain (unit c) = true := by
  induction n using Nat.strong_induction_on with
  | _ n ih =>
      rw [Nat.toDigits_eq_if (by decide)] at h
      split at h
      · rename_i hlt
        rw [List.mem_singleton.mp h]
        exact digitChar_plain hlt
      · rename_i hge
        rcases List.mem_append.mp h with h | h
        · exact ih (n / 16) (Nat.div_lt_self (by omega) (by decide)) h
        · rw [List.mem_singleton.mp h]
          exact digitChar_plain (Nat.mod_lt _ (by decide))

theorem foldl_fnvStep_lt (bytes : List Nat) {hash : Nat} (h : hash < 2 ^ 64) :
    bytes.foldl fnvStep hash < 2 ^ 64 := by
  induction bytes generalizing hash with
  | nil => exact h
  | cons byte bytes ih => exact ih (Nat.mod_lt _ (by decide))

theorem paddedHex_length {n : Nat} (h : n < 2 ^ 64) : (paddedHex n).length = 16 := by
  have hdigits : (Nat.toDigits 16 n).length ≤ 16 :=
    (Nat.length_toDigits_le_iff (by decide) (by decide)).mpr h
  simp only [paddedHex, List.length_append, List.length_replicate, List.length_map]
  omega

theorem paddedHex_plain {n : Nat} {u : UInt16} (h : u ∈ paddedHex n) :
    Json.isPlain u = true := by
  rcases List.mem_append.mp h with h | h
  · rw [(List.mem_replicate.mp h).2]
    decide
  · obtain ⟨c, hc, rfl⟩ := List.mem_map.mp h
    exact toDigits_plain hc

theorem contentFingerprint_plain (t : Text) {u : UInt16} (h : u ∈ contentFingerprint t) :
    Json.isPlain u = true := by
  rcases List.mem_append.mp h with h | h
  · exact List.all_eq_true.mp (by decide : (text "fnv1a64:").all Json.isPlain = true) u h
  · exact paddedHex_plain h

theorem contentFingerprint_length (t : Text) : (contentFingerprint t).length = 24 := by
  rw [contentFingerprint, List.length_append,
    paddedHex_length (foldl_fnvStep_lt _ (by decide))]
  rfl

end Asimposium
