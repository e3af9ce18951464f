import Asimposium.Codec.Number
import Asimposium.Codec.Utf8
import Asimposium.Js
import Asimposium.Lib.PrefixFree
import Mathlib.Data.List.Perm.Subperm
import Mathlib.Data.Option.Basic

/-!
# The framing of signed claims

`parseEnvelope` and `canonicalBytes` over texts as code units. The encoder
replaces half of a surrogate pair, so texts that hold one share their bytes; the
bounds on the claims keep such texts out. The claim set of an accepted envelope
is the record that was received, whatever the order of its members.

Each field is framed as

    <byteLen(name)> ":" <name> ":" <byteLen(value)> ":" <value> 0x1E

and a list of frames is read off from the left, field by field.
-/

namespace Asimposium.Framing

open Text (isAscii isLower isDigit isAlphanumeric utf8 decimal byteLength)

/-! ## Untrusted values -/

/-- A number: integral, the negative zero, or anything else. -/
inductive JsNumber (F : Type) where
  | integer (n : Int)
  | negativeZero
  | other (x : F)

def JsNumber.safe {F : Type} : JsNumber F → Option Int
  | .integer n => if isSafeInteger n then some n else none
  | .negativeZero => some 0
  | .other _ => none

structure Record (α : Type) where
  members : List (Text × α)
  keys : (members.map (·.1)).Nodup

def Record.get {α : Type} (record : Record α) (key : Text) : Option α := record.members.lookup key

inductive ClaimValue (F : Type) where
  | text (t : Text)
  | number (x : JsNumber F)
  | other (x : F)

inductive EnvelopeValue (F : Type) where
  | record (claims : Record (ClaimValue F))
  | text (t : Text)
  | other (x : F)

inductive Untrusted (F : Type) where
  | record (value : Record (EnvelopeValue F))
  | other (x : F)

variable {F : Type}

/-! ## The signed bytes -/

def canonicalFields : List Text :=
  ["v", "kid", "alg", "iss", "aud", "iat", "exp", "nonce", "method", "route", "action",
    "principal_type", "principal_id", "payload_sha256"].map text

def fieldValue (claims : Record (ClaimValue F)) (field : Text) : Option Text :=
  match claims.get field with
  | some (.number x) => x.safe.map Text.ofInt
  | some (.text t) => some t
  | _ => none

def frameField (name value : Text) : List Nat :=
  utf8 (decimal (byteLength name) ++ [unit ':']) ++ utf8 name
    ++ (utf8 (unit ':' :: (decimal (byteLength value) ++ [unit ':'])) ++ utf8 value ++ [0x1e])

def domainPrefix : Text := text "asimp-env-1\n"

def canonicalBytes (claims : Record (ClaimValue F)) : Option (List Nat) := do
  let frames ← canonicalFields.mapM fun field => (fieldValue claims field).map (frameField field)
  some (utf8 domainPrefix ++ frames.flatten)

/-! ## The shape of an envelope -/

/-- `/^[…]+$/`. -/
def allOf (holds : UInt16 → Bool) (t : Text) : Bool := !t.isEmpty && t.all holds

/-- `[A-Za-z0-9]` and the characters given. -/
def alphanumericOr (extra : List Char) (u : UInt16) : Bool :=
  isAlphanumeric u || (extra.map unit).contains u

def isHex (u : UInt16) : Bool := isDigit u || (unit 'a' ≤ u && u ≤ unit 'f')

/-- `[a-z0-9.-]`. -/
def isPlane (u : UInt16) : Bool := isLower u || isDigit u || u == unit '.' || u == unit '-'

def isActionSeparator (u : UInt16) : Bool := u == unit '.' || u == unit '_' || u == unit '-'

/-- `[a-z0-9]*(?:[._-][a-z0-9]+)*$` inside of a word, and
`[a-z0-9]+(?:[._-][a-z0-9]+)*$` before one. -/
def actionFrom (inside : Bool) : Text → Bool
  | [] => inside
  | u :: rest =>
      if isLower u || isDigit u then actionFrom true rest
      else inside && isActionSeparator u && actionFrom false rest

/-- `/^\/[A-Za-z0-9/:._-]*$/`. -/
def isRouteTemplate : Text → Bool
  | [] => false
  | u :: rest => u == unit '/' && rest.all (alphanumericOr ['/', ':', '.', '_', '-'])

def methods : List Text :=
  ["GET", "HEAD", "POST", "PUT", "PATCH", "DELETE", "OPTIONS"].map text

structure ClaimBound where
  field : Text
  pattern : Text → Bool
  maxBytes : Nat

def claimBounds : List ClaimBound :=
  [⟨text "v", allOf (alphanumericOr ['.', '_', '-']), 32⟩,
    ⟨text "kid", allOf (alphanumericOr ['.', '_', '-']), 64⟩,
    ⟨text "alg", allOf (alphanumericOr ['_', '-']), 32⟩,
    ⟨text "iss", allOf isPlane, 64⟩,
    ⟨text "aud", allOf isPlane, 64⟩,
    ⟨text "method", methods.contains, 7⟩,
    ⟨text "route", isRouteTemplate, 256⟩,
    ⟨text "action", actionFrom false, 64⟩,
    ⟨text "principal_type", allOf fun u => isLower u || u == unit '_', 32⟩,
    ⟨text "principal_id", allOf (alphanumericOr ['_', '-']), 64⟩]

def ClaimBound.withinBounds (bound : ClaimBound) (value : Text) : Bool :=
  byteLength value ≤ bound.maxBytes && bound.pattern value

def isInstant (field : Text) : Bool := field == text "iat" || field == text "exp"

def fieldTyped (claims : Record (ClaimValue F)) (field : Text) : Bool :=
  match claims.get field with
  | some (.number x) => isInstant field && x.safe.isSome
  | some (.text t) => !isInstant field && !t.isEmpty
  | _ => false

def textClaim (claims : Record (ClaimValue F)) (field : Text) : Text :=
  match claims.get field with
  | some (.text t) => t
  | _ => []

def instantClaim (claims : Record (ClaimValue F)) (field : Text) : Int :=
  match claims.get field with
  | some (.number x) => x.safe.getD 0
  | _ => 0

def claimsBounded (claims : Record (ClaimValue F)) : Bool :=
  0 ≤ instantClaim claims (text "iat") && 0 ≤ instantClaim claims (text "exp")
    && 32 ≤ (textClaim claims (text "nonce")).length
    && (textClaim claims (text "nonce")).length ≤ 128
    && allOf (alphanumericOr ['_', '-']) (textClaim claims (text "nonce"))
    && allOf isHex (textClaim claims (text "payload_sha256"))
    && (textClaim claims (text "payload_sha256")).length == 64
    && claimBounds.all fun bound => bound.withinBounds (textClaim claims bound.field)

structure ServiceEnvelope (F : Type) where
  claims : Record (ClaimValue F)
  signature : Text

def parseEnvelope : Untrusted F → Option (ServiceEnvelope F)
  | .record value =>
      match value.get (text "claims"), value.get (text "signature") with
      | some (.record claims), some (.text signature) =>
          if value.members.length ≠ 2 then none
          else if !(allOf isHex signature && signature.length == 128) then none
          else if claims.members.length ≠ canonicalFields.length then none
          else if !canonicalFields.all (fieldTyped claims) then none
          else if !claimsBounded claims then none
          else some ⟨claims, signature⟩
      | _, _ => none
  | .other _ => none

end Asimposium.Framing

/-!
## One signature, one claim set

The frames of the canonical fields are read off from the left, so equal bytes
have equal bytes of every field. Texts within the bounds are ASCII and whole
seconds are printed in base ten, so the values are equal as well; and an accepted
record has no field beside the canonical ones.
-/

namespace Asimposium.Framing

open Text (isAscii isLower isUpper isDigit isAlphanumeric utf8 decimal byteLength)
open Codec (numeral_decimal wellFormed_ascii utf8_injective)

variable {F : Type}

/-! ## Frames -/

theorem decimal_injective : Function.Injective decimal := by
  intro m n h
  rw [← numeral_decimal m, h, numeral_decimal]

theorem colon_not_mem_decimal (n : Nat) : unit ':' ∉ decimal n := fun hmem =>
  absurd (Text.decimal_digit hmem) (by decide)

def sizeBytes (n : Nat) : List Nat := utf8 (decimal n ++ [unit ':'])

theorem sizeBytes_eq (n : Nat) : sizeBytes n = (decimal n).map UInt16.toNat ++ [58] :=
  Codec.utf8_ascii_append (fun _ hu => Text.isAscii_of_isDigit (Text.decimal_digit hu)) _

theorem sizeBytes_prefixFree : PrefixFree sizeBytes := by
  have htoNat : Function.Injective UInt16.toNat := fun _ _ => UInt16.toNat_inj.mp
  have hcode : Function.Injective fun n => (decimal n).map UInt16.toNat :=
    (List.map_injective_iff.mpr htoNat).comp decimal_injective
  have hnot (n : Nat) : 58 ∉ (decimal n).map UInt16.toNat := by
    intro hmem
    obtain ⟨u, hu, hcolon⟩ := List.mem_map.mp hmem
    have heq : u = unit ':' := htoNat hcolon
    exact colon_not_mem_decimal n (heq ▸ hu)
  have hterminated := PrefixFree.terminated hcode hnot
  intro m n s s' h
  rw [sizeBytes_eq, sizeBytes_eq] at h
  exact hterminated h

/-- The frame of a name and a value given by their bytes. -/
def frameBytes (field : List Nat × List Nat) : List Nat :=
  sizeBytes field.1.length ++ field.1
    ++ ([58] ++ (sizeBytes field.2.length ++ field.2) ++ [0x1e])

theorem frameBytes_prefixFree : PrefixFree frameBytes :=
  sizeBytes_prefixFree.measured.prod ((sizeBytes_prefixFree.measured.preceded [58]).followed [0x1e])

theorem frameField_eq (name value : Text) :
    frameField name value = frameBytes (utf8 name, utf8 value) := by
  have hcolon : utf8 (unit ':' :: (decimal (byteLength value) ++ [unit ':']))
      = [58] ++ sizeBytes (byteLength value) :=
    Codec.utf8_ascii_append (s := [unit ':']) (by decide) _
  unfold frameField frameBytes
  rw [hcolon, List.append_assoc [58]]
  rfl

/-! ## Accepted claims -/

/-- What `parseEnvelope` asks of a claim set. -/
structure Accepted (claims : Record (ClaimValue F)) : Prop where
  length : claims.members.length = canonicalFields.length
  typed : ∀ field ∈ canonicalFields, fieldTyped claims field = true
  bounded : claimsBounded claims = true

theorem accepted_of_parse {value : Untrusted F} {envelope : ServiceEnvelope F}
    (h : parseEnvelope value = some envelope) : Accepted envelope.claims := by
  cases value with
  | other x => cases h
  | record value =>
      unfold parseEnvelope at h
      dsimp only at h
      split at h
      · split_ifs at h with _ _ hlength htyped hbounded
        cases h
        rw [Bool.not_eq_true, Bool.not_eq_false'] at htyped hbounded
        exact ⟨not_not.mp hlength, List.all_eq_true.mp htyped, hbounded⟩
      · cases h

theorem Record.get_eq_none {α : Type} {record : Record α} {key : Text}
    (h : key ∉ record.members.map (·.1)) : record.get key = none := by
  unfold Record.get
  rw [List.lookup_eq_none_iff]
  intro member hmember
  rw [bne_iff_ne]
  rintro rfl
  exact h (List.mem_map_of_mem hmember)

theorem canonicalFields_nodup : canonicalFields.Nodup := by decide +kernel

variable {claims : Record (ClaimValue F)}

theorem Accepted.get_eq_none (h : Accepted claims) {key : Text} (hkey : key ∉ canonicalFields) :
    claims.get key = none := by
  have hpresent : canonicalFields ⊆ claims.members.map (·.1) := by
    intro field hfield
    have htyped := h.typed field hfield
    unfold fieldTyped at htyped
    by_contra hmissing
    rw [Record.get_eq_none hmissing] at htyped
    cases htyped
  have hperm : canonicalFields.Perm (claims.members.map (·.1)) :=
    (List.subperm_of_subset canonicalFields_nodup hpresent).perm_of_length_le
      (by rw [List.length_map, h.length])
  exact Record.get_eq_none fun hmem => hkey (hperm.mem_iff.mpr hmem)

/-! ## Texts within the bounds -/

def OnlyAscii (pattern : Text → Bool) : Prop := ∀ t, pattern t = true → ∀ u ∈ t, isAscii u = true

theorem onlyAscii_allOf {holds : UInt16 → Bool} (h : ∀ u, holds u = true → isAscii u = true) :
    OnlyAscii (allOf holds) := by
  intro t ht u hu
  rw [allOf, Bool.and_eq_true] at ht
  exact h u (List.all_eq_true.mp ht.2 u hu)

variable {u : UInt16}

theorem isAscii_of_le {v : UInt16} (h : u ≤ v) (hv : isAscii v = true) : isAscii u = true :=
  decide_eq_true (UInt16.le_trans h (of_decide_eq_true hv))

theorem isAscii_of_isLower (h : isLower u = true) : isAscii u = true := by
  rw [isLower, Bool.and_eq_true, decide_eq_true_eq, decide_eq_true_eq] at h
  exact isAscii_of_le h.2 (by decide)

theorem isAscii_of_isUpper (h : isUpper u = true) : isAscii u = true := by
  rw [isUpper, Bool.and_eq_true, decide_eq_true_eq, decide_eq_true_eq] at h
  exact isAscii_of_le h.2 (by decide)

theorem isAscii_of_alphanumericOr {extra : List Char}
    (hextra : extra.all (fun c => isAscii (unit c)) = true) (h : alphanumericOr extra u = true) :
    isAscii u = true := by
  rw [alphanumericOr, isAlphanumeric, Bool.or_eq_true, Bool.or_eq_true, Bool.or_eq_true,
    List.contains_iff_mem, List.mem_map] at h
  rcases h with ((hupper | hlower) | hdigit) | ⟨c, hc, rfl⟩
  · exact isAscii_of_isUpper hupper
  · exact isAscii_of_isLower hlower
  · exact Text.isAscii_of_isDigit hdigit
  · exact List.all_eq_true.mp hextra c hc

theorem isAscii_of_isHex (h : isHex u = true) : isAscii u = true := by
  rw [isHex, Bool.or_eq_true, Bool.and_eq_true, decide_eq_true_eq, decide_eq_true_eq] at h
  rcases h with hdigit | hletter
  · exact Text.isAscii_of_isDigit hdigit
  · exact isAscii_of_le hletter.2 (by decide)

theorem isAscii_of_isPlane (h : isPlane u = true) : isAscii u = true := by
  rw [isPlane, Bool.or_eq_true, Bool.or_eq_true, Bool.or_eq_true, beq_iff_eq, beq_iff_eq] at h
  rcases h with ((hlower | hdigit) | rfl) | rfl
  · exact isAscii_of_isLower hlower
  · exact Text.isAscii_of_isDigit hdigit
  · decide
  · decide

theorem onlyAscii_action (inside : Bool) : OnlyAscii (actionFrom inside) := by
  intro t
  induction t generalizing inside with
  | nil => exact fun _ u hu => nomatch hu
  | cons v rest ih =>
      intro h
      unfold actionFrom at h
      rw [List.forall_mem_cons]
      split at h
      · rename_i hword
        rw [Bool.or_eq_true] at hword
        exact ⟨hword.elim isAscii_of_isLower Text.isAscii_of_isDigit, ih true h⟩
      · rw [Bool.and_eq_true, Bool.and_eq_true, isActionSeparator, Bool.or_eq_true, Bool.or_eq_true,
          beq_iff_eq, beq_iff_eq, beq_iff_eq] at h
        refine ⟨?_, ih false h.2⟩
        rcases h.1.2 with (rfl | rfl) | rfl <;> decide

theorem onlyAscii_route : OnlyAscii isRouteTemplate := by
  intro t h
  cases t with
  | nil => cases h
  | cons v rest =>
      rw [isRouteTemplate, Bool.and_eq_true, beq_iff_eq] at h
      rw [List.forall_mem_cons]
      exact ⟨h.1 ▸ (by decide), fun u hu =>
        isAscii_of_alphanumericOr (by decide) (List.all_eq_true.mp h.2 u hu)⟩

theorem onlyAscii_method : OnlyAscii methods.contains := by
  have hmethods : ∀ method ∈ methods, ∀ u ∈ method, isAscii u = true := by decide +kernel
  exact fun t h => hmethods t (List.contains_iff_mem.mp h)

theorem onlyAscii_claimBounds : ∀ bound ∈ claimBounds, OnlyAscii bound.pattern := by
  have hword {extra : List Char} (h : extra.all (fun c => isAscii (unit c)) = true) :
      OnlyAscii (allOf (alphanumericOr extra)) :=
    onlyAscii_allOf fun _ => isAscii_of_alphanumericOr h
  have hplane : OnlyAscii (allOf isPlane) := onlyAscii_allOf fun _ => isAscii_of_isPlane
  have htype : OnlyAscii (allOf fun u => isLower u || u == unit '_') := by
    refine onlyAscii_allOf fun u hu => ?_
    rw [Bool.or_eq_true, beq_iff_eq] at hu
    rcases hu with hlower | rfl
    · exact isAscii_of_isLower hlower
    · decide
  simp only [claimBounds, List.forall_mem_cons, List.not_mem_nil, false_implies, implies_true,
    and_true]
  exact ⟨hword (by decide), hword (by decide), hword (by decide), hplane, hplane, onlyAscii_method,
    onlyAscii_route, onlyAscii_action false, htype, hword (by decide)⟩

theorem Accepted.ascii (h : Accepted claims) {field : Text} (hfield : field ∈ canonicalFields)
    (htext : isInstant field = false) : ∀ u ∈ textClaim claims field, isAscii u = true := by
  have hcovered : ∀ field ∈ canonicalFields, isInstant field = true ∨ field = text "nonce"
      ∨ field = text "payload_sha256" ∨ field ∈ claimBounds.map (·.field) := by
    decide +kernel
  have hbounded := h.bounded
  simp only [claimsBounded, Bool.and_eq_true] at hbounded
  obtain ⟨⟨⟨⟨-, hnonce⟩, hpayload⟩, -⟩, hbounds⟩ := hbounded
  rcases hcovered field hfield with hinstant | rfl | rfl | hbound
  · rw [htext] at hinstant
    cases hinstant
  · exact onlyAscii_allOf (fun _ => isAscii_of_alphanumericOr (by decide)) _ hnonce
  · exact onlyAscii_allOf (fun _ => isAscii_of_isHex) _ hpayload
  · obtain ⟨bound, hmem, rfl⟩ := List.mem_map.mp hbound
    have hwithin := List.all_eq_true.mp hbounds bound hmem
    rw [ClaimBound.withinBounds, Bool.and_eq_true] at hwithin
    exact onlyAscii_claimBounds bound hmem _ hwithin.2

/-! ## Equal bytes -/

/-- Two claims with the same type and value; the two zeros are one value. -/
inductive SameClaim : ClaimValue F → ClaimValue F → Prop
  | text (t : Text) : SameClaim (.text t) (.text t)
  | number {x y : JsNumber F} {n : Int} (hx : x.safe = some n) (hy : y.safe = some n) :
      SameClaim (.number x) (.number y)

theorem Accepted.get (h : Accepted claims) {field : Text} (hfield : field ∈ canonicalFields) :
    (isInstant field = true ∧ ∃ x n, claims.get field = some (.number x) ∧ x.safe = some n)
    ∨ (isInstant field = false ∧ ∃ t, claims.get field = some (.text t)
      ∧ ∀ u ∈ t, isAscii u = true) := by
  have htyped := h.typed field hfield
  unfold fieldTyped at htyped
  split at htyped
  · rename_i x hget
    rw [Bool.and_eq_true] at htyped
    obtain ⟨n, hn⟩ := Option.isSome_iff_exists.mp htyped.2
    exact .inl ⟨htyped.1, x, n, hget, hn⟩
  · rename_i t hget
    rw [Bool.and_eq_true, Bool.not_eq_true'] at htyped
    have hascii := h.ascii hfield htyped.1
    unfold textClaim at hascii
    rw [hget] at hascii
    exact .inr ⟨htyped.1, t, hget, hascii⟩
  · cases htyped

def framedText (claims : Record (ClaimValue F)) (field : Text) : Text :=
  (fieldValue claims field).getD []

theorem Accepted.fieldValue (h : Accepted claims) {field : Text}
    (hfield : field ∈ canonicalFields) :
    fieldValue claims field = some (framedText claims field)
      ∧ ∀ u ∈ framedText claims field, isAscii u = true := by
  unfold framedText Framing.fieldValue
  rcases h.get hfield with ⟨-, x, n, hget, hn⟩ | ⟨-, t, hget, hascii⟩
  · rw [hget]
    dsimp only
    rw [hn]
    exact ⟨rfl, fun _ => Text.ofInt_ascii⟩
  · rw [hget]
    exact ⟨rfl, hascii⟩

theorem Accepted.canonicalBytes (h : Accepted claims) :
    canonicalBytes claims = some (utf8 domainPrefix
      ++ (canonicalFields.map fun field => (utf8 field, utf8 (framedText claims field))).flatMap
        frameBytes) := by
  have hframes : ∀ fields ⊆ canonicalFields,
      fields.mapM (fun field => (Framing.fieldValue claims field).map (frameField field))
        = some (fields.map fun field => frameBytes (utf8 field, utf8 (framedText claims field))) := by
    intro fields hfields
    induction fields with
    | nil => rfl
    | cons field fields ih =>
        have hvalue := (h.fieldValue (hfields (List.mem_cons_self ..))).1
        have hrest := ih fun _ hmem => hfields (List.mem_cons_of_mem _ hmem)
        rw [List.mapM_cons, hrest, hvalue, Option.map_some, frameField_eq]
        rfl
  unfold Framing.canonicalBytes
  rw [hframes canonicalFields (List.Subset.refl _), List.flatMap_map]
  rfl

theorem ofInt_injective : Function.Injective Text.ofInt := by
  intro m n h
  have hsign (k : Nat) (t : Text) : decimal k ≠ unit '-' :: t := by
    intro heq
    have hdigit : isDigit (unit '-') = true :=
      Text.decimal_digit (n := k) (heq ▸ List.mem_cons_self ..)
    exact absurd hdigit (by decide)
  unfold Text.ofInt at h
  split_ifs at h
  · have habs := decimal_injective (List.cons.inj h).2
    omega
  · exact absurd h.symm (hsign _ _)
  · exact absurd h (hsign _ _)
  · have habs := decimal_injective h
    omega

/-- Accepted claim sets with equal bytes have the same fields with the same
values. -/
theorem canonicalBytes_injective {F : Type} {value value' : Untrusted F}
    {envelope envelope' : ServiceEnvelope F} (h : parseEnvelope value = some envelope)
    (h' : parseEnvelope value' = some envelope')
    (hbytes : canonicalBytes envelope.claims = canonicalBytes envelope'.claims) :
    (canonicalBytes envelope.claims).isSome
    ∧ ∀ key, Option.Rel SameClaim (envelope.claims.get key) (envelope'.claims.get key) := by
  have haccepted := accepted_of_parse h
  have haccepted' := accepted_of_parse h'
  rw [haccepted.canonicalBytes, haccepted'.canonicalBytes] at hbytes
  refine ⟨by rw [haccepted.canonicalBytes]; rfl, fun key => ?_⟩
  by_cases hkey : key ∈ canonicalFields
  · have hframes := frameBytes_prefixFree.eq_of_flatMap
      ((List.length_map _).trans (List.length_map _).symm)
      (List.append_cancel_left (Option.some.inj hbytes))
    have hpair := List.map_inj_left.mp hframes key hkey
    have hascii := (haccepted.fieldValue hkey).2
    have hascii' := (haccepted'.fieldValue hkey).2
    have htext : framedText envelope.claims key = framedText envelope'.claims key :=
      utf8_injective (wellFormed_ascii hascii) (wellFormed_ascii hascii') (Prod.mk.inj hpair).2
    unfold framedText fieldValue at htext
    rcases haccepted.get hkey with ⟨hinstant, x, n, hget, hn⟩ | ⟨hinstant, t, hget, -⟩ <;>
      rcases haccepted'.get hkey with ⟨hinstant', x', n', hget', hn'⟩ | ⟨hinstant', t', hget', -⟩
    · rw [hget, hget'] at htext
      dsimp only at htext
      rw [hn, hn'] at htext
      obtain rfl := ofInt_injective htext
      rw [hget, hget']
      exact .some (.number hn hn')
    · rw [hinstant] at hinstant'
      cases hinstant'
    · rw [hinstant] at hinstant'
      cases hinstant'
    · rw [hget, hget'] at htext
      obtain rfl : t = t' := htext
      rw [hget, hget']
      exact .some (.text t)
  · rw [haccepted.get_eq_none hkey, haccepted'.get_eq_none hkey]
    exact .none

/-! ## A claim set with its fields in two orders -/

def sampleMembers : List (Text × ClaimValue Empty) :=
  [(text "v", .text (text "asimp-env-1")), (text "kid", .text (text "k1")),
    (text "alg", .text (text "Ed25519")), (text "iss", .text (text "agora")),
    (text "aud", .text (text "stoa")), (text "iat", .number (.integer 1000)),
    (text "exp", .number (.integer 1060)),
    (text "nonce", .text (List.replicate 32 (unit 'n'))), (text "method", .text (text "POST")),
    (text "route", .text (text "/v1/p/:id/directives")), (text "action", .text (text "directive")),
    (text "principal_type", .text (text "sponsor")), (text "principal_id", .text (text "S-1")),
    (text "payload_sha256", .text (List.replicate 64 (unit '0')))]

def sampleClaims : Record (ClaimValue Empty) := ⟨sampleMembers, by decide +kernel⟩

def reversedClaims : Record (ClaimValue Empty) := ⟨sampleMembers.reverse, by decide +kernel⟩

def signed (claims : Record (ClaimValue Empty)) : Untrusted Empty :=
  .record ⟨[(text "claims", .record claims),
    (text "signature", .text (List.replicate 128 (unit '0')))],
    show [text "claims", text "signature"].Nodup by decide +kernel⟩

theorem parse_signed {claims : Record (ClaimValue Empty)}
    (hlength : claims.members.length = canonicalFields.length)
    (htyped : canonicalFields.all (fieldTyped claims) = true)
    (hbounded : claimsBounded claims = true) :
    parseEnvelope (signed claims) = some ⟨claims, List.replicate 128 (unit '0')⟩ := by
  have hne : (text "signature" == text "claims") = false := by decide +kernel
  have hhex : allOf isHex (List.replicate 128 (unit '0')) = true := by decide +kernel
  unfold parseEnvelope signed Record.get
  simp only [List.lookup_cons, beq_self_eq_true, hne]
  simp only [hhex, htyped, hbounded, hlength, List.length_replicate]
  rfl

theorem canonicalBytes_injective_sample :
    (canonicalBytes sampleClaims).isSome
    ∧ ∀ key, Option.Rel SameClaim (sampleClaims.get key) (reversedClaims.get key) :=
  @canonicalBytes_injective Empty (signed sampleClaims) (signed reversedClaims)
    ⟨sampleClaims, List.replicate 128 (unit '0')⟩ ⟨reversedClaims, List.replicate 128 (unit '0')⟩
    (parse_signed rfl (by decide +kernel) (by decide +kernel))
    (parse_signed rfl (by decide +kernel) (by decide +kernel)) (by decide +kernel)

end Asimposium.Framing
