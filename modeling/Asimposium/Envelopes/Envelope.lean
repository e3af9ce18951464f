import Asimposium.Envelopes.Nonces

/-!
# Service envelopes

A sponsor write arrives with an envelope that names the acting human:
signed claims and a detached signature. This file is what a verifier
decides about one presentation before it turns to the nonce table, in
the order the source decides it: shape, issuer and audience, route and
action, clock, key, signature, body digest, principal type.

Ed25519 and SHA-256 are parameters.
-/

namespace Asimposium.Envelopes

open Krater

/-! ## The signed bytes -/

def envelopeVersion : String := "asimp-env-1"

structure ServiceEnvelopeClaims where
  v : String
  kid : String
  alg : String
  iss : String
  aud : String
  iat : Int
  exp : Int
  nonce : String
  method : String
  route : String
  action : String
  principalType : String
  principalId : String
  payloadSha256 : String
deriving DecidableEq

/-- The claims shown as an envelope carries them, in canonical order. -/
def ServiceEnvelopeClaims.fields (claims : ServiceEnvelopeClaims) : List (String × String) :=
  [("v", claims.v), ("kid", claims.kid), ("alg", claims.alg), ("iss", claims.iss),
    ("aud", claims.aud), ("iat", toString claims.iat), ("exp", toString claims.exp),
    ("nonce", claims.nonce), ("method", claims.method), ("route", claims.route),
    ("action", claims.action), ("principal_type", claims.principalType),
    ("principal_id", claims.principalId), ("payload_sha256", claims.payloadSha256)]

/-- One field, framed by its lengths in bytes and the record terminator. -/
def frameField (field : String × String) : String :=
  toString field.1.utf8ByteSize ++ ":" ++ field.1 ++ ":" ++ toString field.2.utf8ByteSize ++ ":"
    ++ field.2 ++ "\x1e"

def canonicalString (claims : ServiceEnvelopeClaims) : String :=
  envelopeVersion ++ "\n" ++ String.join (claims.fields.map frameField)

def canonicalBytes (claims : ServiceEnvelopeClaims) : ByteArray := (canonicalString claims).toUTF8

def hexValue (c : Char) : Option Nat :=
  if c.isDigit then some (c.toNat - '0'.toNat)
  else if 'a' ≤ c ∧ c ≤ 'f' then some (c.toNat - 'a'.toNat + 10)
  else none

/-- The bytes of lowercase hex; an odd length or another character throws. -/
def fromHex : List Char → Option (List UInt8)
  | [] => some []
  | high :: low :: rest => do
      let high ← hexValue high
      let low ← hexValue low
      let bytes ← fromHex rest
      pure (UInt8.ofNat (16 * high + low) :: bytes)
  | [_] => none

/-- The loop of the comparison that takes the same time for every text of a
length. -/
def differences (a b : List UInt8) : Nat :=
  (List.range (max a.length b.length)).foldl
    (fun diff i => diff ||| ((a.getD i 0).toNat ^^^ (b.getD i 0).toNat)) (a.length ^^^ b.length)

def constantTimeEqual (left right : String) : Bool :=
  differences left.toUTF8.data.toList right.toUTF8.data.toList == 0

theorem foldl_or_eq_zero {f : Nat → Nat} {l : List Nat} {n : Nat} :
    l.foldl (fun diff i => diff ||| f i) n = 0 ↔ n = 0 ∧ ∀ i ∈ l, f i = 0 := by
  induction l generalizing n with
  | nil => simp
  | cons i l ih =>
      rw [List.foldl_cons, ih, Nat.or_eq_zero_iff, List.forall_mem_cons, and_assoc]

theorem xor_eq_zero {a b : Nat} : a ^^^ b = 0 ↔ a = b := by
  constructor
  · intro h
    have hcancel : a ^^^ (b ^^^ b) = 0 ^^^ b := by rw [← Nat.xor_assoc, h]
    rwa [Nat.xor_self, Nat.xor_zero, Nat.zero_xor] at hcancel
  · rintro rfl
    exact Nat.xor_self a

theorem differences_eq_zero {a b : List UInt8} : differences a b = 0 ↔ a = b := by
  unfold differences
  rw [foldl_or_eq_zero, xor_eq_zero]
  constructor
  · rintro ⟨hlength, hbytes⟩
    refine List.ext_getElem hlength fun i ha hb => ?_
    have hbyte := hbytes i (List.mem_range.mpr (by omega))
    rw [xor_eq_zero, UInt8.toNat_inj] at hbyte
    rwa [List.getD_eq_getElem?_getD, List.getD_eq_getElem?_getD, List.getElem?_eq_getElem ha,
      List.getElem?_eq_getElem hb] at hbyte
  · rintro rfl
    exact ⟨rfl, fun i _ => Nat.xor_self _⟩

theorem constantTimeEqual_iff {left right : String} :
    constantTimeEqual left right = true ↔ left = right := by
  unfold constantTimeEqual
  rw [beq_iff_eq, differences_eq_zero]
  constructor
  · intro h
    have hbytes : left.toUTF8 = right.toUTF8 := ByteArray.ext (Array.toList_inj.mp h)
    exact String.toByteArray_inj.mp hbytes
  · rintro rfl
    rfl

/-! ## The shape of an envelope -/

def canonicalFields : List String :=
  ["v", "kid", "alg", "iss", "aud", "iat", "exp", "nonce", "method", "route", "action",
    "principal_type", "principal_id", "payload_sha256"]

structure ServiceEnvelope where
  claims : ServiceEnvelopeClaims
  signature : String
deriving DecidableEq

def isLower (c : Char) : Bool := 'a' ≤ c && c ≤ 'z'

/-- `/^[…]+$/`: one character of the class at least, and no other. -/
def allOf (holds : Char → Bool) (text : String) : Bool :=
  !text.toList.isEmpty && text.toList.all holds

/-- `[A-Za-z0-9]` and the characters given. -/
def alphanumOr (extra : List Char) (c : Char) : Bool := c.isAlphanum || extra.contains c

/-- `/^[a-z0-9]+(?:[._-][a-z0-9]+)*$/`. -/
def isAction (text : String) : Bool :=
  (text.toList.splitOnP fun c => ['.', '_', '-'].contains c).all fun part =>
    !part.isEmpty && part.all fun c => isLower c || c.isDigit

/-- `/^\/[A-Za-z0-9/:._-]*$/`. -/
def isRouteTemplate (text : String) : Bool :=
  match text.toList with
  | '/' :: rest => rest.all (alphanumOr ['/', ':', '.', '_', '-'])
  | _ => false

structure ClaimBound where
  field : String
  pattern : String → Bool
  maxBytes : Nat

def claimBounds : List ClaimBound :=
  [⟨"v", allOf (alphanumOr ['.', '_', '-']), 32⟩,
    ⟨"kid", allOf (alphanumOr ['.', '_', '-']), 64⟩,
    ⟨"alg", allOf (alphanumOr ['_', '-']), 32⟩,
    ⟨"iss", allOf (fun c => isLower c || c.isDigit || c == '.' || c == '-'), 64⟩,
    ⟨"aud", allOf (fun c => isLower c || c.isDigit || c == '.' || c == '-'), 64⟩,
    ⟨"method", fun t => ["GET", "HEAD", "POST", "PUT", "PATCH", "DELETE", "OPTIONS"].contains t, 7⟩,
    ⟨"route", isRouteTemplate, 256⟩,
    ⟨"action", isAction, 64⟩,
    ⟨"principal_type", allOf (fun c => isLower c || c == '_'), 32⟩,
    ⟨"principal_id", allOf (alphanumOr ['_', '-']), 64⟩]

def ClaimBound.withinBounds (bound : ClaimBound) (value : String) : Bool :=
  value.utf8ByteSize ≤ bound.maxBytes && bound.pattern value

/-- The type a claim must have: whole seconds for the two instants, text
for the rest. -/
def fieldTyped (claims : JsonRecord) (field : String) : Bool :=
  match claims.lookup field with
  | some (.number n) => (field == "iat" || field == "exp") && isSafeInteger n
  | some (.text t) => !(field == "iat" || field == "exp") && t != ""
  | _ => false

def textClaim (claims : JsonRecord) (field : String) : String :=
  match claims.lookup field with
  | some (.text t) => t
  | _ => ""

def numberClaim (claims : JsonRecord) (field : String) : Int :=
  match claims.lookup field with
  | some (.number n) => n
  | _ => 0

def claimsOf (claims : JsonRecord) : ServiceEnvelopeClaims where
  v := textClaim claims "v"
  kid := textClaim claims "kid"
  alg := textClaim claims "alg"
  iss := textClaim claims "iss"
  aud := textClaim claims "aud"
  iat := numberClaim claims "iat"
  exp := numberClaim claims "exp"
  nonce := textClaim claims "nonce"
  method := textClaim claims "method"
  route := textClaim claims "route"
  action := textClaim claims "action"
  principalType := textClaim claims "principal_type"
  principalId := textClaim claims "principal_id"
  payloadSha256 := textClaim claims "payload_sha256"

def claimsBounded (claims : JsonRecord) : Bool :=
  0 ≤ numberClaim claims "iat" && 0 ≤ numberClaim claims "exp"
    && 32 ≤ utf16Length (textClaim claims "nonce") && utf16Length (textClaim claims "nonce") ≤ 128
    && allOf (alphanumOr ['_', '-']) (textClaim claims "nonce")
    && isSha256Hex (textClaim claims "payload_sha256")
    && claimBounds.all fun bound => bound.withinBounds (textClaim claims bound.field)

/-- Structural validation of an untrusted envelope: every canonical field
with its type, and no other field. -/
def parseEnvelope : JsonValue → Option ServiceEnvelope
  | .object value =>
      match value.lookup "claims", value.lookup "signature" with
      | some (.object claims), some (.text signature) =>
          if value.length ≠ 2 then none
          else if !(allOf (fun c => c.isDigit || ('a' ≤ c && c ≤ 'f')) signature
              && utf16Length signature == 128) then none
          else if claims.length ≠ canonicalFields.length then none
          else if !canonicalFields.all (fieldTyped claims) then none
          else if !claimsBounded claims then none
          else some ⟨claimsOf claims, signature⟩
      | _, _ => none
  | _ => none

/-! ## Keys -/

structure VerificationKeyRecord where
  kid : String
  publicKeyHex : String
  notBefore : Int
  notAfter : Option Int
deriving DecidableEq

inductive EnvelopeRefusalReason where
  | malformed
  | unsupportedVersion
  | unsupportedAlg
  | wrongIssuer
  | wrongAudience
  | wrongPrincipalType
  | expired
  | issuedInFuture
  | lifetimeTooLong
  | unknownKid
  | keyNotYetValid
  | keyRetired
  | keyUnusable
  | badSignature
  | payloadMismatch
  | replayed
  | actionNotPermitted
  | storeUnavailable
deriving DecidableEq

structure Crypto where
  /-- `importKey` accepts the raw public key, given in hex. -/
  importable : String → Bool
  /-- `verify` with the public key in hex, the signature and the message;
  `none` when it throws. -/
  verify : String → List UInt8 → ByteArray → Option Bool
  sha256Hex : ByteArray → String

/-- `VerificationKeyring.lookup`: the key named, if it was valid when the
envelope claims to have been issued. -/
def lookupKey (crypto : Crypto) (keyring : List VerificationKeyRecord) (kid : String)
    (issuedAt : Int) : Except EnvelopeRefusalReason String :=
  match keyring.find? (·.kid == kid) with
  | none => .error .unknownKid
  | some record =>
      if !(isSafeInteger issuedAt && 0 ≤ issuedAt) then .error .keyUnusable
      else if issuedAt < record.notBefore then .error .keyNotYetValid
      else if record.notAfter.any (· ≤ issuedAt) then .error .keyRetired
      else if !crypto.importable record.publicKeyHex then .error .keyUnusable
      else .ok record.publicKeyHex

/-! ## Verification -/

structure VerifyOptions where
  keyring : List VerificationKeyRecord
  nonces : D1NonceStore
  now : Int
  issuer : String
  audience : String
  body : ByteArray
  method : String
  route : String
  clockSkewSeconds : Option Int
  maxLifetimeSeconds : Option Int
  permittedActions : List String
  expectedPrincipalType : Option String

def serviceEnvelopeClockSkewSeconds : Int := 60

def defaultMaxLifetimeSeconds : Int := 120

def VerifyOptions.skew (options : VerifyOptions) : Int :=
  options.clockSkewSeconds.getD serviceEnvelopeClockSkewSeconds

def VerifyOptions.maxLifetime (options : VerifyOptions) : Int :=
  options.maxLifetimeSeconds.getD defaultMaxLifetimeSeconds

/-- The checks before any cryptography: version, planes, route and clock. -/
def checkClaims (options : VerifyOptions) (claims : ServiceEnvelopeClaims) :
    Except EnvelopeRefusalReason Unit :=
  if claims.v ≠ envelopeVersion then .error .unsupportedVersion
  else if claims.alg ≠ "Ed25519" then .error .unsupportedAlg
  else if claims.iss ≠ options.issuer then .error .wrongIssuer
  else if claims.aud ≠ options.audience then .error .wrongAudience
  else if claims.method ≠ options.method ∨ claims.route ≠ options.route then
    .error .actionNotPermitted
  else if options.permittedActions.length = 0 ∨ claims.action ∉ options.permittedActions then
    .error .actionNotPermitted
  else if !isSafeInteger options.skew ∨ options.skew < 0 then .error .malformed
  else if !isSafeInteger options.maxLifetime ∨ options.maxLifetime ≤ 0 then .error .malformed
  else if claims.exp ≤ claims.iat then .error .malformed
  else if options.maxLifetime < claims.exp - claims.iat then .error .lifetimeTooLong
  else if claims.exp + options.skew < options.now then .error .expired
  else if options.now + options.skew < claims.iat then .error .issuedInFuture
  else .ok ()

/-- The signature over the canonical bytes, under the key named. -/
def checkSignature (crypto : Crypto) (options : VerifyOptions) (envelope : ServiceEnvelope) :
    Except EnvelopeRefusalReason Unit := do
  let key ← lookupKey crypto options.keyring envelope.claims.kid envelope.claims.iat
  match fromHex envelope.signature.toList with
  | none => .error .badSignature
  | some signature =>
      if crypto.verify key signature (canonicalBytes envelope.claims) = some true then .ok ()
      else .error .badSignature

/-- How long a nonce is remembered: through the latest cleanup of a fast
clock at which a slow clock still accepts the envelope. -/
def nonceExpiresAt (claims : ServiceEnvelopeClaims) (skew : Int) : Int := claims.exp + 3 * skew + 1

/-- `verifyServiceEnvelope` up to the nonce claim. -/
def verifyClaims (crypto : Crypto) (options : VerifyOptions) (value : JsonValue) :
    Except EnvelopeRefusalReason ServiceEnvelope :=
  match parseEnvelope value with
  | none => .error .malformed
  | some envelope => do
      checkClaims options envelope.claims
      checkSignature crypto options envelope
      if !constantTimeEqual (crypto.sha256Hex options.body) envelope.claims.payloadSha256 then
        .error .payloadMismatch
      else if envelope.claims.principalType ≠ options.expectedPrincipalType.getD "sponsor" then
        .error .wrongPrincipalType
      else if !isSafeInteger (nonceExpiresAt envelope.claims options.skew) then .error .malformed
      else .ok envelope

end Asimposium.Envelopes
