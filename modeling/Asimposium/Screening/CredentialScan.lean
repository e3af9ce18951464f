import Asimposium.Codec.Value
import Asimposium.Lib.Regex
import Mathlib.Data.List.Dedup

/-!
# The scan for credentials

`scanTextForCredentials` looks for credential shapes line by line.
`scanFieldForCredentials` looks into every string of a JSON text, keys among
them, and into strings that are JSON again. A finding has a path and never the
bytes that matched.
-/

namespace Asimposium.Screening

open Regex (Pattern)
open Codec (FloatFormat parseText)
open Text (isDigit isUpper isLower isAlphanumeric isSpace)

/-! ## Shapes -/

inductive CredentialKind where
  | fellowToken
  | prefixedGrant
  | enrollmentSecret
  | privateKey
  | apiKey
  | accessToken
deriving DecidableEq

def CredentialKind.name : CredentialKind → String
  | .fellowToken => "fellow-token"
  | .prefixedGrant => "prefixed-grant"
  | .enrollmentSecret => "enrollment-secret"
  | .privateKey => "private-key"
  | .apiKey => "api-key"
  | .accessToken => "access-token"

/-- `\w`. -/
def isWord (u : UInt16) : Bool := isAlphanumeric u || u == unit '_'

/-- `[A-Za-z0-9_-]`. -/
def isBase64Url (u : UInt16) : Bool := isWord u || u == unit '-'

/-- `[0-9A-Za-z-]`. -/
def isHandleUnit (u : UInt16) : Bool := isAlphanumeric u || u == unit '-'

/-- `[0-9A-Z]`. -/
def isUpperOrDigit (u : UInt16) : Bool := isUpper u || isDigit u

/-- `[A-Z ]`. -/
def isUpperOrBlank (u : UInt16) : Bool := isUpper u || u == unit ' '

/-- `[0-9A-HJKMNP-TV-Z]`. -/
def isCrockford (u : UInt16) : Bool :=
  isUpperOrDigit u && u != unit 'I' && u != unit 'L' && u != unit 'O' && u != unit 'U'

def oneOf (literal : String) (u : UInt16) : Bool := (text literal).contains u

abbrev TextPattern : Type := Pattern UInt16

def lit (literal : String) : TextPattern := .literal (text literal)

def exactly (isUnit : UInt16 → Bool) (n : Nat) : TextPattern := .run isUnit n (some n)

def atLeast (isUnit : UInt16 → Bool) (n : Nat) : TextPattern := .run isUnit n none

def sequence (parts : List TextPattern) : TextPattern := parts.foldr .seq .empty

structure CredentialPattern where
  kind : CredentialKind
  pattern : TextPattern

def credentialPatterns : List CredentialPattern :=
  [⟨.fellowToken, sequence [lit "asimp_ag_", exactly isCrockford 26, lit "_",
      exactly isBase64Url 43]⟩,
    ⟨.prefixedGrant, sequence [lit "asimp_", exactly isLower 2, lit "_", atLeast isBase64Url 20]⟩,
    ⟨.enrollmentSecret, .alt
      (sequence [lit "ASIMP-EN-", atLeast isHandleUnit 4, lit "#v1.", atLeast isBase64Url 16])
      (sequence [.boundary, lit "v1.", atLeast isBase64Url 43])⟩,
    ⟨.prefixedGrant, sequence [.boundary, lit "flow_v1.", atLeast isBase64Url 43]⟩,
    ⟨.privateKey, sequence [lit "-----BEGIN ", atLeast isUpperOrBlank 0, lit "PRIVATE KEY-----"]⟩,
    ⟨.apiKey, sequence [.boundary, lit "sk_live_", atLeast isAlphanumeric 16]⟩,
    ⟨.apiKey, sequence [.boundary, lit "sk-", .alt (.alt (lit "ant-") (lit "proj-")) .empty,
      atLeast isBase64Url 32]⟩,
    ⟨.apiKey, sequence [.boundary, lit "AKIA", exactly isUpperOrDigit 16, .boundary]⟩,
    ⟨.apiKey, sequence [.boundary, lit "AIza", exactly isBase64Url 35, .boundary]⟩,
    ⟨.accessToken, sequence [.boundary, lit "gh", exactly (oneOf "pousr") 1, lit "_",
      atLeast isAlphanumeric 36]⟩,
    ⟨.accessToken, sequence [.boundary, lit "github_pat_", atLeast isWord 40]⟩,
    ⟨.accessToken, sequence [.boundary, lit "xox", exactly (oneOf "abprs") 1, lit "-",
      atLeast isHandleUnit 10]⟩,
    ⟨.accessToken, sequence [.boundary, lit "eyJ", atLeast isBase64Url 10, lit ".eyJ",
      atLeast isBase64Url 10, lit ".", atLeast isBase64Url 10]⟩]

def looksLikeCredential (t : Text) : Bool :=
  credentialPatterns.any fun shape => shape.pattern.test isWord t

/-! ## Paths -/

structure CredentialFinding where
  path : Text
  kind : CredentialKind
  line : Nat
  column : Nat
deriving DecidableEq

def maxFindings : Nat := 20

def maxPathLength : Nat := 200

def redactedPath : Text := text "[redacted-field]"

def nestedPath : Text := text "[nested-field]"

def rootPath : Text := text "[root]"

def diagnosticPath (path : Text) : Text :=
  if maxPathLength < path.length || path.any (fun u => u == unit '\r' || u == unit '\n' || u == 9)
      || looksLikeCredential path then redactedPath
  else if path.isEmpty then rootPath
  else path

def appendPath (parent suffix : Text) : Text :=
  if parent = nestedPath then nestedPath
  else if maxPathLength < (parent ++ suffix).length then nestedPath
  else diagnosticPath (parent ++ suffix)

/-- `/^[A-Za-z_][A-Za-z0-9_]{0,63}$/`. -/
def isIdentifier : Text → Bool
  | [] => false
  | u :: rest => isWord u && !isDigit u && rest.length ≤ 63 && rest.all isWord

/-- `[label:index]`. -/
def bracketed (label : String) (index : Nat) : Text :=
  text "[" ++ text label ++ Text.decimal index ++ text "]"

def memberPath (parent key : Text) (index : Nat) : Text :=
  if isIdentifier key && !looksLikeCredential key then
    appendPath parent ((if parent.isEmpty then [] else text ".") ++ key)
  else appendPath parent (bracketed "entry:" index)

/-! ## One text -/

def codePointsBefore (unitIndex : Nat) : Nat → List Text → Nat
  | _, [] => 0
  | seen, character :: rest =>
      if unitIndex ≤ seen then 0
      else codePointsBefore unitIndex (seen + character.length) rest + 1

def codePointColumn (lineText : Text) (unitIndex : Nat) : Nat :=
  codePointsBefore unitIndex 0 (Text.codePoints lineText) + 1

/-- The spans that are taken on a line, and the findings there. -/
structure LineScan where
  spans : List (Nat × Nat)
  found : List (CredentialKind × Nat)

/-- The hits of one shape; a hit inside a span that is taken is passed over. -/
def LineScan.admitHits (kind : CredentialKind) : Nat → LineScan → List (Nat × Nat) → LineScan
  | _, scan, [] => scan
  | admitted, scan, (start, stop) :: hits =>
      if scan.spans.any fun (before, after) => start < after && before < stop then
        scan.admitHits kind admitted hits
      else
        let scan : LineScan := ⟨scan.spans ++ [(start, stop)], scan.found ++ [(kind, start)]⟩
        if admitted + 1 = maxFindings then scan else scan.admitHits kind (admitted + 1) hits

def LineScan.admitAll (lineText : Text) (scan : LineScan) : LineScan :=
  credentialPatterns.foldl (fun scan shape =>
    scan.admitHits shape.kind 0 (shape.pattern.matchAll isWord lineText)) scan

def scanLine (lineText : Text) : List (CredentialKind × Nat) :=
  let scan := LineScan.admitAll lineText ⟨[], []⟩
  scan.found.insertionSort fun left right => left.2 ≤ right.2

def scanTextForCredentials (path t : Text) : List CredentialFinding :=
  if t.isEmpty then []
  else
    let safePath := diagnosticPath path
    -- the loop returns as soon as there are so many
    ((t.splitOn (unit '\n')).zipIdx.flatMap fun (lineText, lineIndex) =>
      (scanLine lineText).map fun (kind, start) =>
        { path := safePath, kind, line := lineIndex + 1,
          column := codePointColumn lineText start }).take maxFindings

/-! ## Tokens of a JSON text -/

/-- A string after its opening quote: `(?:\\[\s\S]|[^"\\])*"`. -/
def rawString : Text → Option (Text × Text)
  | [] => none
  | u :: rest =>
      if u = unit '"' then some ([u], rest)
      else if u = unit '\\' then
        match rest with
        | [] => none
        | v :: rest => (rawString rest).map fun (body, after) => (u :: v :: body, after)
      else (rawString rest).map fun (body, after) => (u :: body, after)

structure JsonFrame where
  isObject : Bool
  path : Text
  index : Nat
  keyPath : Option Text
  expectingKey : Bool

structure Pending where
  field : Text
  text : Text
  root : Bool

/-- The frames and the texts that wait, the last one first. -/
structure Walk where
  frames : List JsonFrame
  findings : List CredentialFinding
  pending : List Pending

def valuePath (field : Text) : List JsonFrame → Text
  | [] => field
  | frame :: _ =>
      if frame.isObject then frame.keyPath.getD frame.path
      else appendPath frame.path (bracketed "" frame.index)

/-- `{`, `[` or `"` behind white space. -/
def looksLikeJson (t : Text) : Bool :=
  match (t.dropWhile isSpace).head? with
  | some u => u == unit '\x7b' || u == unit '[' || u == unit '"'
  | none => false

section Walking

variable {F : Type} (format : FloatFormat F)

/-- `JSON.parse` of a string token. -/
def decodeToken (token : Text) : Text :=
  match parseText format token with
  | some (.str decoded) => decoded
  | _ => []

/-- The path of a string, and the frames behind it: a key names the value that
follows. -/
def stringPath (field decoded : Text) : List JsonFrame → Text × List JsonFrame
  | [] => (valuePath field [], [])
  | frame :: frames =>
      if frame.isObject && frame.expectingKey then
        (appendPath frame.path (bracketed "key:" frame.index),
          { frame with keyPath := some (memberPath frame.path decoded frame.index),
                       expectingKey := false } :: frames)
      else (valuePath field (frame :: frames), frame :: frames)

def Walk.step (current : Pending) (walk : Walk) (token : Text) : Walk :=
  if token = [unit '\x7b'] ∨ token = [unit '['] then
    let isObject : Bool := token = [unit '\x7b']
    let path := if walk.frames.isEmpty && current.root && isObject then []
      else valuePath current.field walk.frames
    { walk with frames := ⟨isObject, path, 0, none, isObject⟩ :: walk.frames }
  else if token = [unit '\x7d'] ∨ token = [unit ']'] then { walk with frames := walk.frames.tail }
  else if token = [unit ','] then
    match walk.frames with
    | [] => walk
    | frame :: frames =>
        { walk with frames := { frame with index := frame.index + 1, keyPath := none,
                                           expectingKey := frame.isObject } :: frames }
  else if Text.startsWith token [unit '"'] then
    let decoded := decodeToken format token
    let (path, frames) := stringPath current.field decoded walk.frames
    { frames
      findings := walk.findings ++ scanTextForCredentials path decoded
      pending := if looksLikeJson decoded then ⟨path, decoded, false⟩ :: walk.pending
        else walk.pending }
  else walk

def Walk.run (current : Pending) : Walk → List Text → Walk
  | walk, [] => walk
  | walk, token :: tokens =>
      let walk := walk.step format current token
      if maxFindings ≤ walk.findings.length then walk else walk.run current tokens

end Walking

/-! ## The refusal -/

end Asimposium.Screening

/-!
## Labels of a screening report

The texts that a report of a screening run repeats: identifiers, versions,
strata. Each is refused where it has the shape of a secret, or of a token that
no one would write by hand. The patterns ignore the case of letters, so they
are tested on the folded text.

The scanner of `@asimposium/contracts/diagnostic-safety` stands as a parameter.
-/

namespace Asimposium.Screening

open Text (isDigit isUpper isLower isAlphanumeric isSpace foldAscii trim)

/-! ## Secrets -/

/-- `[a-z0-9._-]`. -/
def isDottedUnit (u : UInt16) : Bool := isBase64Url u || u == unit '.'

def optionally (isUnit : UInt16 → Bool) : TextPattern := .run isUnit 0 (some 1)

def credentialKeywords : TextPattern :=
  .alt (.alt (.alt (lit "authorization") (lit "bearer")) (.alt (lit "token") (lit "secret")))
    (.alt (lit "password") (lit "credential"))

/-- Each pattern starts with a letter, so `(?:^|[^a-z0-9])` before it is a
boundary of alphanumerics. -/
def secretShapes : List TextPattern :=
  [[lit "asimp", optionally (oneOf "_-"), lit "ag", optionally (oneOf "_-"),
      atLeast isAlphanumeric 8],
    [lit "sk", exactly (oneOf "-_") 1,
      .alt (.alt (lit "live") (lit "test")) (.alt (lit "proj") (lit "svcacct")),
      exactly (oneOf "-_") 1, atLeast isBase64Url 8],
    [lit "sk", exactly (oneOf "-_") 1, atLeast isBase64Url 16],
    [lit "ya29.", atLeast isDottedUnit 8],
    [.alt (.alt (sequence [lit "gh", exactly (oneOf "pousr") 1])
        (sequence [lit "github", optionally (oneOf "_-"), lit "pat"]))
        (.alt (.alt (sequence [lit "xox", exactly (oneOf "baprs") 1]) (lit "gocspx"))
          (.alt (lit "aiza") (.alt (lit "npm") (lit "pypi")))),
      optionally (oneOf "_-"), atLeast isBase64Url 8],
    [.alt (.alt (lit "akia") (lit "asia")) (.alt (lit "agpa") (.alt (lit "aida") (lit "aroa"))),
      exactly isAlphanumeric 16],
    [lit "eyj", atLeast isBase64Url 8, lit ".", atLeast isBase64Url 8, lit ".",
      atLeast isBase64Url 8],
    [credentialKeywords, atLeast isSpace 0, exactly (oneOf "=:") 1, atLeast isSpace 0,
      atLeast (fun u => !isSpace u) 1],
    -- the longest run of the class ends the text or stands before another unit
    [credentialKeywords, atLeast isSpace 1, atLeast isBase64Url 16],
    [lit "v1.", atLeast isBase64Url 12]].map fun parts => sequence (.boundary :: parts)

def isSecretShapedMetadata (value : Text) : Bool :=
  secretShapes.any fun shape => shape.test isAlphanumeric (value.map foldAscii)

/-! ## Tokens -/

def isHighEntropyDiagnosticSegment (segment : Text) : Bool :=
  let characterClasses := (segment.any isLower).toNat + (segment.any isUpper).toNat
    + (segment.any isDigit).toNat
  24 ≤ segment.length && segment.all isAlphanumeric && 10 ≤ segment.dedup.length
    && (2 ≤ characterClasses || 32 ≤ segment.length)

/-- Cutting at each separator leaves more empty segments than cutting at each
run of them, and no others. -/
def isBareHighEntropyDiagnosticLabel (value : Text) : Bool :=
  (value.splitOnP fun u => oneOf "._:-/" u || isSpace u).any isHighEntropyDiagnosticSegment

/-! ## Labels -/

section Labels

variable (containsCredentialShape : Text → Bool)

def isSafeScreeningDiagnosticLabel (value : Text) : Bool :=
  1 ≤ value.length && value.length ≤ 128
    && value.all (fun u => isAlphanumeric u || oneOf "._:-" u)
    && !isSecretShapedMetadata value && !isBareHighEntropyDiagnosticLabel value
    && !containsCredentialShape value

end Labels

/-- `[a-f0-9]`. -/
def isLowerHex (u : UInt16) : Bool := isDigit u || (unit 'a' ≤ u && u ≤ unit 'f')

def isSha256Digest (value : Text) : Bool :=
  (text "sha256:").isPrefixOf value && (value.drop 7).length == 64
    && (value.drop 7).all isLowerHex

def safeStratumLabel (value : Text) : Bool :=
  value == trim value && value.head?.any (fun u => isUpper u || isLower u)
    && 3 ≤ value.length && value.length ≤ 96
    && value.all (fun u => isAlphanumeric u || oneOf " &'()/+,-" u)
    && !Text.includes value (text "  ") && !Text.includes value (text "--")
    && !isSecretShapedMetadata value && !isBareHighEntropyDiagnosticLabel value

end Asimposium.Screening
