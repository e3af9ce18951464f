import Asimposium.Render.Text

/-!
# The sanitizer

Every face routes untrusted bodies through `neutralizeUntrustedBody`. It
rewrites two things: the opener of a comment that names the control
namespace, and the quotes of a reserved envelope key in JSON-key position.
Script-bearing markup is only counted; the scanner that counts it is a
parameter here, for no text depends on it.

The grammars of control tokens, Worker paths and fences are here too.
-/

namespace Asimposium

open Text

/-! ## Control comments -/

/-- `CONTROL_COMMENT_OPEN`. -/
def controlCommentOpen : Text := text "<!--"

/-- `CONTROL_COMMENT_NAMESPACE`. -/
def controlCommentNamespace : Text := text "asimp"

def nextSemantic (seen : Nat) (character : Text) : Option Nat :=
  match controlCommentNamespace[seen]? with
  | some expected => if character = [expected] then some (seen + 1) else none
  | none => none

/-- The semantic characters of one code point: beyond ASCII its expansion,
less marks and format controls, each folded. -/
def semanticCharacters (unicode : Unicode) (point : Text) : List Text :=
  if point.all isAscii then [point.map foldAscii]
  else
    ((codePoints (unicode.nfkd point)).filter fun decomposed =>
        !unicode.isMarkOrFormat decomposed).flatMap fun decomposed =>
      (codePoints (unicode.toLowerCase (unicode.nfkc decomposed))).filter fun folded =>
        !unicode.isMarkOrFormat folded

/-- A colon ends the namespace, in any compatibility spelling. -/
def isColon (unicode : Unicode) (point : Text) : Bool :=
  if point.all isAscii then point == [unit ':'] else unicode.nfkc point == [unit ':']

def isControlCommentWhitespace (point : Text) : Bool :=
  match point with
  | [u] => if isAscii u then isAsciiSpace u else isWhiteSpace u
  | _ => false

/-- The comment closes here; the tokenizer knows two closers. -/
def closesComment (t : Text) : Bool := startsWith t (text "-->") || startsWith t (text "--!>")

/-- One code point of the scan: `here` is the text from it on, `next` the
scan behind it. -/
def scanStep (unicode : Unicode) (seen : Nat) (point here : Text) (next : Nat → Bool) : Bool :=
  if closesComment here || isColon unicode point then seen == controlCommentNamespace.length
  else if isControlCommentWhitespace point then
    -- white space before the namespace is not part of it
    if seen ≠ 0 then seen == controlCommentNamespace.length else next seen
  else match (semanticCharacters unicode point).foldlM nextSemantic seen with
  | none => false
  | some seen => next seen

/-- The scan behind an opener, with `seen` characters of the namespace
read. -/
def scanNamespace (unicode : Unicode) : Nat → Text → Bool
  | seen, [] => seen == controlCommentNamespace.length
  | seen, [u] =>
      scanStep unicode seen [u] [u] fun seen => seen == controlCommentNamespace.length
  | seen, u :: v :: rest =>
      if isHighSurrogate u && isLowSurrogate v then
        scanStep unicode seen [u, v] (u :: v :: rest) fun seen => scanNamespace unicode seen rest
      else
        scanStep unicode seen [u] (u :: v :: rest) fun seen =>
          scanNamespace unicode seen (v :: rest)

/-- Whether the comment names the control namespace; `after` is the text
behind its opener. -/
def isAsimpControlComment (unicode : Unicode) (after : Text) : Bool :=
  scanNamespace unicode 0 after

/-- A control comment opens at the head of the text. An opener holds one
`<`, so no two openers overlap. -/
def opensControlComment (unicode : Unicode) (t : Text) : Bool :=
  startsWith t controlCommentOpen
    && isAsimpControlComment unicode (t.drop controlCommentOpen.length)

def hasAsimpControlComment (unicode : Unicode) : Text → Bool
  | [] => false
  | u :: rest => opensControlComment unicode (u :: rest) || hasAsimpControlComment unicode rest

/-- `<` becomes `&lt;` at every opener of a control comment; the rest of
the opener is kept. -/
def neutralizeControlComments (unicode : Unicode) : Text → Text × Nat
  | [] => ([], 0)
  | u :: rest =>
      let (neutralized, count) := neutralizeControlComments unicode rest
      if opensControlComment unicode (u :: rest) then (text "&lt;" ++ neutralized, count + 1)
      else (u :: neutralized, count)

/-! ## Envelope keys -/

/-- `RESERVED_ENVELOPE_KEYS`. -/
def reservedEnvelopeKeys : List Text := [text "next_actions", text "why_included"]

/-- `LONGEST_RESERVED_ENVELOPE_KEY`. -/
def longestReservedEnvelopeKey : Nat := (reservedEnvelopeKeys.map List.length).foldl max 0

def hexDigit (u : UInt16) : Option UInt16 :=
  if isDigit u then some (u - unit '0')
  else if unit 'a' ≤ u && u ≤ unit 'f' then some (u - unit 'a' + 10)
  else if unit 'A' ≤ u && u ≤ unit 'F' then some (u - unit 'A' + 10)
  else none

/-- `\uXXXX` at the head of a text: the code unit it spells. -/
def jsonUnicodeEscape : Text → Option UInt16
  | slash :: u :: a :: b :: c :: d :: _ =>
      if slash = unit '\\' ∧ u = unit 'u' then do
        let a ← hexDigit a
        let b ← hexDigit b
        let c ← hexDigit c
        let d ← hexDigit d
        some (a * 4096 + b * 256 + c * 16 + d)
      else none
  | _ => none

def isKeyCharacter (u : UInt16) : Bool := isAlphanumeric u || u == unit '_'

/-- How many code units one character of a key takes here. -/
def keyCharacterWidth (t : Text) : Option Nat :=
  if (jsonUnicodeEscape t).isSome then some 6
  else match t with
  | u :: _ => if isKeyCharacter u then some 1 else none
  | [] => none

/-- The encoded key of at most `bound` characters at the head of a text,
as its length in code units. -/
def encodedKeyLength : Nat → Text → Nat
  | 0, _ => 0
  | bound + 1, t =>
      match keyCharacterWidth t with
      | some width => width + encodedKeyLength bound (t.drop width)
      | none => 0

/-- `decodeJsonUnicodeEscapes`. -/
def decodeJsonUnicodeEscapes (t : Text) : Text :=
  match t with
  | [] => []
  | u :: rest =>
      match jsonUnicodeEscape (u :: rest) with
      | some decoded => decoded :: decodeJsonUnicodeEscapes (rest.drop 5)
      | none => u :: decodeJsonUnicodeEscapes rest
termination_by t.length
decreasing_by
  · simp only [List.length_drop, List.length_cons]; omega
  · simp

/-- `ENVELOPE_KEY_CANDIDATE` at the head of a text: the encoded key, the
gap before the colon, and what follows the match. -/
def envelopeKeyCandidate (t : Text) : Option (Text × Text × Text) :=
  match t with
  | [] => none
  | quote :: rest =>
      let length := encodedKeyLength longestReservedEnvelopeKey rest
      if quote = unit '"' ∧ length ≠ 0 then
        match rest.drop length with
        | close :: tail =>
            if close = unit '"' then
              match tail.dropWhile isSpace with
              | colon :: after =>
                  if colon = unit ':' then
                    some (rest.take length, tail.takeWhile isSpace, after)
                  else none
              | [] => none
            else none
        | [] => none
      else none

theorem envelopeKeyCandidate_eq {t key gap after : Text}
    (h : envelopeKeyCandidate t = some (key, gap, after)) :
    t = unit '"' :: (key ++ unit '"' :: (gap ++ unit ':' :: after)) := by
  unfold envelopeKeyCandidate at h
  split at h
  · cases h
  · rename_i quote rest
    dsimp only at h
    split at h
    · rename_i hquote
      split at h
      · rename_i close tail hdrop
        split at h
        · rename_i hclose
          split at h
          · rename_i colon rest' hcolon
            split at h
            · rename_i hcolon'
              cases h
              have htail : tail = tail.takeWhile isSpace ++ unit ':' :: after := by
                rw [← hcolon', ← hcolon, List.takeWhile_append_dropWhile]
              have hrest : rest = rest.take (encodedKeyLength longestReservedEnvelopeKey rest)
                  ++ unit '"' :: tail := by
                rw [← hclose, ← hdrop, List.take_append_drop]
              rw [hquote.1, ← htail, ← hrest]
            · cases h
          · cases h
        · cases h
      · cases h
    · cases h

def neutralizeReservedEnvelopeKeys (t : Text) : Text × Nat :=
  match _h : envelopeKeyCandidate t with
  | some (key, gap, after) =>
      let (neutralized, count) := neutralizeReservedEnvelopeKeys after
      if decodeJsonUnicodeEscapes key ∈ reservedEnvelopeKeys then
        (text "&quot;" ++ key ++ text "&quot;" ++ gap ++ [unit ':'] ++ neutralized, count + 1)
      else ([unit '"'] ++ key ++ [unit '"'] ++ gap ++ [unit ':'] ++ neutralized, count)
  | none =>
      match t with
      | [] => ([], 0)
      | u :: rest =>
          let (neutralized, count) := neutralizeReservedEnvelopeKeys rest
          (u :: neutralized, count)
termination_by t.length
decreasing_by
  · rw [envelopeKeyCandidate_eq _h]
    simp only [List.length_cons, List.length_append]
    omega
  · simp

/-! ## Bodies -/

inductive NeutralizationMarker where
  | asimpControlComment
  | envelopeKeyForgery
  | fenceExtended
  | activeHtml
deriving Repr, DecidableEq

structure NeutralizationFinding where
  marker : NeutralizationMarker
  count : Nat
deriving Repr, DecidableEq

structure NeutralizedBody where
  text : Text
  findings : List NeutralizationFinding
deriving Repr, DecidableEq

/-- The runtime's Unicode tables, and the scanner for script-bearing
markup (`countActiveHtml`). -/
structure Sanitizer extends Unicode where
  countActiveHtml : Text → Nat

def findingOf (marker : NeutralizationMarker) (count : Nat) : List NeutralizationFinding :=
  if 0 < count then [⟨marker, count⟩] else []

def neutralizeUntrustedBody (sanitizer : Sanitizer) (body : Text) : NeutralizedBody :=
  let controlComments := neutralizeControlComments sanitizer.toUnicode body
  let envelopeKeys := neutralizeReservedEnvelopeKeys controlComments.1
  { text := envelopeKeys.1
    findings := findingOf .asimpControlComment controlComments.2
      ++ findingOf .envelopeKeyForgery envelopeKeys.2
      ++ findingOf .activeHtml (sanitizer.countActiveHtml envelopeKeys.1) }

end Asimposium

/-!
## Tokens, paths and fences

The positive grammars of what the faces print outside of bodies (control
tokens, item ids, Worker paths), and the fences that keep bodies inside.
-/

namespace Asimposium

open Text

/-! ## Tokens -/

/-- A character of `CONTROL_TOKEN` behind the first. -/
def isControlTokenCharacter (u : UInt16) : Bool :=
  isAlphanumeric u || (text "._:@#/-").contains u

/-- `CONTROL_TOKEN` and no `--`. -/
def isSafeHeaderValue (value : Text) : Bool :=
  match value with
  | [] => false
  | u :: rest =>
      isAlphanumeric u && rest.all isControlTokenCharacter && rest.length ≤ 127
        && !Text.includes value (text "--")

/-- `ITEM_ID_PATTERN`. -/
def isItemId (value : Text) : Bool :=
  match value with
  | [] => false
  | u :: rest =>
      isAlphanumeric u && rest.all (fun v => isAlphanumeric v || (text "@#._-").contains v)
        && rest.length ≤ 63

/-- `/^[a-z][a-z0-9-]{0,63}$/`. -/
def isSectionToken (value : Text) : Bool :=
  match value with
  | [] => false
  | u :: rest =>
      isLower u && rest.all (fun v => isLower v || isDigit v || v == unit '-')
        && rest.length ≤ 63

/-! ## Worker paths -/

/-- `URL_SCHEME`. -/
def hasUrlScheme (value : Text) : Bool :=
  match value with
  | [] => false
  | u :: rest =>
      (isUpper u || isLower u)
        && (rest.dropWhile fun v => isAlphanumeric v || (text "+.-").contains v).head?
          == some (unit ':')

def hasAsciiUrlControlOrSpace (value : Text) : Bool := value.any fun u => u ≤ 0x20 || u == 0x7f

/-- `workerPathname`: the text before the query. -/
def workerPathname (value : Text) : Text := value.takeWhile (· ≠ unit '?')

def hasUnsafeWorkerPathTraversal (pathname : Text) : Bool :=
  (pathname.splitOn (unit '/')).any fun segment => segment == text "." || segment == text ".."

/-- `isSafeWorkerPath`. A text that passes these checks is one `/` and a
path without host, credentials or fragment, so it always resolves on the
Worker's own origin. -/
def isSafeWorkerPath (value : Text) : Bool :=
  let pathname := workerPathname value
  !(startsWith value (text "//") || hasUrlScheme value || value.contains (unit '\\')
    || value.contains (unit '#') || value.contains (unit '`') || hasAsciiUrlControlOrSpace value
    || pathname.contains (unit '%') || hasUnsafeWorkerPathTraversal pathname
    || !startsWith value (text "/"))

/-! ## Fences -/

/-- `longestBacktickRun`, with the run that ends here. -/
def longestBacktickRunFrom (run longest : Nat) : Text → Nat
  | [] => longest
  | u :: rest =>
      if u = unit '`' then longestBacktickRunFrom (run + 1) (max longest (run + 1)) rest
      else longestBacktickRunFrom 0 longest rest

def longestBacktickRun (t : Text) : Nat := longestBacktickRunFrom 0 0 t

structure Fence where
  delimiter : Text
  extended : Bool
deriving Repr, DecidableEq

/-- `fenceFor`: a fence longer than every run of backticks in the text. -/
def fenceFor (t : Text) : Fence :=
  let length := max 3 (longestBacktickRun t + 1)
  { delimiter := List.replicate length (unit '`'), extended := 3 < length }

/-- The lines of a text with their offsets, as `markdownLineEnd` and
`markdownNextLineStart` walk them; `line` is what was read of the current
one. -/
def markdownLinesFrom (start : Nat) (line : Text) : Text → List (Nat × Text)
  | [] => if line = [] then [] else [(start, line)]
  | [u] => if u = unit '\n' || u = unit '\r' then [(start, line)] else [(start, line ++ [u])]
  | u :: v :: rest =>
      if u = unit '\r' && v = unit '\n' then
        (start, line) :: markdownLinesFrom (start + line.length + 2) [] rest
      else if u = unit '\n' || u = unit '\r' then
        (start, line) :: markdownLinesFrom (start + line.length + 1) [] (v :: rest)
      else markdownLinesFrom start (line ++ [u]) (v :: rest)

def markdownLines (t : Text) : List (Nat × Text) := markdownLinesFrom 0 [] t

/-- A line less at most four leading spaces, and how many there were. -/
def stripIndentation (line : Text) : Nat × Text :=
  let indentation := min 4 (line.takeWhile (· == unit ' ')).length
  (indentation, line.drop indentation)

/-- The fence of some delimiter a line opens: its length. -/
def openedFence (line : Text) : Option (UInt16 × Nat) :=
  let (indentation, content) := stripIndentation line
  match content with
  | [] => none
  | delimiter :: _ =>
      let run := (content.takeWhile (· == delimiter)).length
      let info := trim (content.drop run)
      if indentation ≤ 3 && (delimiter == unit '`' || delimiter == unit '~') && 3 ≤ run
          && !(delimiter == unit '`' && info.contains (unit '`')) then
        some (delimiter, run)
      else none

/-- The line closes a fence of this delimiter and length. -/
def closesFence (delimiter : UInt16) (length : Nat) (line : Text) : Bool :=
  let (indentation, content) := stripIndentation line
  let run := (content.takeWhile (· == delimiter)).length
  indentation ≤ 3 && length ≤ run
    && (content.drop run).all fun u => u == unit ' ' || u == unit '\t'

/-- An open fence: its delimiter, its length and where it was opened. -/
structure OpenFence where
  delimiter : UInt16
  length : Nat
  offset : Nat
deriving Repr, DecidableEq

/-- One line of `auditTrustedBodyFences`. -/
def auditLine (opened : Option OpenFence) (line : Nat × Text) : Option OpenFence :=
  match opened with
  | none =>
      (openedFence line.2).map fun (delimiter, length) =>
        { delimiter, length, offset := line.1 + (stripIndentation line.2).1 }
  | some fence => if closesFence fence.delimiter fence.length line.2 then none else some fence

/-- `auditTrustedBodyFences(text).unclosedFenceOffset`. -/
def unclosedFenceOffset (t : Text) : Option Nat :=
  ((markdownLines t).foldl auditLine none).map (·.offset)

end Asimposium
