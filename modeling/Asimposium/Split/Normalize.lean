import Asimposium.Render.Text
import Asimposium.Lib.Regex
import Asimposium.Lib.Squeeze

/-!
# The normal form of a claim statement

The key of the near-duplicate gate: mathematical spans become tokens between
two private control characters, and white space is collapsed. Explicit spans
are found by a pattern, dollars by a loop that lets a currency amount yield to
a later opener.

Positions are those of code units, and the currency patterns read code points.
-/

namespace Asimposium.Split

open Text (isWhiteSpace isSpace isDigit isLower trim)
open Regex (Pattern)

/-- The tables of the runtime that the normal form reads. -/
structure Tables extends Unicode where
  /-- `\p{L}`, of a code point. -/
  isLetter : Text → Bool
  /-- `\p{N}`, of a code point. -/
  isNumber : Text → Bool

/-! ## White space and controls -/

/-- `CONFUSABLE_WHITESPACE_CHARACTER`. -/
def isConfusable (u : UInt16) : Bool :=
  isWhiteSpace u || u == 0x200b || u == 0x2060 || u == 0xfeff

/-- Every run of confusable white space becomes one space. -/
abbrev squeeze (value : Text) : Text := Squeeze.squeeze isConfusable (unit ' ') value

def collapseWhitespace (value : Text) : Text := trim (squeeze value)

/-- `RAW_CONTROL`. -/
def isRawControl (u : UInt16) : Bool := u ≤ 0x1f || (0x7f ≤ u && u ≤ 0x9f)

/-- `CANONICAL_ESCAPE`. -/
def canonicalEscape : UInt16 := unit '~'

/-- `MATH_TOKEN_START`. -/
def mathTokenStart : UInt16 := 2

/-- `MATH_TOKEN_END`. -/
def mathTokenEnd : UInt16 := 3

/-- `codePoint.toString(16).padStart(2, "0")`. -/
def hexPadded (u : UInt16) : Text :=
  let digits := (Nat.toDigits 16 u.toNat).map unit
  List.replicate (2 - digits.length) (unit '0') ++ digits

def doubleEscape (u : UInt16) : Text :=
  if u = canonicalEscape then [canonicalEscape, canonicalEscape] else [u]

def escapeControl (u : UInt16) : Text :=
  if isRawControl u then
    if isConfusable u then [u] else canonicalEscape :: unit 'c' :: hexPadded u ++ [unit ';']
  else [u]

def prepareCanonicalInput (υ : Tables) (value : Text) : Text :=
  let normalized := (υ.toLowerCase (υ.nfkc value)).flatMap doubleEscape
  normalized.flatMap escapeControl

/-! ## Explicit spans -/

/-- The alternatives of `EXPLICIT_MATH_SPAN`. -/
inductive Delimiters where
  | display
  | paren
  | bracket
deriving Repr, DecidableEq

namespace Delimiters

def opening : Delimiters → Text
  | display => text "$$"
  | paren => text "\\("
  | bracket => text "\\["

def closing : Delimiters → Text
  | display => text "$$"
  | paren => text "\\)"
  | bracket => text "\\]"

end Delimiters

/-- A unit of a text, or a match of `EXPLICIT_MATH_SPAN`. -/
inductive Atom where
  | unit (u : UInt16)
  | span (delimiters : Delimiters) (interior : Text)
deriving Repr, DecidableEq

/-- `([\s\S]*?)` before its closing delimiter. -/
def lazyInterior (closing : Text) : Text → Option Text
  | [] => none
  | u :: rest =>
      if closing.isPrefixOf (u :: rest) then some []
      else (lazyInterior closing rest).map (u :: ·)

def spanAt (value : Text) : Option (Delimiters × Text) :=
  [Delimiters.display, .paren, .bracket].findSome? fun delimiters =>
    if delimiters.opening.isPrefixOf value then
      (lazyInterior delimiters.closing (value.drop 2)).map (delimiters, ·)
    else none

/-- The matches of `EXPLICIT_MATH_SPAN` and the units between them; `skip`
units are behind the last match. -/
def explicitSpans : Nat → Text → List Atom
  | _, [] => []
  | skip + 1, _ :: rest => explicitSpans skip rest
  | 0, u :: rest =>
      match spanAt (u :: rest) with
      | some (delimiters, interior) =>
          .span delimiters interior :: explicitSpans (interior.length + 3) rest
      | none => .unit u :: explicitSpans 0 rest

def Atom.token : Atom → Text
  | .unit u => [u]
  | .span _ interior => mathTokenStart :: collapseWhitespace interior ++ [mathTokenEnd]

/-- `value.replace(EXPLICIT_MATH_SPAN, …)`. -/
def replaceExplicit (value : Text) : Text := (explicitSpans 0 value).flatMap Atom.token

/-! ## Dollars -/

def isEscapedDollar (value : Text) (index : Nat) : Bool :=
  ((value.take index).reverse.takeWhile (· == unit '\\')).length % 2 == 1

/-- `value[index - 1]`. -/
def unitBefore (value : Text) (index : Nat) : Option UInt16 :=
  if index = 0 then none else value[index - 1]?

def canOpenInlineMath (value : Text) (index : Nat) : Bool :=
  value[index + 1]?.any (fun next => next != unit '$' && !isConfusable next)
    && !isEscapedDollar value index

def canCloseInlineMath (value : Text) (index : Nat) : Bool :=
  (unitBefore value index).any (fun previous => previous != unit '$' && !isConfusable previous)
    && !isEscapedDollar value index

def isInlineDollar (value : Text) (index : Nat) : Bool :=
  value[index]? == some (unit '$') && unitBefore value index != some (unit '$')
    && value[index + 1]? != some (unit '$') && !isEscapedDollar value index

/-- The loop of `inlineDollarPositions` from a position on; `inside` a token
it looks for the token's end. -/
def inlineDollarsFrom (value : Text) : Bool → Nat → Text → List Nat
  | _, _, [] => []
  | true, index, u :: rest => inlineDollarsFrom value (u != mathTokenEnd) (index + 1) rest
  | false, index, u :: rest =>
      if u = mathTokenStart then
        inlineDollarsFrom value (rest.contains mathTokenEnd) (index + 1) rest
      else if isInlineDollar value index then
        index :: inlineDollarsFrom value false (index + 1) rest
      else inlineDollarsFrom value false (index + 1) rest

def inlineDollarPositions (value : Text) : List Nat := inlineDollarsFrom value false 0 value

/-- `value.slice(start, stop)`. -/
def slice (value : Text) (start stop : Nat) : Text := (value.take stop).drop start

/-! ## Currency -/

/-- The rests of the ways to match a pattern at the start of a text. -/
def ways (pattern : Pattern Text) (points : List Text) : List (List Text) :=
  (pattern.ends (fun _ => false) ⟨none, points⟩).map (·.rest)

def ofUnit (p : UInt16 → Bool) : Text → Bool
  | [u] => p u
  | _ => false

def word (literal : String) : Pattern Text := .literal (text literal).codePoints

def optional (pattern : Pattern Text) : Pattern Text := .alt pattern .empty

def one (p : Text → Bool) : Pattern Text := .run p 1 (some 1)

/-- `[+-]?` -/
def sign : Pattern Text := optional (one (ofUnit fun u => u == unit '+' || u == unit '-'))

/-- `(?:,\d{3})+` -/
def thousands : List Text → List (List Text)
  | comma :: a :: b :: c :: rest =>
      if comma = text "," ∧ ofUnit isDigit a ∧ ofUnit isDigit b ∧ ofUnit isDigit c then
        thousands rest ++ [rest]
      else []
  | _ => []

/-- `(?:(?:\d{1,3}(?:,\d{3})+)|\d+)` -/
def amount (points : List Text) : List (List Text) :=
  (ways (.run (ofUnit isDigit) 1 (some 3)) points).flatMap thousands
    ++ ways (.run (ofUnit isDigit) 1 none) points

/-- `(?:\.\d+)?` -/
def fraction : Pattern Text := optional (.seq (word ".") (.run (ofUnit isDigit) 1 none))

/-- `\s?[a-z]{3}` -/
def currencyCode : Pattern Text :=
  .seq (.run (ofUnit isSpace) 0 (some 1)) (.run (ofUnit isLower) 3 (some 3))

/-- `(?:[),.;:!?…]|[-–—])\s*\p{L}{2}` -/
def proseBoundary (υ : Tables) : Pattern Text :=
  .seq (one (ofUnit (text "),.;:!?…-–—").contains))
    (.seq (.run (ofUnit isSpace) 0 none) (.run υ.isLetter 2 (some 2)))

/-- `CURRENCY_LED_PROSE` and `CURRENCY_CODE_LED_PROSE`, after the code. -/
def amountLedProse (υ : Tables) (code : Pattern Text) (value : Text) : Bool :=
  !(((ways sign value.codePoints).flatMap amount).flatMap
    (ways (.seq fraction (.seq code (proseBoundary υ))))).isEmpty

/-- `CURRENCY_LED_PROSE`. -/
def currencyLedProse (υ : Tables) (value : Text) : Bool :=
  amountLedProse υ (optional currencyCode) value

/-- `CURRENCY_CODE_LED_PROSE`. -/
def currencyCodeLedProse (υ : Tables) (value : Text) : Bool := amountLedProse υ currencyCode value

def oneOf : List (Pattern Text) → Pattern Text
  | [] => .run (fun _ => false) 1 none
  | pattern :: rest => .alt pattern (oneOf rest)

/-- A word, and the same with an `s`. -/
def plural (literal : String) : Pattern Text := .seq (word literal) (optional (word "s"))

/-- `EXPLICIT_CURRENCY_CONTEXT` behind its first group, up to the end. -/
def currencyContext : Pattern Text :=
  .seq (oneOf [plural "amount", plural "budget", plural "cost", plural "fee", word "paid",
      word "pay", plural "payment", plural "price", word "worth"])
    (.seq (optional (.seq (.run (ofUnit isSpace) 1 none)
        (oneOf [word "are", word "at", word "is", word "of", word "was", word "were"])))
      (.seq (.run (ofUnit isSpace) 0 none)
        (.seq (optional (one (ofUnit fun u => u == unit ':' || u == unit '=')))
          (.run (ofUnit isSpace) 0 none))))

/-- `EXPLICIT_CURRENCY_CONTEXT`: its first group is the start of the text, or
a code point of no word. -/
def explicitCurrencyContext (υ : Tables) (value : Text) : Bool :=
  let toEnd (points : List Text) : Bool := (ways currencyContext points).any List.isEmpty
  toEnd value.codePoints || value.codePoints.tails.any fun points =>
    match points with
    | [] => false
    | point :: rest =>
        !(υ.isLetter point || υ.isNumber point || point == text "_") && toEnd rest

def currencyOpenerShouldYield (υ : Tables) (value : Text) (opener nextOpener : Nat)
    (hasLaterDollar : Bool) : Bool :=
  hasLaterDollar && canOpenInlineMath value nextOpener
    && currencyLedProse υ (slice value (opener + 1) nextOpener)
    && (explicitCurrencyContext υ (slice value (opener - 64) opener)
      || currencyCodeLedProse υ (slice value (opener + 1) nextOpener))

/-! ## The loop -/

/-- What `tokenizeInlineMath` keeps between two dollars. -/
structure Loop where
  output : Text
  emittedThrough : Nat
  opener : Option Nat
deriving Repr, DecidableEq

def Loop.start : Loop := ⟨[], 0, none⟩

def Loop.close (loop : Loop) (value : Text) (opener index : Nat) : Loop :=
  { output := loop.output ++ slice value loop.emittedThrough opener ++ mathTokenStart
      :: collapseWhitespace (slice value (opener + 1) index) ++ [mathTokenEnd]
    emittedThrough := index + 1
    opener := none }

/-- The body of the loop of `tokenizeInlineMath`. -/
def visit (υ : Tables) (value : Text) (hasLaterDollar : Bool) (loop : Loop) (index : Nat) : Loop :=
  match loop.opener with
  | none => if canOpenInlineMath value index then { loop with opener := some index } else loop
  | some opener =>
      if canCloseInlineMath value index then
        if currencyOpenerShouldYield υ value opener index hasLaterDollar then
          { loop with opener := some index }
        else loop.close value opener index
      else if canOpenInlineMath value index then { loop with opener := some index }
      else loop

def visitAll (υ : Tables) (value : Text) : Loop → List Nat → Loop
  | loop, [] => loop
  | loop, index :: rest => visitAll υ value (visit υ value (!rest.isEmpty) loop index) rest

def Loop.finish (loop : Loop) (value : Text) : Text := loop.output ++ value.drop loop.emittedThrough

def tokenizeInlineMath (υ : Tables) (value : Text) : Text :=
  (visitAll υ value .start (inlineDollarPositions value)).finish value

def normalizeClaimStatement (υ : Tables) (statement : Text) : Text :=
  collapseWhitespace (tokenizeInlineMath υ (replaceExplicit (prepareCanonicalInput υ statement)))

end Asimposium.Split
