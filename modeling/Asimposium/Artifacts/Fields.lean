import Asimposium.Js
import Asimposium.Lib.ExceptRun
import Asimposium.Lib.Words

/-!
# The fields of an archive header

What the inspection of an uploaded archive reads of its bytes: texts, the
NUL-padded fields of a header, octal numbers, and the names of members.

A text decoded from UTF-8 has no half of a surrogate pair, so it is a
`String`. The patterns of a leaked secret and the Unicode tables behind
`normalize("NFC").toLowerCase()` are not modelled: `Platform` stands for
them.
-/

namespace Asimposium.Artifacts

open ExceptRun

abbrev Bytes := List UInt8

inductive ArtifactInspectionCode where
  | publicationTooLarge
  | tooLarge
  | typeForbidden
  | secretShaped
  | archiveInvalid
  | digestMismatch
deriving DecidableEq

abbrev Inspection := Except ArtifactInspectionCode

structure Platform where
  bodyLooksSecretShaped : String → Bool
  /-- `text.normalize("NFC").toLowerCase()`. -/
  nfcLowerCase : String → String

/-- `if (!holds) return badArchive()`. -/
def require (holds : Bool) : Inspection Unit := if holds then .ok () else .error .archiveInvalid

/-- `zero(bytes)`. -/
def zero (bytes : Bytes) : Bool := bytes.all (· == 0)

/-- `bytes.subarray(start, stop)`. -/
def subarray (bytes : Bytes) (start stop : Nat) : Bytes := (bytes.drop start).take (stop - start)

/-! ## Texts -/

def byteOrderMark : Char := '\uFEFF'

/-- `new TextDecoder("utf-8", { fatal: true }).decode(bytes)`. -/
def decode (bytes : Bytes) : Option String :=
  (String.fromUTF8? ⟨bytes.toArray⟩).map fun text =>
    if text.toList.head? = some byteOrderMark then String.ofList text.toList.tail else text

/-- `new TextEncoder().encode(text)`. -/
def encode (text : String) : Bytes := text.toUTF8.data.toList

def StartsWithMark (bytes : Bytes) : Prop :=
  ∃ rest, bytes = encode (String.ofList (byteOrderMark :: rest))

/-- `[\u0000-\u0008\u000b\u000c\u000e-\u001f\u007f]`. -/
def isForbiddenControl (c : Char) : Bool :=
  let n := c.toNat
  n ≤ 8 || n == 0xb || n == 0xc || (0xe ≤ n && n ≤ 0x1f) || n == 0x7f

/-- What is left after a word in any letter case, up to `\b`. -/
def startsWithWord (body word : List Char) : Bool :=
  word.isPrefixOf (body.map Char.toLower)
    && (body.drop word.length).head?.all fun c => !isWordChar c

/-- `<!doctype\s+html\b`. -/
def startsWithDoctype (body : List Char) : Bool :=
  let doctype := "<!doctype".toList
  let rest := body.drop doctype.length
  doctype.isPrefixOf (body.map Char.toLower) && rest.head?.any isJsSpace
    && startsWithWord (rest.dropWhile isJsSpace) "html".toList

/-- `/^\s*(?:<!doctype\s+html\b|<html\b|<svg\b|<\?xml\b)/i`. -/
def looksLikeMarkup (body : String) : Bool :=
  let rest := body.toList.dropWhile isJsSpace
  startsWithDoctype rest || startsWithWord rest "<html".toList
    || startsWithWord rest "<svg".toList || startsWithWord rest "<?xml".toList

/-- `text(bytes)`: inert UTF-8, with no shape of a secret. -/
def text (platform : Platform) (bytes : Bytes) : Inspection String :=
  match decode bytes with
  | none => .error .typeForbidden
  | some body =>
      if body.toList.any isForbiddenControl || looksLikeMarkup body then .error .typeForbidden
      else if platform.bodyLooksSecretShaped body then .error .secretShaped
      else .ok body

/-- `field(bytes)`: a text with nothing but NUL after it. -/
def field (bytes : Bytes) : Inspection String :=
  if zero (bytes.dropWhile (· != 0)) then
    match decode (bytes.takeWhile (· != 0)) with
    | none => .error .archiveInvalid
    | some value => .ok value
  else .error .archiveInvalid

/-! ## Numbers -/

def isOctalDigit (b : UInt8) : Bool := 48 ≤ b && b ≤ 55

def isBlank (b : UInt8) : Bool := b == 32

/-- `[\x00 ]`. -/
def isPadding (b : UInt8) : Bool := b == 0 || b == 32

/-- `/^[ 0-7]*[\x00 ]*$/`. A space may stand in either part, so the first is
as long as it can be. -/
def matchesOctal (bytes : Bytes) : Bool :=
  (bytes.dropWhile fun b => isBlank b || isOctalDigit b).all isPadding

/-- `value.replace(/[\x00 ]+$/, "").trim()`, where only spaces can be left
to trim. -/
def octalDigits (bytes : Bytes) : Bytes := (bytes.rdropWhile isPadding).dropWhile isBlank

/-- `Number.parseInt(digits, 8)`: the digits up to the first that is none. -/
def parseOctal (digits : Bytes) : Option Nat :=
  let leading := digits.takeWhile isOctalDigit
  if leading = [] then none else some (leading.foldl (fun n b => 8 * n + (b.toNat - 48)) 0)

/-- `octal(bytes)`. -/
def octal (bytes : Bytes) : Inspection Nat :=
  if matchesOctal bytes then
    let digits := octalDigits bytes
    match if digits = [] then some 0 else parseOctal digits with
    | none => .error .archiveInvalid
    | some parsed => if isSafeInteger parsed then .ok parsed else .error .archiveInvalid
  else .error .archiveInvalid

/-! ## Names -/

def isSeparator (c : Char) : Bool := c == '/' || c == '\\'

/-- `memberPath.split(/[\\/]+/)`. -/
def pathSegments (memberPath : List Char) : List (List Char) :=
  (if memberPath.head?.all isSeparator then [[]] else [])
    ++ Words.words isSeparator memberPath
    ++ (if memberPath.getLast?.all isSeparator then [[]] else [])

/-- `archiveMemberPathIsSafe(memberPath)`. -/
def archiveMemberPathIsSafe (memberPath : List Char) : Bool :=
  match memberPath with
  | [] => false
  | first :: rest =>
      !isSeparator first && !(first.isAlpha && rest.head? == some ':')
        && (pathSegments memberPath).all fun segment => segment != ['.', '.'] && segment != []

/-- `/^(?:con|prn|aux|nul|com[1-9]|lpt[1-9])(?:\.|$)/i`. -/
def isReservedName (part : List Char) : Bool :=
  match (part.takeWhile (· != '.')).map Char.toLower with
  | ['c', 'o', 'n'] | ['p', 'r', 'n'] | ['a', 'u', 'x'] | ['n', 'u', 'l'] => true
  | ['c', 'o', 'm', d] | ['l', 'p', 't', d] => '1' ≤ d && d ≤ '9'
  | _ => false

/-- `[\\:\u0000-\u001f\u007f]`. -/
def isForbiddenInName (c : Char) : Bool :=
  c == '\\' || c == ':' || c.toNat ≤ 0x1f || c.toNat == 0x7f

/-- A member's name, without the slash that ends a directory's. -/
def normalized (name : String) (directory : Bool) : List Char :=
  if directory && name.toList.getLast? == some '/' then name.toList.dropLast else name.toList

/-- What `path` refuses. -/
def isUnsafeName (name : List Char) : Bool :=
  decide (255 < utf16Length (String.ofList name)) || name.any isForbiddenInName
    || !archiveMemberPathIsSafe name
    || (name.splitOn '/').any fun part =>
      part == [] || part == ['.'] || part.getLast? == some '.' || part.getLast? == some ' '
        || isReservedName part

/-- `path(name, directory)`: the spelling under which a member is known. -/
def path (platform : Platform) (name : String) (directory : Bool) : Inspection String :=
  if isUnsafeName (normalized name directory) then .error .archiveInvalid
  else .ok (platform.nfcLowerCase (String.ofList (normalized name directory)))

end Asimposium.Artifacts

/-!
## Reading an expanded archive

The decompressor gives the archive in chunks. `ExpandedReader` keeps one
chunk and hands out runs of bytes of any length, across chunks: what it
hands out are the next bytes of the archive (`take_some`), and it reports
the end only where the archive ends (`take_none`).
-/

namespace Asimposium.Artifacts

structure ExpandedReader where
  /-- The chunks that the decompressor has still to give. -/
  pending : List Bytes
  /-- What is left of the current chunk. -/
  chunk : Bytes
  cap : Nat
  received : Nat := 0
  consumed : Nat := 0

namespace ExpandedReader

def left (input : ExpandedReader) : Bytes := input.chunk ++ input.pending.flatten

/-- The loop of `take`, with `size` bytes still to be written. -/
def takeLoop (cap : Nat) (size : Nat) (written chunk : Bytes) (received consumed : Nat) :
    List Bytes → Inspection (Option (Bytes × ExpandedReader))
  | [] =>
      if size ≤ chunk.length then
        .ok (some (written ++ chunk.take size,
          ⟨[], chunk.drop size, cap, received, consumed + size⟩))
      else if written ++ chunk = [] then .ok none
      else .error .archiveInvalid
  | next :: pending =>
      if size ≤ chunk.length then
        .ok (some (written ++ chunk.take size,
          ⟨next :: pending, chunk.drop size, cap, received, consumed + size⟩))
      else if cap < received + next.length then .error .archiveInvalid
      else
        takeLoop cap (size - chunk.length) (written ++ chunk) next (received + next.length)
          (consumed + chunk.length) pending

/-- `take(size)`; none where the archive has ended. -/
def take (input : ExpandedReader) (size : Nat) : Inspection (Option (Bytes × ExpandedReader)) :=
  takeLoop input.cap size [] input.chunk input.received input.consumed input.pending

variable {cap size received consumed : Nat} {bytes : Bytes} {pending : List Bytes}

end ExpandedReader

end Asimposium.Artifacts
