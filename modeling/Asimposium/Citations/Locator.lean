import Asimposium.Render.Contracts

/-!
# Locators of citations

`canonicalizeLocator` brings an external locator into the form of its kind,
and `computeCitationNormHash` makes the key duplicates of a citation are
found by. The case mappings, the normal form and the URL parser of the
runtime are a `Platform`.
-/

namespace Asimposium.Citations

open Text (isAscii isDigit isLower isUpper isAlphanumeric isSpace foldAscii startsWith trim)

/-! ## The platform -/

/-- A URL record as the parser returns it, in the parts its serialization
puts one after the other. -/
structure Url where
  protocol : Text
  /-- From the slashes to the port. -/
  authority : Text
  pathname : Text
  search : Text
  hash : Text
deriving DecidableEq

def Url.toString (u : Url) : Text :=
  u.protocol ++ u.authority ++ u.pathname ++ u.search ++ u.hash

structure Platform where
  toLowerCase : Text → Text
  toUpperCase : Text → Text
  nfc : Text → Text
  /-- `new URL(raw)`; `none` where it throws. -/
  parseUrl : Text → Option Url

/-! ## Patterns -/

inductive LocatorKind where
  | doi
  | arxiv
  | url
  | isbn
  | manual
  | modelMemory
deriving Repr, DecidableEq

def LocatorKind.name : LocatorKind → String
  | .doi => "doi"
  | .arxiv => "arxiv"
  | .url => "url"
  | .isbn => "isbn"
  | .manual => "manual"
  | .modelMemory => "model_memory"

def afterFold (literal : String) (t : Text) : Option Text :=
  if (t.take (text literal).length).map foldAscii = text literal then
    some (t.drop (text literal).length)
  else none

/-- What may follow an optional part that is one of the literals: the
matcher tries with the part first. -/
def optionally (literals : List String) (t : Text) : List Text :=
  literals.filterMap (afterFold · t) ++ [t]

/-- `[-._;()/:A-Za-z0-9]`. -/
def isDoiUnit (u : UInt16) : Bool :=
  isAlphanumeric u || u == unit '-' || u == unit '.' || u == unit '_' || u == unit ';'
    || u == unit '(' || u == unit ')' || u == unit '/' || u == unit ':'

/-- `10\.\d{4,9}\/[-._;()/:A-Za-z0-9]+`. -/
def isDoi (t : Text) : Bool :=
  startsWith t (text "10.") &&
    let registrant := (t.drop 3).takeWhile isDigit
    4 ≤ registrant.length && registrant.length ≤ 9
      && match (t.drop 3).dropWhile isDigit with
        | [] => false
        | u :: suffix => u == unit '/' && !suffix.isEmpty && suffix.all isDoiUnit

def doiPrefixes : List String :=
  ["https://dx.doi.org/", "https://doi.org/", "http://dx.doi.org/", "http://doi.org/"]

/-- `DOI_PREFIX_PATTERN.exec(raw)?.[1]`. -/
def matchDoi (raw : Text) : Option Text := (optionally doiPrefixes raw).find? isDoi

/-- `[a-z-]`, in either case. -/
def isArchiveUnit (u : UInt16) : Bool := isLower u || isUpper u || u == unit '-'

/-- `\d{n}` and no more. -/
def isDigits (n : Nat) (t : Text) : Bool := t.length == n && t.all isDigit

/-- `[a-z-]+(?:\.[A-Z]{2})?\/\d{7}`. -/
def isOldArxiv (t : Text) : Bool :=
  !(t.takeWhile isArchiveUnit).isEmpty &&
    match t.dropWhile isArchiveUnit with
    | u :: rest =>
        (u == unit '/' && isDigits 7 rest)
          || (u == unit '.' && match rest with
            | a :: b :: slash :: number =>
                (isLower a || isUpper a) && (isLower b || isUpper b) && slash == unit '/'
                  && isDigits 7 number
            | _ => false)
    | [] => false

/-- `\d{4}\.\d{4,5}(?:v\d+)?`. -/
def isNewArxiv (t : Text) : Bool :=
  isDigits 4 (t.take 4) &&
    match t.drop 4 with
    | [] => false
    | dot :: rest =>
        dot == unit '.' &&
          let number := rest.takeWhile isDigit
          4 ≤ number.length && number.length ≤ 5
            && match rest.dropWhile isDigit with
              | [] => true
              | v :: version =>
                  foldAscii v == unit 'v' && !version.isEmpty && version.all isDigit

def isArxiv (t : Text) : Bool := isOldArxiv t || isNewArxiv t

def arxivPrefixes : List String :=
  ["https://arxiv.org/abs/", "https://arxiv.org/pdf/", "http://arxiv.org/abs/",
    "http://arxiv.org/pdf/"]

/-- `ARXIV_PATTERN.exec(raw)?.[1]`. -/
def matchArxiv (raw : Text) : Option Text :=
  ((optionally arxivPrefixes raw).flatMap (optionally ["arxiv:"])).find? isArxiv

/-- `/^(97[89]\d{10}|\d{9}[\dX])$/`. -/
def isIsbn (t : Text) : Bool :=
  (isDigits 13 t && (startsWith t (text "978") || startsWith t (text "979")))
    || (isDigits 9 (t.take 9) && match t.drop 9 with
      | [u] => isDigit u || u == unit 'X'
      | _ => false)

/-! ## Canonical locators -/

structure Canonicalized where
  canonical : Option Text
  error : Option String
deriving DecidableEq

def trimPath (path : Text) : Text :=
  if 1 < path.length ∧ path.getLast? = some (unit '/') then path.dropLast else path

def isHttp (u : Url) : Bool := u.protocol == text "http:" || u.protocol == text "https:"

def Url.settle (u : Url) : Url := { u with hash := [], pathname := trimPath u.pathname }

def canonicalizeLocator (platform : Platform) (kind : LocatorKind) (locator : Option Text) :
    Canonicalized :=
  if kind = .modelMemory then ⟨none, none⟩
  else
    let raw := trim (locator.getD [])
    if raw.isEmpty then
      ⟨none, some "Locator is required for retrieved citations"⟩
    else match kind with
      | .doi =>
          match matchDoi raw with
          | none => ⟨none,
              some "Invalid DOI format. Expected 10.xxxx/... or https://doi.org/10.xxxx/..."⟩
          | some id => ⟨some (platform.toLowerCase id), none⟩
      | .arxiv =>
          match matchArxiv raw with
          | none => ⟨none,
              some "Invalid arXiv identifier. Expected arXiv:YYMM.NNNNN or YYMM.NNNNN"⟩
          | some id => ⟨some (platform.toLowerCase id), none⟩
      | .url =>
          match platform.parseUrl raw with
          | none => ⟨none, some "Invalid URL locator"⟩
          | some u =>
              if !isHttp u then
                ⟨none, some "URL locator must use http: or https: scheme"⟩
              else ⟨some u.settle.toString, none⟩
      | .isbn =>
          let cleaned := platform.toUpperCase (raw.filter fun u => !(u == unit '-' || isSpace u))
          if !isIsbn cleaned then
            ⟨none, some "Invalid ISBN-10 or ISBN-13 format"⟩
          else ⟨some cleaned, none⟩
      | .manual => ⟨some (platform.nfc raw), none⟩
      | .modelMemory => ⟨none, none⟩

/-! ## The duplicate key -/

/-- `replace(/\s+/g, " ")`. -/
def collapseSpaces : Text → Text
  | [] => []
  | u :: rest =>
      if isSpace u then
        match rest with
        | [] => [unit ' ']
        | v :: _ => if isSpace v then collapseSpaces rest else unit ' ' :: collapseSpaces rest
      else u :: collapseSpaces rest

def computeCitationNormHash (platform : Platform) (title : Text) (year : Option Int)
    (kind : LocatorKind) (canonicalLocator : Option Text) : Text :=
  let normTitle := collapseSpaces (trim (platform.toLowerCase title))
  let canonical := canonicalLocator.getD []
  if kind ≠ .modelMemory ∧ canonical ≠ [] then
    text "citation:" ++ text kind.name ++ text ":" ++ platform.toLowerCase canonical
  else text "citation:memory:" ++ normTitle ++ text ":" ++ Text.ofInt (year.getD 0)

end Asimposium.Citations
