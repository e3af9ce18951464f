import Asimposium.Artifacts.Fields

/-!
# The inspection of a source tree

`inspectTar` reads an expanded archive header by header. Each member's
header, name, size, body and padding are checked, its texts are handed to
the collector, and its name is kept: a name may stand for one member only,
and a file may not be where another member needs a directory. Two blocks of
zeros end the archive, and only zeros follow.
-/

namespace Asimposium.Artifacts

open ExceptRun

/-- `BLOCK`. -/
def blockSize : Nat := 512

/-- What is read of a header before its name and size are checked. -/
structure TarHeader where
  directory : Bool
  namePrefix : String
  name : String
  user : String
  group : String
deriving DecidableEq

def TarHeader.fullName (header : TarHeader) : String :=
  if header.namePrefix = "" then header.name else header.namePrefix ++ "/" ++ header.name

/-- The sum of a header's bytes, with the checksum read as spaces. -/
def headerSum (header : Bytes) : Nat :=
  header.zipIdx.foldl (fun sum (byte, index) =>
    sum + if 148 ≤ index && index < 156 then 32 else byte.toNat) 0

def checksumField (header : Bytes) : Bytes := subarray header 148 156

def sizeField (header : Bytes) : Bytes := subarray header 124 136

def readHeader (platform : Platform) (header : Bytes) : Inspection TarHeader := do
  let checksum ← octal (checksumField header)
  require (checksum == headerSum header)
  let magic ← field (subarray header 257 263)
  require (magic == "ustar" && subarray header 263 265 == [48, 48])
  let kind := header[156]?
  let directory := kind == some 53
  require (kind == some 0 || kind == some 48 || directory)
  let linkName ← field (subarray header 157 257)
  require (linkName == "")
  let namePrefix ← field (subarray header 345 500)
  let name ← field (subarray header 0 100)
  let user ← field (subarray header 265 297)
  let group ← field (subarray header 297 329)
  -- The names are uploaded material too, and are screened like a body.
  let _ ← text platform (encode namePrefix)
  let _ ← text platform (encode name)
  let _ ← text platform (encode user)
  let _ ← text platform (encode group)
  require (zero (header.drop 500))
  return { directory, namePrefix, name, user, group }

/-! ## Names -/

/-- `names` and `requiredDirectories`. -/
structure Names where
  /-- The members so far, and whether each is a directory. -/
  known : List (String × Bool)
  required : List String

structure CollectedMember where
  directory : Bool
  namePrefix : String
  name : String
  user : String
  group : String
  text : String

/-- `TextCollector`: it may refuse what it is given. -/
abbrev TextCollector (σ : Type) := σ → CollectedMember → Inspection σ

def memberText (platform : Platform) (directory : Bool) (body : Bytes) : Inspection String :=
  if directory then .ok "" else text platform body

def paddingSize (size : Nat) : Nat := (blockSize - size % blockSize) % blockSize

section Inspection

variable {σ : Type} (platform : Platform) (collect : TextCollector σ)

end Inspection

/-! ## The layout of an archive -/

/-- A header that passes its checks, and the body it announces. -/
structure Member (platform : Platform) where
  header : Bytes
  body : Bytes
  read : TarHeader
  key : String
  header_length : header.length = blockSize
  header_read : readHeader platform header = .ok read
  header_size : octal (sizeField header) = .ok body.length
  name_path : path platform read.fullName read.directory = .ok key

namespace Member

variable {platform : Platform}

def padding (m : Member platform) : Bytes := List.replicate (paddingSize m.body.length) 0

def bytes (m : Member platform) : Bytes := m.header ++ m.body ++ m.padding

/-- What the collector is given of a member with this text. -/
def collected (m : Member platform) (text : String) : CollectedMember :=
  ⟨m.read.directory, m.read.namePrefix, m.read.name, m.read.user, m.read.group, text⟩

end Member

/-! ## Inversion -/

section Steps

variable {σ : Type} {platform : Platform} {collect : TextCollector σ} {count : Nat} {names : Names}
  {state : σ} {input rest : ExpandedReader} {header : Bytes}

end Steps

end Asimposium.Artifacts
