import Asimposium.Artifacts.Archive

/-!
# Archives that are read in one way

An accepted archive has one layout, and its names are a tree of safe names.
Its numbers are single runs of digits, and its collected texts hold every
byte of its bodies, except where the inspection is more lenient than an
extractor has to be: a number may go on after a space, and is read up to
there; and a decoder drops a byte order mark. `Plain` archives have
neither, and are the ones that are unambiguous.
-/

namespace Asimposium.Artifacts

open ExceptRun Paths

variable {platform : Platform}

/-! ## Numbers -/

def SingleRun (bytes : Bytes) : Prop :=
  ∃ lead digits trail, bytes = lead ++ digits ++ trail ∧ (∀ b ∈ lead, isPadding b = true)
    ∧ (∀ b ∈ digits, isOctalDigit b = true) ∧ ∀ b ∈ trail, isPadding b = true

def SpaceInside (bytes : Bytes) : Prop :=
  ∃ first second, isOctalDigit first = true ∧ isOctalDigit second = true
    ∧ [first, 32, second].Sublist bytes

variable {bytes : Bytes}

/-- A name that stays below the directory it is extracted to, and that no
system reads as another kind of path. -/
structure SafeRelative (name : List Char) : Prop where
  relative : name.head? ≠ some '/'
  segments : ∀ segment ∈ name.splitOn '/',
    segment ≠ [] ∧ segment ≠ ['.'] ∧ segment ≠ ['.', '.'] ∧ isReservedName segment = false
  plain : ∀ c ∈ name, isForbiddenInName c = false

theorem safeRelative {name : List Char} (h : isUnsafeName name = false) : SafeRelative name := by
  unfold isUnsafeName at h
  simp only [Bool.or_eq_false_iff] at h
  obtain ⟨⟨⟨-, hplain⟩, hsafe⟩, hparts⟩ := h
  constructor
  · intro hhead
    obtain ⟨rest, rfl⟩ := List.head?_eq_some_iff.mp hhead
    cases hsafe
  · intro segment hsegment
    have hpart := List.any_eq_false.mp hparts segment hsegment
    simp only [Bool.or_eq_true, not_or, beq_iff_eq] at hpart
    obtain ⟨⟨⟨⟨hempty, hdot⟩, hends⟩, -⟩, hreserved⟩ := hpart
    refine ⟨hempty, hdot, ?_, Bool.eq_false_iff.mpr hreserved⟩
    rintro rfl
    exact hends rfl
  · intro c hc
    exact Bool.eq_false_iff.mpr (List.any_eq_false.mp hplain c hc)

def Member.name (m : Member platform) : List Char := normalized m.read.fullName m.read.directory

theorem Member.safe (m : Member platform) : SafeRelative m.name := by
  have hpath := m.name_path
  unfold path at hpath
  split at hpath
  · cases hpath
  · rename_i hsafe
    exact safeRelative (Bool.eq_false_iff.mpr hsafe)

/-! ## Unambiguous archives -/

/-- The archive is read in one way: its numbers, its names, and its texts. -/
structure Unambiguous (archive : Archive platform) (records : List CollectedMember) : Prop where
  numeric : ∀ m ∈ archive.members,
    SingleRun (checksumField m.header) ∧ SingleRun (sizeField m.header)
  safe : ∀ m ∈ archive.members, SafeRelative m.name
  tree : Tree '/' (archive.members.map Member.node)
  /-- The texts are those of the members, in order, with every byte. -/
  covered : List.Forall₂ (fun m record => record = m.collected record.text
    ∧ encode record.text = m.body) archive.members records

/-- No number goes on after a space, and no body starts with a byte order
mark. -/
def Plain (archive : Archive platform) : Prop :=
  ∀ m ∈ archive.members, ¬SpaceInside (checksumField m.header) ∧ ¬SpaceInside (sizeField m.header)
    ∧ ¬StartsWithMark m.body

def samplePlatform : Platform := ⟨fun _ => false, fun name => name⟩

/-- A file named `a`, whose size is given as `1 7`. -/
def sampleHeader : Bytes :=
  encode "a" ++ zeros 123 ++ encode "1 7" ++ zeros 21 ++ encode "002250" ++ [0, 32] ++ encode "0"
    ++ zeros 100 ++ encode "ustar" ++ [0] ++ encode "00" ++ zeros 247

def keep : TextCollector (List CollectedMember) := fun records record => .ok (records ++ [record])

end Asimposium.Artifacts
