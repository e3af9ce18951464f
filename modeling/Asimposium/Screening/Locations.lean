import Asimposium.Codec.Canonical
import Asimposium.Screening.Spelling

/-!
# What a finding says

The path of a finding is put together from the field, positions and member
names that are identifiers without a credential shape. No other part of the
text that is scanned is in it, and the path as a whole has no credential shape
either.
-/

namespace Asimposium.Screening

open Codec (Value FloatFormat parseText)

/-! ## Paths -/

section Paths

variable {field path : Text}

end Paths

/-! ## Findings -/

section Walks

variable {F : Type} {format : FloatFormat F} {field : Text} {current : Pending} {walk : Walk}

end Walks

/-! ## Spellings -/

section Spellings

variable {F : Type} {format : FloatFormat F}

/-- Members may change places and be repeated, anywhere in a value; escapes
and white space are no part of it. -/
inductive Respelled : Value F → Value F → Prop
  | refl (v : Value F) : Respelled v v
  | trans {u v w : Value F} : Respelled u v → Respelled v w → Respelled u w
  | members {ms ns : List (Text × Value F)} : ms.Perm ns → Respelled (.obj ms) (.obj ns)
  | again {ms : List (Text × Value F)} {key : Text} (v : Value F) : key ∈ ms.map (·.1) →
      Respelled (.obj ms) (.obj ((key, v) :: ms))
  | element {v w : Value F} (front back : List (Value F)) : Respelled v w →
      Respelled (.arr (front ++ v :: back)) (.arr (front ++ w :: back))
  | member {v w : Value F} (front back : List (Text × Value F)) (key : Text) : Respelled v w →
      Respelled (.obj (front ++ (key, v) :: back)) (.obj (front ++ (key, w) :: back))

theorem mem_elementStrings {s : Text} {vs : List (Value F)} :
    s ∈ elementStrings vs ↔ ∃ v ∈ vs, s ∈ strings v := by
  induction vs with
  | nil => simp [elementStrings]
  | cons v vs ih => rw [elementStrings, List.mem_append, ih, List.exists_mem_cons_iff]

theorem mem_memberStrings {s : Text} {ms : List (Text × Value F)} :
    s ∈ memberStrings ms ↔ ∃ m ∈ ms, s = m.1 ∨ s ∈ strings m.2 := by
  induction ms with
  | nil => simp [memberStrings]
  | cons m ms ih =>
      rw [memberStrings, List.mem_cons, List.mem_append, ih, List.exists_mem_cons_iff, or_assoc]

theorem Respelled.subset {v w : Value F} (h : Respelled v w) : strings v ⊆ strings w := by
  induction h with
  | refl v => exact List.Subset.refl _
  | trans _ _ ih ih' => exact List.Subset.trans ih ih'
  | members hperm =>
      intro s hs
      obtain ⟨m, hm, hstring⟩ := mem_memberStrings.mp hs
      exact mem_memberStrings.mpr ⟨m, hperm.mem_iff.mp hm, hstring⟩
  | again v _ =>
      intro s hs
      obtain ⟨m, hm, hstring⟩ := mem_memberStrings.mp hs
      exact mem_memberStrings.mpr ⟨m, List.mem_cons_of_mem _ hm, hstring⟩
  | @element v w front back _ ih =>
      intro s hs
      obtain ⟨u, hu, hstring⟩ := mem_elementStrings.mp hs
      rw [List.mem_append, List.mem_cons] at hu
      refine mem_elementStrings.mpr ?_
      rcases hu with hu | rfl | hu
      · exact ⟨u, List.mem_append_left _ hu, hstring⟩
      · exact ⟨w, by simp, ih hstring⟩
      · exact ⟨u, by simp [hu], hstring⟩
  | @member v w front back key _ ih =>
      intro s hs
      obtain ⟨m, hm, hstring⟩ := mem_memberStrings.mp hs
      rw [List.mem_append, List.mem_cons] at hm
      refine mem_memberStrings.mpr ?_
      rcases hm with hm | rfl | hm
      · exact ⟨m, List.mem_append_left _ hm, hstring⟩
      · exact ⟨(key, w), by simp, hstring.imp id (fun hv => ih hv)⟩
      · exact ⟨m, by simp [hm], hstring⟩

end Spellings

/-! ### A member name that is reported -/

/-- `{"note":"AKIA0000000000000000"}`. -/
def sampleValue : Value { n : Nat // 0 < n } :=
  .obj [(text "note", .str (text "AKIA0000000000000000"))]

end Asimposium.Screening
