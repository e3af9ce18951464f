import Asimposium.Codec.Canonical

/-!
# Values that are read

`JSON.parse` builds objects of distinct members, so what it returns is JSON
as soon as its numbers are finite, and a canonical text is only printed of
finite numbers.
-/

namespace Asimposium.Codec

variable {F : Type}

/-! ## Members by key -/

variable {ms : List (Text × Value F)} {v : Value F}

theorem mem_of_lookup {key : Text} (h : ms.lookup key = some v) : (key, v) ∈ ms := by
  obtain ⟨front, back, rfl, -⟩ := List.lookup_eq_some_iff.mp h
  exact List.mem_append_right front (List.mem_cons_self ..)

theorem lookup_of_mem (hnodup : (ms.map (·.1)).Nodup) {key : Text} (h : (key, v) ∈ ms) :
    ms.lookup key = some v := by
  obtain ⟨front, back, rfl⟩ := List.append_of_mem h
  refine List.lookup_eq_some_iff.mpr ⟨front, back, rfl, fun m hm => ?_⟩
  rw [List.map_append, List.map_cons, List.nodup_append] at hnodup
  exact bne_iff_ne.mpr (hnodup.2.2 m.1 (List.mem_map_of_mem hm) key (List.mem_cons_self ..)).symm

theorem Same.lookup {ns : List (Text × Value F)} (h : Same (.obj ms) (.obj ns))
    (hjson : (Value.obj ms).IsJson) (key : Text) (hv : ms.lookup key = some v) :
    ∃ w, ns.lookup key = some w ∧ Same v w := by
  have hns : (Value.obj ns).IsJson := h.normal.1.mp hjson
  have hnormal : byKey (normalMembers ms) = byKey (normalMembers ns) :=
    Value.obj.inj (h.normal.2 hjson)
  have hmem : (key, v.normal) ∈ normalMembers ns := by
    rw [← (perm_byKey _).mem_iff, ← hnormal, (perm_byKey _).mem_iff, normalMembers_eq]
    exact List.mem_map_of_mem (mem_of_lookup hv)
  rw [normalMembers_eq] at hmem
  obtain ⟨⟨k, w⟩, hw, heq⟩ := List.mem_map.mp hmem
  obtain ⟨rfl, hwv⟩ := Prod.mk.inj heq
  refine ⟨w, lookup_of_mem hns.1 hw, ?_⟩
  have hback := (same_normal w).symm
  rw [hwv] at hback
  exact (same_normal v).trans hback

/-! ## Objects of settled members -/

theorem setMember_keys (ms : List (Text × Value F)) (key : Text) (value : Value F) :
    (setMember ms key value).map (·.1)
      = if ms.any (·.1 == key) then ms.map (·.1) else ms.map (·.1) ++ [key] := by
  unfold setMember
  split
  · rw [List.map_map]
    refine List.map_congr_left fun m _ => ?_
    by_cases hkey : m.1 = key
    · simp [hkey]
    · simp [hkey]
  · rw [List.map_append]
    rfl

theorem mem_setMember {key : Text} {value : Value F} {m : Text × Value F}
    (h : m ∈ setMember ms key value) : m ∈ ms ∨ m.2 = value := by
  unfold setMember at h
  split at h
  · obtain ⟨n, hn, hm⟩ := List.mem_map.mp h
    split at hm
    · exact .inr (by rw [← hm])
    · exact .inl (hm ▸ hn)
  · rcases List.mem_append.mp h with h | h
    · exact .inl h
    · rw [List.mem_singleton.mp h]
      exact .inr rfl

theorem foldl_setMember_mem {built ms : List (Text × Value F)} (h : (built.map (·.1)).Nodup) :
    ((ms.foldl (fun built m => setMember built m.1 m.2) built).map (·.1)).Nodup
      ∧ ∀ m ∈ ms.foldl (fun built m => setMember built m.1 m.2) built,
        m ∈ built ∨ ∃ n ∈ ms, m.2 = n.2 := by
  induction ms generalizing built with
  | nil => exact ⟨h, fun m hm => .inl hm⟩
  | cons n ms ih =>
      have hnodup : ((setMember built n.1 n.2).map (·.1)).Nodup := by
        rw [setMember_keys]
        split
        · exact h
        · rename_i hnew
          refine List.nodup_append.mpr ⟨h, List.nodup_singleton _, ?_⟩
          intro key hkey key' hkey' heq
          rw [List.mem_singleton.mp hkey'] at heq
          obtain ⟨m, hm, rfl⟩ := List.mem_map.mp hkey
          exact hnew (List.any_eq_true.mpr ⟨m, hm, beq_iff_eq.mpr heq⟩)
      obtain ⟨hkeys, hmem⟩ := ih hnodup
      refine ⟨hkeys, fun m hm => ?_⟩
      rcases hmem m hm with hset | ⟨n', hn', hvalue⟩
      · rcases mem_setMember hset with hbuilt | hvalue
        · exact .inl hbuilt
        · exact .inr ⟨n, List.mem_cons_self .., hvalue⟩
      · exact .inr ⟨n', List.mem_cons_of_mem _ hn', hvalue⟩

theorem settleMembers_eq (ms : List (Text × Value F)) :
    settleMembers ms = ms.map fun m => (m.1, m.2.settle) := by
  induction ms with
  | nil => rfl
  | cons m ms ih => rw [settleMembers, ih, List.map_cons]

theorem settleElements_eq (vs : List (Value F)) : settleElements vs = vs.map Value.settle := by
  induction vs with
  | nil => rfl
  | cons v vs ih => rw [settleElements, ih, List.map_cons]

theorem settled_members {v : Value F} {ms : List (Text × Value F)} (h : v.settle = .obj ms) :
    (ms.map (·.1)).Nodup ∧ ∀ m ∈ ms, ∃ w : Value F, m.2 = w.settle := by
  cases v with
  | obj ns =>
      rw [Value.settle] at h
      obtain rfl := Value.obj.inj h
      obtain ⟨hkeys, hmem⟩ := @foldl_setMember_mem F [] (settleMembers ns) List.nodup_nil
      refine ⟨hkeys, fun m hm => ?_⟩
      rcases hmem m hm with hnil | ⟨n, hn, hvalue⟩
      · exact absurd hnil List.not_mem_nil
      · rw [settleMembers_eq] at hn
        obtain ⟨n', -, rfl⟩ := List.mem_map.mp hn
        exact ⟨n'.2, hvalue⟩
  | null | bool _ | num _ | str _ | arr _ | foreign => cases h

/-! ## Signs of zeros -/

mutual

theorem same_unsigned (v : Value F) : Same v v.unsigned := by
  match v with
  | .null => exact .refl _
  | .bool _ => exact .refl _
  | .num .nan => exact .refl _
  | .num (.infinity _) => exact .refl _
  | .num (.zero a) => exact .zero a false
  | .num (.finite _ _) => exact .refl _
  | .str _ => exact .refl _
  | .arr vs =>
      have helements := same_unsignedElements [] vs
      exact helements
  | .obj ms =>
      have hmembers := same_unsignedMembers [] ms
      exact hmembers
  | .foreign => exact .refl _

theorem same_unsignedElements (front vs : List (Value F)) :
    Same (.arr (front ++ vs)) (.arr (front ++ unsignedElements vs)) := by
  match vs with
  | [] => exact .refl _
  | v :: vs =>
      have hrest := same_unsignedElements (front ++ [v.unsigned]) vs
      rw [List.append_assoc, List.append_assoc] at hrest
      exact (Same.element front vs (same_unsigned v)).trans hrest

theorem same_unsignedMembers (front ms : List (Text × Value F)) :
    Same (.obj (front ++ ms)) (.obj (front ++ unsignedMembers ms)) := by
  match ms with
  | [] => exact .refl _
  | (k, v) :: ms =>
      have hrest := same_unsignedMembers (front ++ [(k, v.unsigned)]) ms
      rw [List.append_assoc, List.append_assoc] at hrest
      exact (Same.member front ms k (same_unsigned v)).trans hrest

end

theorem parseJson_stringify {format : FloatFormat F} (lawful : format.Lawful) (h : v.IsJson) :
    parseJson format (stringify format v) = some v.unsigned := by
  have hunsigned := (same_unsigned v).normal.1.mp h
  rw [parseJson, parseText_stringify lawful h, Option.map_some, settle_json hunsigned]

theorem same_of_normal_text {format : FloatFormat F} (lawful : format.Lawful) {w : Value F}
    (hv : v.IsJson) (hw : w.IsJson) (h : stringify format v.normal = stringify format w.normal) :
    Same v w := by
  have hread := parseJson_stringify lawful (isJson_normal hv)
  rw [h, parseJson_stringify lawful (isJson_normal hw), normal_unsigned, normal_unsigned] at hread
  have hback := same_normal w
  rw [Option.some.inj hread] at hback
  exact (same_normal v).trans hback.symm

/-! ## What is printed is finite -/

section Finite

variable {format : FloatFormat F}

theorem canonicalMembers_eq (ms : List (Text × Value F)) :
    canonicalMembers format ms = ms.map fun m => (m.1, canonicalJson format m.2) := by
  induction ms with
  | nil => rfl
  | cons m ms ih => rw [canonicalMembers, ih, List.map_cons]

theorem canonicalElements_mem {vs : List (Value F)} {parts : List Text}
    (h : canonicalElements format vs = .ok parts) :
    ∀ v ∈ vs, ∃ part, canonicalJson format v = .ok part := by
  induction vs generalizing parts with
  | nil => exact fun _ hv => absurd hv List.not_mem_nil
  | cons v vs ih =>
      rw [canonicalElements] at h
      obtain ⟨part, hpart, hrest⟩ := ExceptRun.bind_ok.mp h
      obtain ⟨later, hlater, -⟩ := ExceptRun.map_ok.mp hrest
      exact List.forall_mem_cons.mpr ⟨⟨part, hpart⟩, ih hlater⟩

theorem canonicalObject_mem {members : List (Text × Except String Text)} {t : Text}
    (h : canonicalObject members = .ok t) : ∀ m ∈ members, ∃ part, m.2 = .ok part := by
  obtain ⟨parts, hparts, -⟩ := ExceptRun.map_ok.mp h
  intro m hm
  rw [← (List.perm_insertionSort (fun left right => Text.le left.1 right.1 = true) members).mem_iff]
    at hm
  obtain ⟨i, hi, rfl⟩ := List.getElem_of_mem hm
  have hall := ExceptRun.mapM_ok.mp hparts
  have hpart := hall.get hi (hall.length_eq ▸ hi)
  obtain ⟨part, hpart, -⟩ := ExceptRun.map_ok.mp hpart
  exact ⟨part, hpart⟩

theorem canonicalJson_members {ms : List (Text × Value F)} {t : Text}
    (h : canonicalJson format (.obj ms) = .ok t) :
    ∀ m ∈ ms, ∃ part, canonicalJson format m.2 = .ok part := by
  rw [canonicalJson, canonicalMembers_eq] at h
  intro m hm
  exact canonicalObject_mem h _ (List.mem_map_of_mem hm)

mutual

theorem canonicalJson_settled (v : Value F) :
    ∀ {t : Text}, canonicalJson format v.settle = .ok t → v.settle.IsJson := by
  intro t h
  match v with
  | .null => trivial
  | .bool _ => trivial
  | .num x =>
      show x.isFinite = true
      by_contra hfinite
      have hthrows : canonicalJson format (.num x)
          = .error "canonical JSON numbers must be finite." := if_neg hfinite
      exact absurd (hthrows.symm.trans h) (by simp)
  | .str _ => trivial
  | .arr vs =>
      rw [Value.settle, canonicalJson] at h
      obtain ⟨parts, hparts, -⟩ := ExceptRun.map_ok.mp h
      rw [Value.settle, Value.IsJson, elementsJson_iff]
      rw [settleElements_eq] at hparts ⊢
      intro w hw
      obtain ⟨part, hpart⟩ := canonicalElements_mem hparts w hw
      obtain ⟨v, hv, rfl⟩ := List.mem_map.mp hw
      exact canonicalElements_settled vs v hv hpart
  | .obj ms =>
      have hkeys := (@settled_members F (.obj ms) _ rfl).1
      refine ⟨hkeys, membersJson_iff.mpr fun m hm => ?_⟩
      obtain ⟨part, hpart⟩ := canonicalJson_members h m hm
      rcases (@foldl_setMember_mem F [] (settleMembers ms) List.nodup_nil).2 m hm with hnil | hvalue
      · exact absurd hnil List.not_mem_nil
      · obtain ⟨n, hn, hvalue⟩ := hvalue
        rw [settleMembers_eq] at hn
        obtain ⟨n', hn', rfl⟩ := List.mem_map.mp hn
        rw [hvalue] at hpart ⊢
        exact canonicalMembers_settled ms n' hn' hpart
  | .foreign => cases h

theorem canonicalElements_settled (vs : List (Value F)) :
    ∀ v ∈ vs, ∀ {t : Text}, canonicalJson format v.settle = .ok t → v.settle.IsJson := by
  match vs with
  | [] => exact fun _ hv => absurd hv List.not_mem_nil
  | v :: vs =>
      intro w hw t h
      rcases List.mem_cons.mp hw with heq | hw
      · rw [heq] at h ⊢
        exact canonicalJson_settled v h
      · exact canonicalElements_settled vs w hw h

theorem canonicalMembers_settled (ms : List (Text × Value F)) :
    ∀ m ∈ ms, ∀ {t : Text}, canonicalJson format m.2.settle = .ok t → m.2.settle.IsJson := by
  match ms with
  | [] => exact fun _ hm => absurd hm List.not_mem_nil
  | (k, v) :: ms =>
      intro m hm t h
      rcases List.mem_cons.mp hm with heq | hm
      · rw [heq] at h ⊢
        exact canonicalJson_settled v h
      · exact canonicalMembers_settled ms m hm h

end

end Finite

end Asimposium.Codec
