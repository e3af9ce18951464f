import Asimposium.Lib.ExceptRun
import Asimposium.Lib.Grouping
import Asimposium.Codec.Reading

/-!
# The canonical text is a canonical form

Two JSON values have one canonical text exactly when they are equal up to the
order of their members and the signs of their zeros, and the text parses back
to a value that is equal to them in this sense.
-/

namespace Asimposium.Codec

variable {F : Type}

/-! ## Equality up to order -/

/-- Members may change places, and zeros their signs, anywhere in a value. -/
inductive Same : Value F → Value F → Prop
  | refl (v : Value F) : Same v v
  | symm {v w : Value F} : Same v w → Same w v
  | trans {u v w : Value F} : Same u v → Same v w → Same u w
  | zero (a b : Bool) : Same (.num (.zero a)) (.num (.zero b))
  | members {ms ns : List (Text × Value F)} : ms.Perm ns → Same (.obj ms) (.obj ns)
  | element {v w : Value F} (front back : List (Value F)) : Same v w →
      Same (.arr (front ++ v :: back)) (.arr (front ++ w :: back))
  | member {v w : Value F} (front back : List (Text × Value F)) (key : Text) : Same v w →
      Same (.obj (front ++ (key, v) :: back)) (.obj (front ++ (key, w) :: back))

/-! ## Values by their parts -/

theorem elementsJson_iff {vs : List (Value F)} : ElementsJson vs ↔ ∀ v ∈ vs, v.IsJson := by
  induction vs with
  | nil => simp [ElementsJson]
  | cons v vs ih => rw [ElementsJson, ih, List.forall_mem_cons]

theorem membersJson_iff {ms : List (Text × Value F)} :
    MembersJson ms ↔ ∀ m ∈ ms, m.2.IsJson := by
  induction ms with
  | nil => simp [MembersJson]
  | cons m ms ih => rw [MembersJson, ih, List.forall_mem_cons]

theorem unsignedElements_eq (vs : List (Value F)) :
    unsignedElements vs = vs.map Value.unsigned := by
  induction vs with
  | nil => rfl
  | cons v vs ih => rw [unsignedElements, ih, List.map_cons]

theorem unsignedMembers_eq (ms : List (Text × Value F)) :
    unsignedMembers ms = ms.map fun m => (m.1, m.2.unsigned) := by
  induction ms with
  | nil => rfl
  | cons m ms ih => rw [unsignedMembers, ih, List.map_cons]

/-! ## Normal forms -/

def byKey (ms : List (Text × Value F)) : List (Text × Value F) :=
  ms.insertionSort fun left right => Text.le left.1 right.1 = true

mutual

def Value.normal : Value F → Value F
  | .num x => .num x.unsigned
  | .arr vs => .arr (normalElements vs)
  | .obj ms => .obj (byKey (normalMembers ms))
  | v => v

def normalElements : List (Value F) → List (Value F)
  | [] => []
  | v :: vs => v.normal :: normalElements vs

def normalMembers : List (Text × Value F) → List (Text × Value F)
  | [] => []
  | (k, v) :: ms => (k, v.normal) :: normalMembers ms

end

theorem normalElements_eq (vs : List (Value F)) : normalElements vs = vs.map Value.normal := by
  induction vs with
  | nil => rfl
  | cons v vs ih => rw [normalElements, ih, List.map_cons]

theorem normalMembers_eq (ms : List (Text × Value F)) :
    normalMembers ms = ms.map fun m => (m.1, m.2.normal) := by
  induction ms with
  | nil => rfl
  | cons m ms ih => rw [normalMembers, ih, List.map_cons]

theorem perm_byKey (ms : List (Text × Value F)) : (byKey ms).Perm ms :=
  List.perm_insertionSort _ ms

theorem byKey_perm {ms ns : List (Text × Value F)} (h : ms.Perm ns)
    (hnodup : (ms.map (·.1)).Nodup) : byKey ms = byKey ns := by
  have hcompares : KeyedSort.Compares
      (fun (left right : Text × Value F) => Text.le left.1 right.1) fun m => textKey m.1 :=
    fun left right => le_iff_textKey left.1 right.1
  have hperm : (byKey ms).Perm (byKey ns) :=
    (perm_byKey ms).trans (h.trans (perm_byKey ns).symm)
  refine KeyedSort.eq_of_perm hperm ?_ (KeyedSort.pairwise_insertionSort hcompares ms)
    (KeyedSort.pairwise_insertionSort hcompares ns)
  intro m hm n hn hkey
  exact List.inj_on_of_nodup_map hnodup ((perm_byKey ms).mem_iff.mp hm)
    ((perm_byKey ms).mem_iff.mp hn) (textKey_injective hkey)

mutual

theorem same_normal (v : Value F) : Same v v.normal := by
  match v with
  | .null => exact .refl _
  | .bool _ => exact .refl _
  | .num .nan => exact .refl _
  | .num (.infinity _) => exact .refl _
  | .num (.zero a) => exact .zero a false
  | .num (.finite _ _) => exact .refl _
  | .str _ => exact .refl _
  | .arr vs =>
      have helements := same_elements [] vs
      exact helements
  | .obj ms =>
      have hmembers := same_members [] ms
      exact hmembers.trans (.members (perm_byKey _).symm)
  | .foreign => exact .refl _

theorem same_elements (front vs : List (Value F)) :
    Same (.arr (front ++ vs)) (.arr (front ++ normalElements vs)) := by
  match vs with
  | [] => exact .refl _
  | v :: vs =>
      have hrest := same_elements (front ++ [v.normal]) vs
      rw [List.append_assoc, List.append_assoc] at hrest
      exact (Same.element front vs (same_normal v)).trans hrest

theorem same_members (front ms : List (Text × Value F)) :
    Same (.obj (front ++ ms)) (.obj (front ++ normalMembers ms)) := by
  match ms with
  | [] => exact .refl _
  | (k, v) :: ms =>
      have hrest := same_members (front ++ [(k, v.normal)]) ms
      rw [List.append_assoc, List.append_assoc] at hrest
      exact (Same.member front ms k (same_normal v)).trans hrest

end

theorem keys_normalMembers (ms : List (Text × Value F)) :
    (ms.map fun m => (m.1, m.2.normal)).map (·.1) = ms.map (·.1) := by
  rw [List.map_map]
  rfl

theorem Same.normal {v w : Value F} (h : Same v w) :
    (v.IsJson ↔ w.IsJson) ∧ (v.IsJson → v.normal = w.normal) := by
  induction h with
  | refl v => exact ⟨Iff.rfl, fun _ => rfl⟩
  | symm _ ih => exact ⟨ih.1.symm, fun hw => (ih.2 (ih.1.mpr hw)).symm⟩
  | trans _ _ ih ih' =>
      exact ⟨ih.1.trans ih'.1, fun hu => (ih.2 hu).trans (ih'.2 (ih.1.mp hu))⟩
  | zero a b => exact ⟨Iff.rfl, fun _ => rfl⟩
  | @members ms ns hperm =>
      constructor
      · rw [Value.IsJson, Value.IsJson, membersJson_iff, membersJson_iff,
          (hperm.map (·.1)).nodup_iff]
        exact and_congr_right fun _ => ⟨fun h m hm => h m (hperm.mem_iff.mpr hm),
          fun h m hm => h m (hperm.mem_iff.mp hm)⟩
      · intro hjson
        rw [Value.normal, Value.normal, normalMembers_eq, normalMembers_eq]
        refine congrArg Value.obj (byKey_perm (hperm.map _) ?_)
        rw [keys_normalMembers]
        exact hjson.1
  | @element v w front back _ ih =>
      constructor
      · simp only [Value.IsJson, elementsJson_iff, List.forall_mem_append, List.forall_mem_cons,
          ih.1]
      · intro hjson
        have hv : v.IsJson := elementsJson_iff.mp hjson v (by simp)
        simp only [Value.normal, normalElements_eq, List.map_append, List.map_cons, ih.2 hv]
  | @member v w front back key _ ih =>
      constructor
      · simp only [Value.IsJson, membersJson_iff, List.forall_mem_append, List.forall_mem_cons,
          ih.1, List.map_append, List.map_cons]
      · intro hjson
        have hv : v.IsJson := membersJson_iff.mp hjson.2 (key, v) (by simp)
        simp only [Value.normal, normalMembers_eq, List.map_append, List.map_cons, ih.2 hv]

section Texts

variable {format : FloatFormat F}

theorem memberTexts_eq (ms : List (Text × Value F)) :
    memberTexts format ms = ms.map fun m => memberText m.1 (stringify format m.2) := by
  induction ms with
  | nil => rfl
  | cons m ms ih => rw [memberTexts, ih, List.map_cons]

theorem toText_unsigned (x : Number F) : x.unsigned.toText format = x.toText format := by
  cases x <;> rfl

def printed (format : FloatFormat F) (m : Text × Value F) : Text × Except String Text :=
  (m.1, .ok (stringify format m.2))

theorem canonicalObject_ok (ms : List (Text × Value F)) :
    canonicalObject (ms.map (printed format)) = .ok (stringify format (.obj (byKey ms))) := by
  have hsort : (ms.map (printed format)).insertionSort
        (fun left right => Text.le left.1 right.1 = true)
      = (byKey ms).map (printed format) :=
    (List.map_insertionSort (fun (left right : Text × Value F) => Text.le left.1 right.1 = true)
      _ (printed format) ms fun _ _ _ _ => Iff.rfl).symm
  have hparts : ((byKey ms).map (printed format)).mapM canonicalMember
      = .ok (memberTexts format (byKey ms)) := by
    rw [ExceptRun.mapM_ok, memberTexts_eq, List.forall₂_map_left_iff, List.forall₂_map_right_iff]
    exact List.forall₂_same.mpr fun m _ => rfl
  rw [canonicalObject, hsort, hparts]
  rfl

mutual

theorem canonicalJson_ok {v : Value F} (h : v.IsJson) :
    canonicalJson format v = .ok (stringify format v.normal) := by
  match v with
  | .null => rfl
  | .bool _ => rfl
  | .num x =>
      have hx : x.isFinite = true := h
      rw [canonicalJson, if_pos hx, Value.normal, stringify, toText_unsigned]
  | .str _ => rfl
  | .arr vs =>
      rw [canonicalJson, canonicalElements_ok h]
      rfl
  | .obj ms =>
      rw [canonicalJson, canonicalMembers_ok h.2, canonicalObject_ok, Value.normal]

theorem canonicalElements_ok {vs : List (Value F)} (h : ElementsJson vs) :
    canonicalElements format vs = .ok (elementTexts format (normalElements vs)) := by
  match vs with
  | [] => rfl
  | v :: vs =>
      rw [canonicalElements, canonicalJson_ok h.1, canonicalElements_ok h.2]
      rfl

theorem canonicalMembers_ok {ms : List (Text × Value F)} (h : MembersJson ms) :
    canonicalMembers format ms = (normalMembers ms).map (printed format) := by
  match ms with
  | [] => rfl
  | (k, v) :: ms =>
      rw [canonicalMembers, canonicalJson_ok h.1, canonicalMembers_ok h.2]
      rfl

end

end Texts

/-! ## Reading normal forms -/

mutual

theorem normal_unsigned (v : Value F) : v.normal.unsigned = v.normal := by
  match v with
  | .null => rfl
  | .bool _ => rfl
  | .num x => cases x <;> rfl
  | .str _ => rfl
  | .arr vs => rw [Value.normal, Value.unsigned, normalElements_unsigned vs]
  | .obj ms =>
      have hperm : ∀ m ∈ byKey (normalMembers ms), (m.1, m.2.unsigned) = m := by
        intro m hm
        exact normalMembers_unsigned ms m ((perm_byKey _).mem_iff.mp hm)
      rw [Value.normal, Value.unsigned, unsignedMembers_eq]
      exact congrArg Value.obj ((List.map_congr_left hperm).trans (List.map_id _))
  | .foreign => rfl

theorem normalElements_unsigned (vs : List (Value F)) :
    unsignedElements (normalElements vs) = normalElements vs := by
  match vs with
  | [] => rfl
  | v :: vs => rw [normalElements, unsignedElements, normal_unsigned v, normalElements_unsigned vs]

theorem normalMembers_unsigned (ms : List (Text × Value F)) :
    ∀ m ∈ normalMembers ms, (m.1, m.2.unsigned) = m := by
  match ms with
  | [] => exact fun _ h => absurd h List.not_mem_nil
  | (k, v) :: ms =>
      rw [normalMembers, List.forall_mem_cons, normal_unsigned v]
      exact ⟨rfl, normalMembers_unsigned ms⟩

end

theorem setMember_new {ms : List (Text × Value F)} {key : Text} (h : key ∉ ms.map (·.1))
    (value : Value F) : setMember ms key value = ms ++ [(key, value)] := by
  refine if_neg ?_
  rw [List.any_eq_true]
  rintro ⟨m, hm, hkey⟩
  exact h (List.mem_map.mpr ⟨m, hm, beq_iff_eq.mp hkey⟩)

theorem foldl_setMember {built ms : List (Text × Value F)}
    (h : ((built ++ ms).map (·.1)).Nodup) :
    ms.foldl (fun built m => setMember built m.1 m.2) built = built ++ ms := by
  induction ms generalizing built with
  | nil => rw [List.foldl_nil, List.append_nil]
  | cons m ms ih =>
      have hassoc : built ++ m :: ms = built ++ [m] ++ ms := by simp
      have hnew : m.1 ∉ built.map (·.1) := by
        rw [List.map_append, List.map_cons, List.nodup_append] at h
        intro hmem
        exact h.2.2 m.1 hmem m.1 (List.mem_cons_self ..) rfl
      rw [List.foldl_cons, setMember_new hnew, hassoc]
      rw [hassoc] at h
      exact ih h

mutual

theorem settle_json {v : Value F} (h : v.IsJson) : v.settle = v := by
  match v with
  | .null => rfl
  | .bool _ => rfl
  | .num _ => rfl
  | .str _ => rfl
  | .arr vs => rw [Value.settle, settleElements_json h]
  | .obj ms =>
      rw [Value.settle, settleMembers_json h.2]
      exact congrArg Value.obj (@foldl_setMember F [] ms h.1)

theorem settleElements_json {vs : List (Value F)} (h : ElementsJson vs) :
    settleElements vs = vs := by
  match vs with
  | [] => rfl
  | v :: vs => rw [settleElements, settle_json h.1, settleElements_json h.2]

theorem settleMembers_json {ms : List (Text × Value F)} (h : MembersJson ms) :
    settleMembers ms = ms := by
  match ms with
  | [] => rfl
  | (k, v) :: ms => rw [settleMembers, settle_json h.1, settleMembers_json h.2]

end

theorem isJson_normal {v : Value F} (h : v.IsJson) : v.normal.IsJson :=
  (same_normal v).normal.1.mp h

/-! ## The canonical form -/

/-- One canonical text means equal up to order, and the text parses back to an
equal value. -/
theorem canonicalJson_canonical {format : FloatFormat F} (lawful : format.Lawful)
    (a b : JsonValue F) :
    (canonicalJson format a.1 = canonicalJson format b.1 ↔ Same a.1 b.1)
      ∧ ∃ t c, canonicalJson format a.1 = .ok t ∧ parseJson format t = some c ∧ Same a.1 c := by
  have hparse : ∀ v : JsonValue F,
      parseJson format (stringify format v.1.normal) = some v.1.normal := by
    intro v
    have hnormal := isJson_normal v.2
    rw [parseJson, parseText_stringify lawful hnormal, Option.map_some, normal_unsigned,
      settle_json hnormal]
  have htext : ∀ v : JsonValue F, canonicalJson format v.1 = .ok (stringify format v.1.normal) :=
    fun v => canonicalJson_ok v.2
  refine ⟨⟨?_, ?_⟩, _, _, htext a, hparse a, same_normal a.1⟩
  · intro h
    rw [htext, htext] at h
    have hread := hparse a
    rw [Except.ok.inj h, hparse b] at hread
    have hback := same_normal b.1
    rw [Option.some.inj hread] at hback
    exact (same_normal a.1).trans hback.symm
  · intro h
    rw [htext, htext, h.normal.2 a.2]

/-! ## Integers -/

def integers : FloatFormat { n : Nat // 0 < n } where
  shortest n := { significand := n.1, point := Text.width n.1, pos := n.2 }
  round q := if h : q.den = 1 ∧ 0 < q.num.toNat then .finite ⟨q.num.toNat, h.2⟩ else .zero

theorem integers_lawful : integers.Lawful := by
  rintro ⟨n, hn⟩
  have hvalue : (integers.shortest ⟨n, hn⟩).value = (n : ℚ) := by
    have hzero : (Text.width n : Int) - (Text.decimal n).length = 0 := Int.sub_self _
    simp [Decimal.value, integers, Decimal.digits, hzero]
  rw [hvalue]
  exact dif_pos ⟨Rat.den_natCast n, by rw [Rat.num_natCast, Int.toNat_natCast]; exact hn⟩

/-- `{"b":[1],"a":-0}` and `{"a":0,"b":[1]}`. -/
def sampleValue : JsonValue { n : Nat // 0 < n } :=
  ⟨.obj [(text "b", .arr [.num (.finite false ⟨1, by decide⟩)]), (text "a", .num (.zero true))],
    by decide, ⟨rfl, trivial⟩, rfl, trivial⟩

def sampleOrdered : JsonValue { n : Nat // 0 < n } :=
  ⟨.obj [(text "a", .num (.zero false)), (text "b", .arr [.num (.finite false ⟨1, by decide⟩)])],
    by decide, rfl, ⟨rfl, trivial⟩, trivial⟩

theorem canonicalJson_sample :
    (canonicalJson integers sampleValue.1 = canonicalJson integers sampleOrdered.1
        ↔ Same sampleValue.1 sampleOrdered.1)
      ∧ ∃ t c, canonicalJson integers sampleValue.1 = .ok t ∧ parseJson integers t = some c
        ∧ Same sampleValue.1 c :=
  canonicalJson_canonical integers_lawful sampleValue sampleOrdered

end Asimposium.Codec
