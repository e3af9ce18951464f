import Asimposium.Render.Projection

/-!
# JSON without markup

Printing a value adds no `<` to its texts, so contract data whose texts
hold none is printed without one.
-/

namespace Asimposium

open Text Json

/-! ## The texts of a value -/

mutual

def Json.texts : Json → List Text
  | .null => []
  | .bool _ => []
  | .num _ => []
  | .str t => [t]
  | .arr vs => textsOfElements vs
  | .obj ms => textsOfMembers ms

def Json.textsOfElements : List Json → List Text
  | [] => []
  | v :: vs => texts v ++ textsOfElements vs

def Json.textsOfMembers : List (Text × Json) → List Text
  | [] => []
  | (k, v) :: ms => k :: texts v ++ textsOfMembers ms

end

theorem Json.mem_textsOfMembers {t : Text} {ms : List (Text × Json)} :
    t ∈ textsOfMembers ms ↔ ∃ m ∈ ms, t = m.1 ∨ t ∈ texts m.2 := by
  induction ms with
  | nil => simp [textsOfMembers]
  | cons m ms ih => simp [textsOfMembers, ih, or_assoc]

mutual

theorem Json.texts_sorted {t : Text} (v : Json) (h : t ∈ texts (sorted v)) : t ∈ texts v := by
  match v with
  | .null => exact h
  | .bool b => exact h
  | .num n => exact h
  | .str s => exact h
  | .arr vs =>
      rw [sorted, texts] at h
      exact texts_sortedElements vs h
  | .obj ms =>
      rw [sorted, texts, mem_textsOfMembers] at h
      obtain ⟨m, hm, ht⟩ := h
      refine texts_sortedMembers ms (mem_textsOfMembers.mpr ⟨m, ?_, ht⟩)
      exact (List.perm_insertionSort ..).mem_iff.mp hm

theorem Json.texts_sortedElements {t : Text} (vs : List Json)
    (h : t ∈ textsOfElements (sortedElements vs)) : t ∈ textsOfElements vs := by
  match vs with
  | [] => exact h
  | v :: vs =>
      rw [sortedElements, textsOfElements, List.mem_append] at h
      rw [textsOfElements, List.mem_append]
      exact h.imp (texts_sorted v) (texts_sortedElements vs)

theorem Json.texts_sortedMembers {t : Text} (ms : List (Text × Json))
    (h : t ∈ textsOfMembers (sortedMembers ms)) : t ∈ textsOfMembers ms := by
  match ms with
  | [] => exact h
  | (k, v) :: ms =>
      rw [sortedMembers, textsOfMembers, List.cons_append, List.mem_cons, List.mem_append] at h
      rw [textsOfMembers, List.cons_append, List.mem_cons, List.mem_append]
      exact h.imp id (Or.imp (texts_sorted v) (texts_sortedMembers ms))

end

/-! ## What is printed -/

theorem lt_mem_escapeUnit {u : UInt16} (h : unit '<' ∈ escapeUnit u) : u = unit '<' := by
  have hdigit : ∀ n < 16, unit '<' ≠ unit (Nat.digitChar n) := by decide
  have hescape : unit '<' ∉ unicodeEscape u := by
    simp only [unicodeEscape, List.mem_append, List.mem_cons, List.not_mem_nil, or_false, not_or]
    exact ⟨by decide, hdigit _ (Nat.mod_lt _ (by decide)), hdigit _ (Nat.mod_lt _ (by decide)),
      hdigit _ (Nat.mod_lt _ (by decide)), hdigit _ (Nat.mod_lt _ (by decide))⟩
  unfold escapeUnit at h
  repeat' split at h
  all_goals first
    | exact absurd h (by decide)
    | exact absurd h hescape
    | exact (List.mem_singleton.mp h).symm

theorem lt_mem_quote {t : Text} (h : unit '<' ∈ quote t) : unit '<' ∈ t := by
  have hunits : unit '<' ∈ escapeUnits t := by
    simp only [quote, List.mem_cons, List.mem_append, List.not_mem_nil, or_false] at h
    rcases h with h | h | h
    · exact absurd h (by decide)
    · exact h
    · exact absurd h (by decide)
  clear h
  induction t using codePoints.induct with
  | case1 => exact hunits
  | case2 u =>
      rw [lt_mem_escapeUnit hunits]
      exact List.mem_cons_self ..
  | case3 u v rest hpair ih =>
      rw [escapeUnits, if_pos hpair, List.mem_cons, List.mem_cons] at hunits
      rw [List.mem_cons, List.mem_cons]
      exact hunits.imp id (Or.imp id ih)
  | case4 u v rest hpair ih =>
      rw [escapeUnits, if_neg hpair, List.mem_append] at hunits
      rcases hunits with hunits | hunits
      · rw [lt_mem_escapeUnit hunits]
        exact List.mem_cons_self ..
      · exact List.mem_cons_of_mem _ (ih hunits)

theorem lt_not_mem_newline (gap indent : Nat) : unit '<' ∉ newline gap indent := by
  unfold newline
  split
  · exact List.not_mem_nil
  · rw [List.mem_cons, List.mem_replicate, not_or]
    exact ⟨by decide, fun h => absurd h.2 (by decide)⟩

theorem lt_mem_keyText {gap : Nat} {key : Text} (h : unit '<' ∈ keyText gap key) :
    unit '<' ∈ key := by
  rw [keyText, List.mem_append] at h
  rcases h with h | h
  · exact lt_mem_quote h
  · split at h
    · exact absurd h (by decide)
    · exact absurd h (by decide)

theorem lt_not_mem_ofInt (n : Int) : unit '<' ∉ ofInt n := by
  have hdecimal : ∀ n, unit '<' ∉ decimal n := fun n h => absurd (decimal_digit h) (by decide)
  unfold ofInt
  split
  · rw [List.mem_cons, not_or]
    exact ⟨by decide, hdecimal _⟩
  · exact hdecimal _

/-- Some text holds a `<`. -/
def HoldsLt (texts : List Text) : Prop := ∃ t ∈ texts, unit '<' ∈ t

theorem HoldsLt.mono {texts texts' : List Text} (h : HoldsLt texts) (hsub : texts ⊆ texts') :
    HoldsLt texts' := by
  obtain ⟨t, ht, hmem⟩ := h
  exact ⟨t, hsub ht, hmem⟩

mutual

theorem Json.holdsLt_stringify (gap indent : Nat) (v : Json)
    (h : unit '<' ∈ stringify gap indent v) : HoldsLt (texts v) := by
  match v with
  | .null => rw [stringify] at h; exact absurd h (by decide)
  | .bool b => rw [stringify] at h; cases b <;> exact absurd h (by decide)
  | .num n => exact absurd h (lt_not_mem_ofInt n)
  | .str t => exact ⟨t, List.mem_singleton.mpr rfl, lt_mem_quote h⟩
  | .arr [] => rw [stringify] at h; exact absurd h (by decide)
  | .arr (v :: vs) =>
      simp only [stringify, List.mem_cons, List.mem_append, List.not_mem_nil, or_false,
        lt_not_mem_newline, false_or] at h
      rw [texts, textsOfElements]
      rcases h with h | (h | h) | h
      · exact absurd h (by decide)
      · exact (holdsLt_stringify _ _ v h).mono (List.subset_append_left ..)
      · exact (holdsLt_stringifyElements _ _ vs h).mono (List.subset_append_right ..)
      · exact absurd h (by decide)
  | .obj [] => rw [stringify] at h; exact absurd h (by decide)
  | .obj ((k, v) :: ms) =>
      simp only [stringify, List.mem_cons, List.mem_append, List.not_mem_nil, or_false,
        lt_not_mem_newline, false_or] at h
      rw [texts, textsOfMembers]
      rcases h with h | ((h | h) | h) | h
      · exact absurd h (by decide)
      · exact ⟨k, List.mem_cons_self .., lt_mem_keyText h⟩
      · exact (holdsLt_stringify _ _ v h).mono
          (List.subset_append_of_subset_left _ (List.subset_cons_self ..))
      · exact (holdsLt_stringifyMembers _ _ ms h).mono (List.subset_append_right ..)
      · exact absurd h (by decide)

theorem Json.holdsLt_stringifyElements (gap indent : Nat) (vs : List Json)
    (h : unit '<' ∈ stringifyElements gap indent vs) : HoldsLt (textsOfElements vs) := by
  match vs with
  | [] => rw [stringifyElements] at h; cases h
  | v :: vs =>
      simp only [stringifyElements, List.mem_cons, List.mem_append, lt_not_mem_newline,
        false_or] at h
      rw [textsOfElements]
      rcases h with h | h | h
      · exact absurd h (by decide)
      · exact (holdsLt_stringify _ _ v h).mono (List.subset_append_left ..)
      · exact (holdsLt_stringifyElements _ _ vs h).mono (List.subset_append_right ..)

theorem Json.holdsLt_stringifyMembers (gap indent : Nat) (ms : List (Text × Json))
    (h : unit '<' ∈ stringifyMembers gap indent ms) : HoldsLt (textsOfMembers ms) := by
  match ms with
  | [] => rw [stringifyMembers] at h; cases h
  | (k, v) :: ms =>
      simp only [stringifyMembers, List.mem_cons, List.mem_append, lt_not_mem_newline,
        false_or] at h
      rw [textsOfMembers]
      rcases h with h | (h | h) | h
      · exact absurd h (by decide)
      · exact ⟨k, List.mem_cons_self .., lt_mem_keyText h⟩
      · exact (holdsLt_stringify _ _ v h).mono
          (List.subset_append_of_subset_left _ (List.subset_cons_self ..))
      · exact (holdsLt_stringifyMembers _ _ ms h).mono (List.subset_append_right ..)

end

theorem lt_mem_stableStringify {v : Json} {indent : Nat}
    (h : unit '<' ∈ stableStringify v indent) : HoldsLt (Json.texts v) :=
  (Json.holdsLt_stringify indent 0 v.sorted h).mono fun _ => Json.texts_sorted v

/-- No text of the value holds a `<`. -/
def Json.Plain (v : Json) : Prop := ¬HoldsLt (texts v)

def PlainMembers (ms : List (Text × Json)) : Prop := ∀ m ∈ ms, unit '<' ∉ m.1 ∧ m.2.Plain

theorem PlainMembers.append {ms ms' : List (Text × Json)} (h : PlainMembers ms)
    (h' : PlainMembers ms') : PlainMembers (ms ++ ms') :=
  List.forall_mem_append.mpr ⟨h, h'⟩

theorem plain_obj {ms : List (Text × Json)} (h : PlainMembers ms) : (Json.obj ms).Plain := by
  rintro ⟨t, ht, hmem⟩
  rw [Json.texts, Json.mem_textsOfMembers] at ht
  obtain ⟨m, hm, rfl | ht⟩ := ht
  · exact (h m hm).1 hmem
  · exact (h m hm).2 ⟨t, ht, hmem⟩

theorem plain_str {t : Text} (h : unit '<' ∉ t) : (Json.str t).Plain := by
  rintro ⟨s, hs, hmem⟩
  rw [List.mem_singleton.mp hs] at hmem
  exact h hmem

theorem plain_num (n : Int) : (Json.num n).Plain := by
  rintro ⟨t, ht, -⟩
  cases ht

theorem plain_bool (b : Bool) : (Json.bool b).Plain := by
  rintro ⟨t, ht, -⟩
  cases ht

theorem plain_nullable (value : Option Int) : (nullable value).Plain := by
  cases value with
  | none => rintro ⟨t, ht, -⟩; cases ht
  | some n => exact plain_num n

theorem plain_member {key : String} {v : Json} (hkey : unit '<' ∉ text key) (hv : v.Plain) :
    PlainMembers (member key v) := by
  intro m hm
  rw [List.mem_singleton.mp hm]
  exact ⟨hkey, hv⟩

theorem plain_member? {key : String} {v : Option Json} (hkey : unit '<' ∉ text key)
    (hv : ∀ v' ∈ v, v'.Plain) : PlainMembers (member? key v) := by
  cases v with
  | none => exact List.forall_mem_nil _
  | some v => exact plain_member hkey (hv v rfl)

theorem plain_numbers {value : Option Int} : ∀ v ∈ value.map Json.num, v.Plain := by
  intro v hv
  obtain ⟨n, -, rfl⟩ := Option.map_eq_some_iff.mp hv
  exact plain_num n

/-! ## Contract data -/

theorem plain_claimState {state : PublicClaimState} (h : state.valid = true) :
    state.toJson.Plain := by
  have hid : unit '<' ∉ state.claimId := by
    simp only [PublicClaimState.valid, Bool.and_eq_true] at h
    have hclaim := h.1.1.1.1.1.1.1.1.1.1
    simp only [isClaimIdText, Bool.and_eq_true] at hclaim
    obtain ⟨⟨⟨hstart, -⟩, -⟩, hdigits⟩ := hclaim
    obtain ⟨tail, htail⟩ := List.isPrefixOf_iff_prefix.mp hstart
    rw [← htail] at hdigits ⊢
    rw [List.mem_append, not_or]
    refine ⟨by decide, fun hmem => ?_⟩
    exact absurd (List.all_eq_true.mp hdigits _ hmem) (by decide)
  refine plain_obj ?_
  repeat' apply PlainMembers.append
  · exact plain_member (by decide) (plain_str hid)
  · exact plain_member (by decide) (plain_num _)
  · exact plain_member (by decide) (plain_num _)
  · refine plain_member (by decide) (plain_str ?_)
    cases state.disposition <;> decide
  · refine plain_member (by decide) (plain_str ?_)
    cases state.reviewState <;> decide
  · refine plain_member (by decide) (plain_str ?_)
    cases state.directiveDisclosure <;> decide
  · exact plain_member (by decide) (plain_bool _)
  · exact plain_member (by decide) (plain_bool _)
  · exact plain_member (by decide) (plain_num _)
  · exact plain_member (by decide) (plain_bool _)
  · exact plain_member (by decide) (plain_num _)
  · refine plain_member? (by decide) fun v hv => ?_
    obtain ⟨novelty, -, rfl⟩ := Option.map_eq_some_iff.mp hv
    refine plain_str ?_
    cases novelty <;> decide

/-- A date and time that the schema library accepts holds no `<`. -/
def Renderer.PlainDates (renderer : Renderer) : Prop :=
  ∀ t, renderer.isOffsetDateTime t = true → unit '<' ∉ t

theorem plain_slowMode {renderer : Renderer} (hdates : renderer.PlainDates)
    {control : ProblemSlowModeBudget} (h : control.valid renderer = true) :
    control.toJson.Plain := by
  simp only [ProblemSlowModeBudget.valid, Bool.and_eq_true] at h
  obtain ⟨⟨⟨⟨hevent, -⟩, -⟩, hdate⟩, -⟩ := h
  have hid : unit '<' ∉ control.eventId := by
    simp only [isSlowModeEventId, Bool.and_eq_true] at hevent
    obtain ⟨⟨hstart, -⟩, hcharacters⟩ := hevent
    obtain ⟨tail, htail⟩ := List.isPrefixOf_iff_prefix.mp hstart
    rw [← htail] at hcharacters ⊢
    rw [List.mem_append, not_or]
    refine ⟨by decide, fun hmem => ?_⟩
    exact absurd (List.all_eq_true.mp hcharacters _ hmem) (by decide)
  refine plain_obj ?_
  repeat' apply PlainMembers.append
  · exact plain_member (by decide) (plain_str hid)
  · exact plain_member (by decide) (plain_num _)
  · exact plain_member (by decide) (plain_str (hdates _ hdate))

theorem plain_promotionBudget {renderer : Renderer} (hdates : renderer.PlainDates)
    {budget : RateLimitBudget} (h : budget.slowMode.all (·.valid renderer) = true) :
    budget.toJson.Plain := by
  have hnullable : ∀ {value : Option (Option Int)}, ∀ v ∈ value.map nullable, v.Plain := by
    intro value v hv
    obtain ⟨n, -, rfl⟩ := Option.map_eq_some_iff.mp hv
    exact plain_nullable n
  refine plain_obj ?_
  repeat' apply PlainMembers.append
  · exact plain_member (by decide) (plain_num _)
  · exact plain_member (by decide) (plain_num _)
  · exact plain_member (by decide) (plain_num _)
  · exact plain_member? (by decide) plain_numbers
  · exact plain_member? (by decide) hnullable
  · exact plain_member? (by decide) hnullable
  · refine plain_member? (by decide) fun v hv => ?_
    obtain ⟨control, hcontrol, rfl⟩ := Option.map_eq_some_iff.mp hv
    rw [hcontrol] at h
    exact plain_slowMode hdates h

end Asimposium
