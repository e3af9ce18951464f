import Mathlib
import Asimposium.Hypotheses.Damage
import Asimposium.Lib.Paging

/-!
# Following the list

The pages at one captured cursor are cut from one list of rows, whatever was
appended meanwhile: events after the cursor are out of its scope. Each page is
a front of the rows after a sequence number, cut by count before its bodies
are decoded and by bytes after, and continues after the last row it kept.
-/

namespace Asimposium.Hypotheses.Listing

variable {V C K L : Type} {π : Platform V C K L}

/-! ## The rows at a cursor -/

structure Grows (db db' : Db) : Prop where
  problemId : db'.problemId = db.problemId
  publicSeq : db.publicSeq ≤ db'.publicSeq
  events : ∃ added, db'.events = db.events ++ added ∧ ∀ e ∈ added, db.publicSeq < e.seq

def scopeAt (db : Db) (cursor : Int) : List Event := db.events.filter fun e => (e.seq : Int) ≤ cursor

def rowsAt (scope : List Event) : List PageRow := (admissions scope).filterMap (pageRow scope)

variable {db : Db} {cursor : Int}

theorem Grows.scopeAt {db' : Db} (h : Grows db db') (hcursor : cursor ≤ db.publicSeq) :
    Listing.scopeAt db' cursor = Listing.scopeAt db cursor := by
  obtain ⟨added, hadded, hlater⟩ := h.events
  rw [Listing.scopeAt, Listing.scopeAt, hadded, List.filter_append]
  have hnone : added.filter (fun e => (e.seq : Int) ≤ cursor) = [] := by
    rw [List.filter_eq_nil_iff]
    intro e he
    have hlt := hlater e he
    rw [decide_eq_true_eq]
    omega
  rw [hnone, List.append_nil]

section Scope

variable {scope : List Event}

theorem mem_admissions {e : Event} : e ∈ admissions scope ↔ e ∈ scope ∧ isAdmission e = true
    ∧ ∀ d ∈ scope, isAdmission d = true → d.objectId = e.objectId → e.seq ≤ d.seq := by
  rw [admissions, List.mem_filter, Bool.and_eq_true, Bool.not_eq_true', List.any_eq_false]
  simp only [Bool.and_eq_true, beq_iff_eq, decide_eq_true_eq, not_and, Nat.not_lt, and_imp]

theorem isAdmission_iff {e : Event} :
    isAdmission e = true ↔ e.objectKind = .hypothesis ∧ e.type = .created := by
  rw [isAdmission, Bool.and_eq_true, beq_iff_eq, beq_iff_eq]

theorem exists_admission {e : Event} (he : e ∈ scope) (hadmission : isAdmission e = true) :
    ∃ first ∈ admissions scope, first.objectId = e.objectId := by
  induction hseq : e.seq using Nat.strongRecOn generalizing e with
  | ind n ih =>
      by_cases hfirst : ∀ d ∈ scope, isAdmission d = true → d.objectId = e.objectId → e.seq ≤ d.seq
      · exact ⟨e, mem_admissions.mpr ⟨he, hadmission, hfirst⟩, rfl⟩
      · push Not at hfirst
        obtain ⟨d, hd, hadmission', hobject, hlt⟩ := hfirst
        obtain ⟨first, hfirst, hsame⟩ := ih d.seq (hseq ▸ hlt) hd hadmission' rfl
        exact ⟨first, hfirst, hsame.trans hobject⟩

variable (hascending : scope.Pairwise fun a b => a.seq < b.seq)

include hascending

theorem admissions_distinct : (admissions scope).Pairwise fun a b =>
    a.seq < b.seq ∧ a.objectId ≠ b.objectId := by
  have hordered : (admissions scope).Pairwise fun a b => a.seq < b.seq := hascending.filter _
  refine (List.Pairwise.and_mem.mp hordered).imp ?_
  rintro a b ⟨ha, hb, hlt⟩
  refine ⟨hlt, fun hsame => ?_⟩
  have hle := (mem_admissions.mp hb).2.2 a (mem_admissions.mp ha).1 (mem_admissions.mp ha).2.1 hsame
  omega

theorem seq_le_head {r : PageRow} {creation : Event} (hcreation : creation ∈ admissions scope)
    (hrow : pageRow scope creation = some r) : creation.seq ≤ r.head.seq := by
  obtain ⟨hmem, hadmission, _⟩ := mem_admissions.mp hcreation
  have hin : creation ∈ history scope creation.objectId := by
    rw [history, List.mem_filter, (isAdmission_iff.mp hadmission).1]
    exact ⟨hmem, by simp⟩
  obtain ⟨init, hinit⟩ := List.getLast?_eq_some_iff.mp (pageRow_some hrow).2.2
  have hordered : (history scope creation.objectId).Pairwise fun a b => a.seq < b.seq :=
    hascending.filter _
  rw [hinit] at hin hordered
  rcases List.mem_append.mp hin with hbefore | hself
  · exact ((List.pairwise_append.mp hordered).2.2 _ hbefore _ (List.mem_singleton.mpr rfl)).le
  · rw [List.mem_singleton.mp hself]

end Scope

theorem pageRow_isSome {scope : List Event} {creation : Event}
    (h : creation ∈ admissions scope) : ∃ r, pageRow scope creation = some r := by
  obtain ⟨hmem, hadmission, _⟩ := mem_admissions.mp h
  have hin : creation ∈ history scope creation.objectId := by
    rw [history, List.mem_filter, (isAdmission_iff.mp hadmission).1]
    exact ⟨hmem, by simp⟩
  cases hlast : (history scope creation.objectId).getLast? with
  | none =>
      rw [List.getLast?_eq_none_iff.mp hlast] at hin
      cases hin
  | some head => exact ⟨_, by rw [pageRow, hlast]; rfl⟩

theorem rowsAt_creation (scope : List Event) :
    (rowsAt scope).map (·.creation) = admissions scope := by
  have hall : ∀ l : List Event, (∀ e ∈ l, e ∈ admissions scope) →
      (l.filterMap (pageRow scope)).map (·.creation) = l := by
    intro l hl
    induction l with
    | nil => rfl
    | cons e l ih =>
        rw [List.forall_mem_cons] at hl
        obtain ⟨r, hr⟩ := pageRow_isSome hl.1
        rw [List.filterMap_cons_some hr, List.map_cons, ih hl.2, (pageRow_some hr).2.1]
  exact hall _ fun _ he => he

theorem mem_rowsAt {scope : List Event} {r : PageRow} (h : r ∈ rowsAt scope) :
    r.creation ∈ admissions scope ∧ pageRow scope r.creation = some r
      ∧ r.hypothesisId = r.creation.objectId := by
  obtain ⟨creation, hcreation, hrow⟩ := List.mem_filterMap.mp h
  obtain ⟨hid, rfl, _⟩ := pageRow_some hrow
  exact ⟨hcreation, hrow, hid⟩

theorem rowsAt_distinct {scope : List Event}
    (hascending : scope.Pairwise fun a b => a.seq < b.seq) :
    (rowsAt scope).Pairwise fun a b =>
      a.creation.seq < b.creation.seq ∧ a.hypothesisId ≠ b.hypothesisId := by
  have hmapped := admissions_distinct hascending
  rw [← rowsAt_creation, List.pairwise_map] at hmapped
  refine (List.Pairwise.and_mem.mp hmapped).imp ?_
  rintro a b ⟨ha, hb, hlt, hne⟩
  refine ⟨hlt, ?_⟩
  rw [(mem_rowsAt ha).2.2, (mem_rowsAt hb).2.2]
  exact hne

/-! ## One page -/

/-- What names a hypothesis in a list: its id and the number of its creation. -/
def PublicHypothesis.key (item : PublicHypothesis C K L) : Text × Nat :=
  (item.hypothesisId, item.publication.seq)

def PageRow.key (r : PageRow) : Text × Nat := (r.hypothesisId, r.creation.seq)

theorem envelope_seq {e : Event} {env : Envelope} (h : envelope π e = some env) :
    env.seq = e.seq := by
  unfold envelope at h
  split at h
  · cases h; rfl
  · cases h

theorem checkRows_key {target : Option Text} {rows : List PageRow} {ids : List Text}
    {previous : Int} {checked : List (PageRow × Envelope × Envelope)}
    (h : checkRows π cursor target ids previous rows = .ok checked) :
    ∀ t ∈ checked, t.2.1.seq = t.1.creation.seq := by
  induction rows generalizing ids previous checked with
  | nil =>
      intro t ht
      rw [checkRows] at h
      cases h
      cases ht
  | cons r rows ih =>
      rw [checkRows] at h
      split at h
      · cases h
      split at h
      · rename_i publication last hpublication _
        split at h
        · cases h
        obtain ⟨rest, hrest, rfl⟩ := ExceptRun.map_ok.mp h
        exact List.forall_mem_cons.mpr ⟨envelope_seq hpublication, ih hrest⟩
      · cases h

def Selection.isList (selection : Selection) : Prop :=
  selection.target = none ∧ selection.liveOnly ≠ some true ∧ selection.killedOnly ≠ some true

variable {after : Int}

theorem page_list {limit : Int} {selection : Selection} (hlist : selection.isList)
    (hserved : db.isServed = true) (hcursor : cursor ≤ db.publicSeq) :
    page db cursor after limit selection
      = ((rowsAt (scopeAt db cursor)).filter fun r => after < r.creation.seq).take limit.toNat := by
  obtain ⟨htarget, hlive, hkilled⟩ := hlist
  rw [page, hserved, htarget, if_pos (by simpa using hcursor)]
  show (List.filter (isSelected (scopeAt db cursor) selection after)
    (rowsAt (scopeAt db cursor))).take limit.toNat = _
  congr 2
  funext r
  rw [isSelected, htarget, beq_eq_false_iff_ne.mpr hlive, bne_iff_ne.mpr hkilled]
  simp

/-- A page is a front of the rows that were left, and continues after its
last one. -/
structure Front (left : List PageRow) (items : List (PublicHypothesis C K L)) (next : Option Nat)
    (front rest : List PageRow) : Prop where
  split : left = front ++ rest
  items : items.map (·.key) = front.map (·.key)
  last : next = none → rest = []
  more : ∀ n, next = some n → ∃ last, front.getLast? = some last ∧ n = last.creation.seq

theorem readHypotheses_front {query : HypothesisReadQuery} {selection : Selection}
    (hlist : selection.isList) {face : HypothesesResponse C K L} {unlisted : Bool}
    (h : readHypotheses π db query selection = .ok (some (face, unlisted))) :
    ∃ front rest, Front ((rowsAt (scopeAt db (query.through.getD db.publicSeq))).filter
      fun r => query.after.getD 0 < r.creation.seq) face.hypotheses face.nextAfter front rest := by
  rw [readHypotheses_eq] at h
  obtain ⟨found, hfound, hface⟩ := ExceptRun.map_ok.mp h
  obtain ⟨p, rfl, hp⟩ := Option.map_eq_some_iff.mp hface
  obtain ⟨rfl, rfl⟩ := Prod.mk.inj hp
  obtain ⟨hlimit, hserved, hcursor, rows, hrows, hchecked, hnext⟩ := readPage_some hfound
  rw [page_list hlist hserved hcursor] at hrows
  set left := (rowsAt (scopeAt db (query.through.getD db.publicSeq))).filter
    fun r => query.after.getD 0 < r.creation.seq with hleft
  have hexact : selection.target.isSome = false := by rw [hlist.1]; rfl
  have hrowLimit : selection.rowLimit = selection.pageLimit + 1 := by
    rw [Selection.rowLimit, hexact]
    rfl
  have hfront : rows.take selection.pageLimit.toNat = left.take selection.pageLimit.toNat := by
    rw [hrows, List.take_take, hrowLimit]
    congr 1
    omega
  have hlength : selection.pageLimit < rows.length
      ↔ selection.pageLimit.toNat < left.length := by
    rw [hrows, List.length_take, hrowLimit]
    omega
  rw [hfront] at hchecked
  have hrowsOf := checkRows_rows hchecked
  have hkeys := checkRows_key hchecked
  refine ⟨left.take selection.pageLimit.toNat, left.drop selection.pageLimit.toNat,
    (List.take_append_drop _ _).symm, ?_, ?_, ?_⟩
  · rw [← hrowsOf, faceOf]
    dsimp only
    rw [List.map_map, List.map_map]
    exact List.map_congr_left fun t ht => congrArg (t.1.hypothesisId, ·) (hkeys t ht)
  · intro hnone
    change p.2 = none at hnone
    rw [hnext, hexact] at hnone
    rw [List.drop_eq_nil_iff]
    by_contra hmore
    have hlt : selection.pageLimit < rows.length := hlength.mpr (by omega)
    rw [if_pos (by simpa using hlt), Option.map_eq_none_iff, List.getLast?_eq_none_iff] at hnone
    rw [hnone, List.map_nil] at hrowsOf
    have hnil := congrArg List.length hrowsOf.symm
    rw [List.length_take, List.length_nil] at hnil
    omega
  · intro n hn
    change p.2 = some n at hn
    rw [hnext, hexact] at hn
    split at hn
    · obtain ⟨t, ht, rfl⟩ := Option.map_eq_some_iff.mp hn
      refine ⟨t.1, ?_, hkeys t (List.mem_of_getLast? ht)⟩
      rw [← hrowsOf, List.getLast?_map, ht]
      rfl
    · cases hn

/-! ## Cut again by bytes -/

variable {fits : HypothesesResponse C K L → Bool}

theorem bound_candidate {face : HypothesesResponse C K L} {counts : List Nat}
    {included : Option (HypothesesResponse C K L)} {cut : HypothesesResponse C K L}
    (h : bound fits face included counts = .ok cut) :
    included = some cut ∨ ∃ count ∈ counts, cut = candidate face count := by
  induction counts generalizing included with
  | nil =>
      cases included with
      | none => cases h
      | some first => exact .inl (congrArg some (Except.ok.inj h))
  | cons count counts ih =>
      have hstep : bound fits face (some (candidate face count)) counts = .ok cut →
          ∃ later ∈ count :: counts, cut = candidate face later := by
        intro hcut
        rcases ih hcut with hthis | ⟨later, hlater, heq⟩
        · exact ⟨count, List.mem_cons_self, (Option.some.inj hthis).symm⟩
        · exact ⟨later, List.mem_cons_of_mem _ hlater, heq⟩
      cases included with
      | none =>
          rw [bound] at h
          split at h
          · exact .inr (hstep h)
          · cases h
      | some first =>
          rw [bound] at h
          split at h
          · exact .inr (hstep h)
          · exact .inl (congrArg some (Except.ok.inj h))

theorem boundHypothesesFace_front {face cut : HypothesesResponse C K L}
    {left front rest : List PageRow}
    (hfront : Front left face.hypotheses face.nextAfter front rest)
    (h : boundHypothesesFace fits face = .ok cut) :
    ∃ front rest, Front left cut.hypotheses cut.nextAfter front rest := by
  rw [boundHypothesesFace] at h
  split at h
  · cases h
    exact ⟨front, rest, hfront⟩
  rcases bound_candidate h with hnone | ⟨count, hcount, rfl⟩
  · cases hnone
  obtain ⟨hlow, -⟩ := List.mem_range'_1.mp hcount
  by_cases hall : face.hypotheses.length ≤ count
  · -- nothing is cut off
    refine ⟨front, rest, hfront.split, ?_, ?_, ?_⟩
    · rw [candidate]
      dsimp only
      rw [List.take_of_length_le hall]
      exact hfront.items
    · rw [candidate]
      dsimp only
      rw [if_neg (by omega)]
      exact hfront.last
    · rw [candidate]
      dsimp only
      rw [if_neg (by omega)]
      exact hfront.more
  · have hkeys := congrArg (List.take count) hfront.items
    rw [← List.map_take, ← List.map_take] at hkeys
    have hnext : (candidate face count).nextAfter
        = (front.take count).getLast?.map (·.creation.seq) := by
      rw [candidate]
      dsimp only
      rw [if_pos (by omega)]
      have hlast := congrArg (fun keys => keys.getLast?.map Prod.snd) hkeys
      simp only [List.getLast?_map, Option.map_map] at hlast
      exact hlast
    refine ⟨front.take count, front.drop count ++ rest, ?_, hkeys, fun hnone => ?_, fun n hn => ?_⟩
    · rw [← List.append_assoc, List.take_append_drop]
      exact hfront.split
    · rw [hnext, Option.map_eq_none_iff, List.getLast?_eq_none_iff] at hnone
      have hlength := congrArg List.length hfront.items
      have hempty := congrArg List.length hnone
      simp only [List.length_map, List.length_take, List.length_nil] at hlength hempty
      omega
    · rw [hnext] at hn
      obtain ⟨last, hlast, rfl⟩ := Option.map_eq_some_iff.mp hn
      exact ⟨last, hlast, rfl⟩

/-! ## Walks -/

/-- A page of the list that is served at a captured cursor, at some moment
after it was captured. -/
def Served (π : Platform V C K L) (fits : HypothesesResponse C K L → Bool) (first : Db)
    (cursor : Int) (after : Int) (items : List (PublicHypothesis C K L)) (next : Option Int) :
    Prop :=
  ∃ db query selection face unlisted cut, Grows first db ∧ Selection.isList selection
    ∧ query.through.getD db.publicSeq = cursor ∧ query.after.getD 0 = after
    ∧ readHypotheses π db query selection = .ok (some (face, unlisted))
    ∧ boundHypothesesFace fits face = .ok cut
    ∧ items = cut.hypotheses ∧ next = cut.nextAfter.map Nat.cast

def Left (first : Db) (cursor after : Int) (left : List (Text × Nat)) : Prop :=
  left = ((rowsAt (scopeAt first cursor)).filter fun r => after < r.creation.seq).map (·.key)

variable {first : Db}

theorem rowsAt_ascending (hascending : first.events.Pairwise fun a b => a.seq < b.seq)
    (cursor : Int) :
    (rowsAt (scopeAt first cursor)).Pairwise fun a b => a.creation.seq < b.creation.seq :=
  (rowsAt_distinct (hascending.filter _)).imp And.left

theorem Served.front (hcursor : cursor ≤ first.publicSeq) {items : List (PublicHypothesis C K L)}
    {next : Option Int} (h : Served π fits first cursor after items next) :
    ∃ cut front rest, Front ((rowsAt (scopeAt first cursor)).filter
      fun r => after < r.creation.seq) items cut front rest ∧ next = cut.map Nat.cast := by
  obtain ⟨db, query, selection, face, unlisted, cut, hgrows, hlist, hthrough, rfl, hread, hbound,
    rfl, rfl⟩ := h
  obtain ⟨front, rest, hfront⟩ := readHypotheses_front hlist hread
  rw [hthrough, hgrows.scopeAt hcursor] at hfront
  obtain ⟨front, rest, hcut⟩ := boundHypothesesFace_front hfront hbound
  exact ⟨cut.nextAfter, front, rest, hcut, rfl⟩

theorem Served.step {fits : HypothesesResponse C K L → Bool} {first : Db} {cursor after : Int}
    (hascending : first.events.Pairwise fun a b => a.seq < b.seq)
    (hcursor : cursor ≤ first.publicSeq) {items : List (PublicHypothesis C K L)}
    {next : Option Int} (h : Served π fits first cursor after items next)
    {left : List (Text × Nat)} (hleft : Left first cursor after left) :
    ∃ rest, left = items.map (·.key) ++ rest ∧ Paging.Remains (Left first cursor) rest next := by
  obtain ⟨cut, front, rest, hfront, rfl⟩ := h.front hcursor
  refine ⟨rest.map (·.key), ?_, ?_⟩
  · rw [hleft, hfront.split, List.map_append, hfront.items]
  · cases cut with
    | none => exact congrArg (List.map PageRow.key) (hfront.last rfl)
    | some n =>
        obtain ⟨last, hlast, rfl⟩ := hfront.more n rfl
        have hkeyed : (rowsAt (scopeAt first cursor)).Pairwise fun a b =>
            (a.creation.seq : Int) < b.creation.seq :=
          (rowsAt_ascending hascending cursor).imp Int.ofNat_lt.mpr
        have hrest := Paging.filter_after_last hkeyed hfront.split hlast
        exact congrArg (List.map PageRow.key) hrest.symm

theorem Served.nonempty (hcursor : cursor ≤ first.publicSeq)
    {items : List (PublicHypothesis C K L)} {next : Int}
    (h : Served π fits first cursor after items (some next)) : items ≠ [] := by
  intro hnil
  obtain ⟨cut, front, rest, hfront, hnext⟩ := h.front hcursor
  obtain ⟨n, hn, -⟩ := Option.map_eq_some_iff.mp hnext.symm
  obtain ⟨last, hlast, -⟩ := hfront.more n hn
  have hlength := congrArg List.length hfront.items
  rw [hnil, List.map_nil, List.length_map, List.length_nil] at hlength
  rw [List.length_eq_zero_iff.mp hlength.symm] at hlast
  cases hlast

/-! ## Pages that are served -/

structure IsReadable (π : Platform V C K L) (cursor : Int) (r : PageRow) : Prop where
  id : isPublicHypothesisId r.hypothesisId = true
  creation : (envelope π r.creation).isSome = true
  head : (envelope π r.head).isSome = true
  order : r.creation.seq ≤ r.head.seq ∧ (r.head.seq : Int) ≤ cursor

theorem checkRows_succeeds {rows : List PageRow} {ids : List Text} {previous : Int}
    (hreadable : ∀ r ∈ rows, IsReadable π cursor r)
    (hdistinct : rows.Pairwise fun a b =>
      a.creation.seq < b.creation.seq ∧ a.hypothesisId ≠ b.hypothesisId)
    (hids : ∀ r ∈ rows, r.hypothesisId ∉ ids) (hprevious : ∀ r ∈ rows, previous < r.creation.seq) :
    ∃ checked, checkRows π cursor none ids previous rows = .ok checked := by
  induction rows generalizing ids previous with
  | nil => exact ⟨[], rfl⟩
  | cons r rows ih =>
      rw [List.forall_mem_cons] at hreadable hids hprevious
      rw [List.pairwise_cons] at hdistinct
      obtain ⟨publication, hpublication⟩ := Option.isSome_iff_exists.mp hreadable.1.creation
      obtain ⟨last, hlast⟩ := Option.isSome_iff_exists.mp hreadable.1.head
      have hseq := envelope_seq hpublication
      have hlastSeq := envelope_seq hlast
      obtain ⟨horder, hcursor⟩ := hreadable.1.order
      have hfirst := hprevious.1
      have hnames : ∀ later ∈ rows, later.hypothesisId ∉ r.hypothesisId :: ids := by
        intro later hlater
        rw [List.mem_cons, not_or]
        exact ⟨((hdistinct.1 later hlater).2).symm, hids.2 later hlater⟩
      have hlater : ∀ later ∈ rows, (publication.seq : Int) < later.creation.seq := by
        intro later hlater
        have hlt := (hdistinct.1 later hlater).1
        omega
      obtain ⟨checked, hchecked⟩ := ih hreadable.2 hdistinct.2 hnames hlater
      refine ⟨(r, publication, last) :: checked, ?_⟩
      rw [checkRows, if_neg (by simp [hreadable.1.id, hids.1]), hpublication, hlast]
      dsimp only
      rw [if_neg (by omega), hchecked]
      rfl

structure WellFormed (π : Platform V C K L) (db : Db) : Prop where
  problemId : isProblemId db.problemId = true
  ascending : db.events.Pairwise fun a b => a.seq < b.seq
  envelopes : ∀ e ∈ db.events, e.objectKind = .hypothesis →
    isPublicHypothesisId e.objectId = true ∧ (envelope π e).isSome = true

theorem WellFormed.readable (h : WellFormed π db) {r : PageRow}
    (hr : r ∈ rowsAt (scopeAt db cursor)) : IsReadable π cursor r := by
  obtain ⟨hadmission, hrow, hid⟩ := mem_rowsAt hr
  obtain ⟨hmem, hcreated, _⟩ := mem_admissions.mp hadmission
  have hhistory := List.mem_filter.mp (List.mem_of_getLast? (pageRow_some hrow).2.2)
  have hhead := List.mem_filter.mp hhistory.1
  have hkind : r.head.objectKind = .hypothesis :=
    beq_iff_eq.mp (Bool.and_eq_true_iff.mp hhistory.2).1
  obtain ⟨hname, hpublication⟩ := h.envelopes r.creation (List.mem_filter.mp hmem).1
    (isAdmission_iff.mp hcreated).1
  exact {
    id := by rw [hid]; exact hname
    creation := hpublication
    head := (h.envelopes r.head hhead.1 hkind).2
    order := ⟨seq_le_head (h.ascending.filter _) hadmission hrow, of_decide_eq_true hhead.2⟩ }

def wholeList : Selection := ⟨none, none, none, none⟩

theorem WellFormed.served (h : WellFormed π first) (hgrows : Grows first db)
    (hserved : db.isServed = true) (hsafe : isSafeInteger db.publicSeq = true)
    (hcursor : cursor ≤ first.publicSeq) (hlow : 0 ≤ after) (hhigh : after ≤ cursor) :
    ∃ face unlisted, readHypotheses π db ⟨some cursor, some after⟩ wholeList
      = .ok (some (face, unlisted)) := by
  have hpublic := hgrows.publicSeq
  have hpublicSafe : (db.publicSeq : Int).natAbs ≤ maxSafeInteger := of_decide_eq_true hsafe
  have hsequence : ∀ n : Int, 0 ≤ n → n ≤ db.publicSeq → sequence n 0 = true := by
    intro n hn hle
    rw [sequence, isSafeInteger, Bool.and_eq_true, decide_eq_true_eq, decide_eq_true_eq]
    omega
  have hlist : wholeList.isList := ⟨rfl, (Option.some_ne_none true).symm, (Option.some_ne_none true).symm⟩
  have hrefused : isRefused db ⟨some cursor, some after⟩ wholeList = false := by
    simp [isRefused, wholeList, hgrows.problemId, h.problemId,
      hsequence after hlow (by omega), hsequence cursor (by omega) (by omega)]
    omega
  have hrows : page db cursor after wholeList.rowLimit wholeList
      = ((rowsAt (scopeAt first cursor)).filter fun r => after < r.creation.seq).take 9 := by
    rw [page_list hlist hserved (by omega), hgrows.scopeAt hcursor]
    rfl
  obtain ⟨checked, hchecked⟩ : ∃ checked, checkRows π cursor none [] after
      ((((rowsAt (scopeAt first cursor)).filter fun r => after < r.creation.seq).take 9).take 8)
      = .ok checked := by
    have hmem : ∀ r ∈ (((rowsAt (scopeAt first cursor)).filter
        fun r => after < r.creation.seq).take 9).take 8,
        r ∈ rowsAt (scopeAt first cursor) ∧ after < r.creation.seq := by
      intro r hr
      have hfilter := List.mem_filter.mp (List.mem_of_mem_take (List.mem_of_mem_take hr))
      exact ⟨hfilter.1, of_decide_eq_true hfilter.2⟩
    refine checkRows_succeeds (fun r hr => h.readable (hmem r hr).1) ?_
      (fun _ _ => List.not_mem_nil) fun r hr => (hmem r hr).2
    exact ((rowsAt_distinct (h.ascending.filter _)).filter _).sublist
      ((List.take_sublist _ _).trans (List.take_sublist _ _))
  obtain ⟨next, hpage⟩ : ∃ next, readPage π db ⟨some cursor, some after⟩ wholeList
      = .ok (some (checked, next)) := by
    unfold readPage
    dsimp only [Option.getD_some]
    rw [hrefused, if_neg Bool.false_ne_true, if_neg (by decide), hserved, if_neg (by simp),
      hsequence db.publicSeq (by omega) le_rfl, hsequence cursor (by omega) (by omega),
      if_neg (by simp), if_neg (by omega), hrows, if_neg (by simp [wholeList])]
    exact ⟨_, congrArg (Except.map _) hchecked⟩
  exact ⟨_, _, by rw [readHypotheses_eq, hpage]; rfl⟩

theorem WellFormed.positive (h : WellFormed π db) {r : PageRow}
    (hr : r ∈ rowsAt (scopeAt db cursor)) : 0 < r.creation.seq := by
  obtain ⟨publication, hpublication⟩ := Option.isSome_iff_exists.mp
    (h.readable hr).creation
  unfold envelope at hpublication
  split at hpublication
  · rename_i hall
    simp only [Bool.and_eq_true, sequence, decide_eq_true_eq] at hall
    omega
  · cases hpublication

theorem WellFormed.left (h : WellFormed π db) (cursor : Int) :
    Left db cursor 0 ((admissions (scopeAt db cursor)).map fun e => (e.objectId, e.seq)) := by
  have hall : (rowsAt (scopeAt db cursor)).filter (fun r => (0 : Int) < r.creation.seq)
      = rowsAt (scopeAt db cursor) := by
    rw [List.filter_eq_self]
    intro r hr
    have hpos := h.positive hr
    exact decide_eq_true (by omega)
  rw [Left, hall, ← rowsAt_creation, List.map_map]
  exact List.map_congr_left fun r hr => congrArg (·, r.creation.seq) (mem_rowsAt hr).2.2.symm

/-! ## The list under damage -/

/-- With some bodies damaged, a list shows the same hypotheses with the same
envelopes, and what is read as active is active without the damage. At one
captured cursor, and while other events are appended, the pages show every
hypothesis created up to it once and in the order of creation; there are no
more of them than hypotheses, and one; and each is there as long as the
problem is served. -/
theorem hypotheses_under_damage {V C K L : Type} {π : Platform V C K L} (lawful : π.Lawful)
    (fits : HypothesesResponse C K L → Bool) :
    (∀ db db' query selection, Damaged π db db' →
      (selection.target = none →
        (readHypotheses π db' query selection).map (Option.map fun r => (r.1.listed, r.2))
          = (readHypotheses π db query selection).map (Option.map fun r => (r.1.listed, r.2)))
      ∧ ∀ face' unlisted,
        readHypotheses π db' query selection = .ok (some (face', unlisted)) →
        ∃ face, readHypotheses π db query selection = .ok (some (face, unlisted))
          ∧ List.Forall₂ Withheld face'.hypotheses face.hypotheses)
    ∧ ∀ (first : Db) (cursor : Int), WellFormed π first → cursor ≤ first.publicSeq →
      (∀ pages, Paging.Walk (Served π fits first cursor) 0 pages none →
        ((pages.flatten.map (·.hypothesisId)).Nodup
        ∧ (∀ id, id ∈ pages.flatten.map (·.hypothesisId) ↔ ∃ e ∈ first.events,
          e.objectKind = .hypothesis ∧ e.type = .created ∧ e.objectId = id ∧ e.seq ≤ cursor)
        ∧ pages.flatten.Pairwise fun a b => a.publication.seq < b.publication.seq)
        ∧ pages.flatten.map (·.key)
          = (admissions (scopeAt first cursor)).map fun e => (e.objectId, e.seq))
      ∧ (∀ pages next, Paging.Walk (Served π fits first cursor) 0 pages next →
        pages.length ≤ (admissions (scopeAt first cursor)).length + 1)
      ∧ ∀ db after, Grows first db → db.isServed = true → isSafeInteger db.publicSeq = true →
        0 ≤ after → after ≤ cursor → ∃ face unlisted,
        readHypotheses π db ⟨some cursor, some after⟩ wholeList = .ok (some (face, unlisted)) := by
  refine ⟨fun db db' query selection hdamaged => ⟨hdamaged.listed query,
    fun face' unlisted hread => hdamaged.read lawful hread⟩, ?_⟩
  intro first cursor hwell hcursor
  have hcovers : ∀ {pages next}, Paging.Walk (Served π fits first cursor) 0 pages next →
      ∃ rest, ((admissions (scopeAt first cursor)).map fun e => (e.objectId, e.seq))
        = pages.flatten.map (·.key) ++ rest ∧ Paging.Remains (Left first cursor) rest next :=
    fun hwalk => Paging.Walk.covers
      (fun _ _ _ _ hpage hleft => hpage.step hwell.ascending hcursor hleft) hwalk
      (hwell.left cursor)
  refine ⟨fun pages hwalk => ?_, fun pages next hwalk => ?_, fun db after hgrows hserved hsafe =>
    hwell.served hgrows hserved hsafe hcursor⟩
  · obtain ⟨rest, hkeys, hrest⟩ := hcovers hwalk
    rw [show rest = [] from hrest, List.append_nil] at hkeys
    have hids : pages.flatten.map (·.hypothesisId)
        = (admissions (scopeAt first cursor)).map (·.objectId) := by
      have hfirst := congrArg (List.map Prod.fst) hkeys.symm
      rw [List.map_map, List.map_map] at hfirst
      exact hfirst
    have hseqs : pages.flatten.map (·.publication.seq)
        = (admissions (scopeAt first cursor)).map (·.seq) := by
      have hsecond := congrArg (List.map Prod.snd) hkeys.symm
      rw [List.map_map, List.map_map] at hsecond
      exact hsecond
    have hdistinct := admissions_distinct (hwell.ascending.filter fun e => (e.seq : Int) ≤ cursor)
    refine ⟨⟨?_, fun id => ?_, ?_⟩, hkeys.symm⟩
    · rw [hids]
      exact List.pairwise_map.mpr (hdistinct.imp And.right)
    · rw [hids, List.mem_map]
      constructor
      · rintro ⟨e, he, rfl⟩
        obtain ⟨hmem, hadmission, -⟩ := mem_admissions.mp he
        obtain ⟨hkind, htype⟩ := isAdmission_iff.mp hadmission
        obtain ⟨hevents, hseq⟩ := List.mem_filter.mp hmem
        exact ⟨e, hevents, hkind, htype, rfl, of_decide_eq_true hseq⟩
      · rintro ⟨e, he, hkind, htype, rfl, hseq⟩
        exact exists_admission (List.mem_filter.mpr ⟨he, decide_eq_true hseq⟩)
          (isAdmission_iff.mpr ⟨hkind, htype⟩)
    · have hordered : (pages.flatten.map (·.publication.seq)).Pairwise (· < ·) := by
        rw [hseqs]
        exact List.pairwise_map.mpr (hdistinct.imp And.left)
      exact List.pairwise_map.mp hordered
  · obtain ⟨rest, hkeys, -⟩ := hcovers hwalk
    have hlength := congrArg List.length hkeys
    rw [List.length_map, List.length_append, List.length_map] at hlength
    have hle := Paging.Walk.length_le (fun _ _ _ hpage => hpage.nonempty hcursor) hwalk
    omega

/-! A problem with one hypothesis, of which the body is then erased. -/

def samplePlatform : Platform Text Text Unit Unit where
  sha256Hex _ := List.replicate 64 (unit '0')
  parseJson := some
  isTimestamp _ := true
  decoders :=
    { publication := id
      kill := fun _ => none
      lifecycle := some (Option.map fun _ => ())
      killed := fun _ => []
      hypothesisId := fun _ => []
      action := fun _ => .resume
      expectedLastEventId := fun _ => [] }

theorem sample_lawful : samplePlatform.Lawful where
  lifecycle decode h := by
    cases h
    rfl

def sampleEvent : Event where
  id := text "e"
  seq := 1
  type := .created
  objectKind := .hypothesis
  objectId := text "H-1"
  objectVersion := 1
  createdAt := []
  payloadSha256 := List.replicate 64 (unit '0')
  fellowId := none
  sponsorId := none
  sessionId := none
  modelSelfDeclared := none
  harnessSelfDeclared := none

def sampleDb : Db where
  problemId := text "P-1"
  publicSeq := 1
  isPrivateDraft := false
  unlisted := false
  events := [sampleEvent]
  content _ := some ⟨List.replicate 64 (unit '0'), text "b", false⟩
  controls := []

def sampleErased : Db := { sampleDb with content := fun _ => none }

theorem sample_damaged : Damaged samplePlatform sampleDb sampleErased where
  problemId := rfl
  publicSeq := rfl
  isPrivateDraft := rfl
  unlisted := rfl
  events := rfl
  problem := rfl
  hides _ h := h
  bodies _ _ := .inl (.inr nofun)

theorem sample_wellFormed : WellFormed samplePlatform sampleDb where
  problemId := by decide
  ascending := List.pairwise_singleton _ _
  envelopes := List.forall_mem_singleton.mpr fun _ => by decide

theorem hypotheses_under_damage_sample :
    (readHypotheses samplePlatform sampleErased ⟨none, none⟩ wholeList).map
        (Option.map fun r => (r.1.listed, r.2))
      = (readHypotheses samplePlatform sampleDb ⟨none, none⟩ wholeList).map
        (Option.map fun r => (r.1.listed, r.2))
    ∧ ∃ items : List (PublicHypothesis Text Unit Unit),
      items.map (·.key) = (admissions (scopeAt sampleDb 1)).map fun e => (e.objectId, e.seq) := by
  obtain ⟨hdamage, hlist⟩ := hypotheses_under_damage sample_lawful fun _ => true
  have hserved : Served samplePlatform (fun _ => true) sampleDb 1 0 _ none :=
    ⟨sampleDb, ⟨some 1, none⟩, wholeList, _, _, _, ⟨rfl, le_rfl, [], (List.append_nil _).symm, nofun⟩,
      ⟨rfl, nofun, nofun⟩, rfl, rfl, rfl, rfl, rfl, rfl⟩
  exact ⟨(hdamage sampleDb sampleErased ⟨none, none⟩ wholeList sample_damaged).1 rfl, _,
    ((hlist sampleDb 1 sample_wellFormed le_rfl).1 _ (.last hserved)).2⟩

end Asimposium.Hypotheses.Listing
