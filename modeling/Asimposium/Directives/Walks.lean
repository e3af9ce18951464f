import Asimposium.Directives.ActivePage
import Asimposium.Lib.Grouping
import Asimposium.Lib.Paging
import Mathlib.Data.Prod.Lex
import Asimposium.Render.Canonical
import Mathlib.Data.List.Pairwise

/-!
# Walks over the active directives

Between two pages the tables may change in any order: new directives and
notices, acknowledgements, transfers, revocations, panics. A committed
receipt of a Fellow has a larger sequence number than every one before it,
so a snapshot with the same largest number is the same snapshot
(`Grows.same_snapshot`). A cursor continues only that snapshot, and each page
takes the forbids after the last one off its front.
-/

namespace Asimposium.Directives

open Codec (Value)
open Text (decimal)

/-! ## Steps -/

inductive Step : Db → Db → Prop
  /-- a directive with its receipt, or a receipt of another kind -/
  | direct {db : Db} (noticeId : Text) (n : Notice) (directives : List Directive)
      (hfresh : db.notices noticeId = none)
      (hlater : ∀ id m, db.notices id = some m → m.fellowId = n.fellowId → m.seq < n.seq)
      (hpos : 0 < n.seq)
      (hdirectives : ∀ d ∈ directives, d.noticeId = noticeId) :
      Step db { db with
        notices := Function.update db.notices noticeId (some n)
        directives := db.directives ++ directives }
  | acknowledge {db : Db} (noticeId : Text) (n : Notice) (at' : Int)
      (hnotice : db.notices noticeId = some n) :
      Step db { db with
        notices := Function.update db.notices noticeId (some { n with acknowledgedAt := some at' }) }
  | transfer {db : Db} (fellowId : Text) (f : Fellow) (sponsorId : Text)
      (hfellow : db.fellows fellowId = some f) :
      Step db { db with
        fellows := Function.update db.fellows fellowId (some { f with sponsorId }) }
  | revoke {db : Db} (credentialId : Text) (t : Token) (at' : Int)
      (htoken : db.tokens credentialId = some t) :
      Step db { db with
        tokens := Function.update db.tokens credentialId (some { t with revokedAt := some at' }) }
  | panic {db : Db} (sponsorId : Text) (at' : Int) :
      Step db { db with panicAt := Function.update db.panicAt sponsorId (some at') }
  /-- any other change of credentials, grants, sponsors and problems -/
  | administer {db : Db} (fellows : Text → Option Fellow) (tokens : Text → Option Token)
      (grants : Text → Option Grant) (sponsors : Text → Option (Option Int))
      (panicAt : Text → Option Int) (problems : Text → Option Problem) :
      Step db { db with fellows, tokens, grants, sponsors, panicAt, problems }
  | elapse {db : Db} (now : Int) (hnow : db.now ≤ now) : Step db { db with now }

def Steps : Db → Db → Prop := Relation.ReflTransGen Step

/-- The receipts of a Fellow are numbered, no number is given twice, and no
directive is there twice. -/
structure Db.Numbered (db : Db) : Prop where
  positive : ∀ id n, db.notices id = some n → 0 < n.seq
  distinct : ∀ id id' n n', db.notices id = some n → db.notices id' = some n' →
    n.fellowId = n'.fellowId → n.seq = n'.seq → id = id'
  directives : (db.directives.map (·.id)).Nodup

/-! ## What steps do to receipts -/

def Notice.bare (n : Notice) : Notice := { n with acknowledgedAt := none }

theorem Notice.fields_of_bare {n n' : Notice} (h : n'.bare = n.bare) :
    n'.fellowId = n.fellowId ∧ n'.noticeType = n.noticeType ∧ n'.targetId = n.targetId
      ∧ n'.problemId = n.problemId ∧ n'.seq = n.seq := by
  simp only [Notice.bare, Notice.mk.injEq] at h
  exact ⟨h.1, h.2.2.1, h.2.2.2.2.1, h.2.1, h.2.2.2.1⟩

/-- Old receipts stay, new ones are numbered after all old ones of their
Fellow, and so are those of new directives. -/
structure Grows (db db' : Db) : Prop where
  kept : ∀ id n, db.notices id = some n → ∃ n', db'.notices id = some n' ∧ n'.bare = n.bare
  later : ∀ id n', db'.notices id = some n' → db.notices id = none → 0 < n'.seq
    ∧ ∀ id m, db.notices id = some m → m.fellowId = n'.fellowId → m.seq < n'.seq
  directives : ∃ added, db'.directives = db.directives ++ added
    ∧ ∀ d ∈ added, db.notices d.noticeId = none

theorem Grows.refl (db : Db) : Grows db db where
  kept := fun _ n h => ⟨n, h, rfl⟩
  later := fun _ _ h hnone => by rw [hnone] at h; cases h
  directives := ⟨[], (List.append_nil _).symm, nofun⟩

theorem Grows.of_same {db db' : Db} (hnotices : db'.notices = db.notices)
    (hdirectives : db'.directives = db.directives) : Grows db db' where
  kept := fun id n h => ⟨n, by rw [hnotices, h], rfl⟩
  later := fun id n h hnone => by rw [hnotices, hnone] at h; cases h
  directives := ⟨[], by rw [hdirectives, List.append_nil], nofun⟩

theorem Grows.trans {db db' db'' : Db} (h : Grows db db') (h' : Grows db' db'') :
    Grows db db'' where
  kept := by
    intro id n hn
    obtain ⟨n', hn', hbare⟩ := h.kept id n hn
    obtain ⟨n'', hn'', hbare'⟩ := h'.kept id n' hn'
    exact ⟨n'', hn'', hbare'.trans hbare⟩
  later := by
    intro id n'' hn'' hnone
    cases hbetween : db'.notices id with
    | none =>
        obtain ⟨hpos, hlater⟩ := h'.later id n'' hn'' hbetween
        refine ⟨hpos, fun id' m hm hfellow => ?_⟩
        obtain ⟨m', hm', hbare⟩ := h.kept id' m hm
        obtain ⟨hfellow', _, _, _, hseq⟩ := Notice.fields_of_bare hbare
        have hlt := hlater id' m' hm' (hfellow'.trans hfellow)
        omega
    | some n' =>
        obtain ⟨hpos, hlater⟩ := h.later id n' hbetween hnone
        obtain ⟨n₂, hn₂, hbare⟩ := h'.kept id n' hbetween
        obtain rfl := Option.some.inj (hn₂.symm.trans hn'')
        obtain ⟨hfellow', _, _, _, hseq⟩ := Notice.fields_of_bare hbare
        refine ⟨by omega, fun id' m hm hfellow => ?_⟩
        have hlt := hlater id' m hm (hfellow.trans hfellow')
        omega
  directives := by
    obtain ⟨added, hadded, hnew⟩ := h.directives
    obtain ⟨added', hadded', hnew'⟩ := h'.directives
    refine ⟨added ++ added', by rw [hadded', hadded, List.append_assoc], ?_⟩
    intro d hd
    rcases List.mem_append.mp hd with hd | hd
    · exact hnew d hd
    · cases hold : db.notices d.noticeId with
      | none => rfl
      | some n =>
          obtain ⟨n', hn', _⟩ := h.kept _ n hold
          rw [hnew' d hd] at hn'
          cases hn'

theorem Step.grows {db db' : Db} (h : Step db db') : Grows db db' := by
  cases h with
  | direct noticeId n directives hfresh hlater hpos hdirectives =>
      refine ⟨?_, ?_, directives, rfl, fun d hd => by rw [hdirectives d hd]; exact hfresh⟩
      · intro id m hm
        have hne : id ≠ noticeId := by
          rintro rfl
          rw [hfresh] at hm
          cases hm
        exact ⟨m, (Function.update_of_ne hne _ _).trans hm, rfl⟩
      · intro id m hm hnone
        by_cases hid : id = noticeId
        · subst hid
          obtain rfl := Option.some.inj ((Function.update_self id _ db.notices).symm.trans hm)
          exact ⟨hpos, hlater⟩
        · have hsame := (Function.update_of_ne hid _ db.notices).symm.trans hm
          rw [hnone] at hsame
          cases hsame
  | acknowledge noticeId n at' hnotice =>
      refine ⟨?_, ?_, [], (List.append_nil _).symm, nofun⟩
      · intro id m hm
        by_cases hid : id = noticeId
        · subst hid
          obtain rfl := Option.some.inj (hnotice.symm.trans hm)
          exact ⟨_, Function.update_self .., rfl⟩
        · exact ⟨m, (Function.update_of_ne hid _ _).trans hm, rfl⟩
      · intro id m hm hnone
        have hne : id ≠ noticeId := by
          rintro rfl
          rw [hnotice] at hnone
          cases hnone
        have hsame := (Function.update_of_ne hne _ db.notices).symm.trans hm
        rw [hnone] at hsame
        cases hsame
  | transfer fellowId f sponsorId hfellow => exact .of_same rfl rfl
  | revoke credentialId t at' htoken => exact .of_same rfl rfl
  | panic sponsorId at' => exact .of_same rfl rfl
  | administer fellows tokens grants sponsors panicAt problems => exact .of_same rfl rfl
  | elapse now hnow => exact .of_same rfl rfl

theorem Steps.grows {db db' : Db} (h : Steps db db') : Grows db db' := by
  induction h with
  | refl => exact .refl db
  | tail _ hstep ih => exact ih.trans hstep.grows

/-! ## Snapshots -/

def ActiveDirectiveRow.bare (row : ActiveDirectiveRow) : ActiveDirectiveRow :=
  { row with acknowledgedAt := none }

/-- The directives for a Fellow, a sponsor and a problem that are committed
with their receipts. -/
def applicable (db : Db) (binding : Binding) (problemId : Option Text) : List ActiveDirectiveRow :=
  (db.directives.filter (isScoped binding problemId)).filterMap (receiptOf? db)

section Snapshots

variable {db db' : Db} {binding : Binding} {problemId : Option Text}

variable {d : Directive} {row : ActiveDirectiveRow}

theorem receiptOf?_some (h : receiptOf? db d = some row) :
    ∃ n, db.notices d.noticeId = some n ∧ n.fellowId = d.fellowId
      ∧ n.noticeType = text "sponsor_directive" ∧ n.targetId = some d.id
      ∧ n.problemId = d.problemId
      ∧ row = { id := d.id, verb := d.verb, body := d.body, problemId := d.problemId
                noticeId := d.noticeId, createdAt := d.createdAt, seq := n.seq
                acknowledgedAt := n.acknowledgedAt } := by
  unfold receiptOf? at h
  split at h
  · rename_i n hn
    split at h
    · rename_i hall
      exact ⟨n, hn, hall.1, hall.2.1, hall.2.2.1, hall.2.2.2, (Option.some.inj h).symm⟩
    · cases h
  · cases h

theorem isScoped_fellow (h : isScoped binding problemId d = true) :
    d.fellowId = binding.fellowId ∧ d.sponsorId = binding.sponsorId := by
  simp only [isScoped, Bool.and_eq_true, beq_iff_eq] at h
  exact h.1

theorem mem_applicable :
    row ∈ applicable db binding problemId ↔
      ∃ d ∈ db.directives, isScoped binding problemId d = true ∧ receiptOf? db d = some row := by
  rw [applicable, List.mem_filterMap]
  constructor
  · rintro ⟨d, hd, hrow⟩
    obtain ⟨hmem, hscoped⟩ := List.mem_filter.mp hd
    exact ⟨d, hmem, hscoped, hrow⟩
  · rintro ⟨d, hd, hscoped, hrow⟩
    exact ⟨d, List.mem_filter.mpr ⟨hd, hscoped⟩, hrow⟩

theorem le_snapshotSeq {rows : List ActiveDirectiveRow} (h : row ∈ rows) :
    row.seq ≤ snapshotSeq rows := by
  induction rows with
  | nil => cases h
  | cons first rows ih =>
      rcases List.mem_cons.mp h with rfl | hmem
      · exact le_max_left _ _
      · exact (ih hmem).trans (le_max_right _ _)

theorem snapshotSeq_lt {rows : List ActiveDirectiveRow} {n : Nat} (hn : 0 < n)
    (h : ∀ row ∈ rows, row.seq < n) : snapshotSeq rows < n := by
  induction rows with
  | nil => exact hn
  | cons row rows ih =>
      rw [List.forall_mem_cons] at h
      exact max_lt h.1 (ih h.2)

theorem Grows.snapshot_lt (h : Grows db db') (hscoped : isScoped binding problemId d = true)
    (hrow : receiptOf? db' d = some row) (hnone : db.notices d.noticeId = none) :
    snapshotSeq (applicable db binding problemId) < row.seq := by
  obtain ⟨n', hn', hfellow, _, _, _, rfl⟩ := receiptOf?_some hrow
  obtain ⟨hpos, hlater⟩ := h.later _ n' hn' hnone
  refine snapshotSeq_lt hpos fun old hold => ?_
  obtain ⟨d', _, hscoped', hold'⟩ := mem_applicable.mp hold
  obtain ⟨n, hn, hfellow', _, _, _, rfl⟩ := receiptOf?_some hold'
  refine hlater _ n hn ?_
  rw [hfellow', hfellow, (isScoped_fellow hscoped).1, (isScoped_fellow hscoped').1]

theorem Grows.receiptOf? (h : Grows db db') {n : Notice} (hn : db.notices d.noticeId = some n) :
    (Directives.receiptOf? db' d).map ActiveDirectiveRow.bare
      = (Directives.receiptOf? db d).map ActiveDirectiveRow.bare := by
  obtain ⟨n', hn', hbare⟩ := h.kept _ n hn
  obtain ⟨hfellow, htype, htarget, hproblem, hseq⟩ := Notice.fields_of_bare hbare
  simp only [Directives.receiptOf?, hn, hn', hfellow, htype, htarget, hproblem]
  split
  · simp [ActiveDirectiveRow.bare, hseq]
  · rfl

theorem Grows.same_snapshot (h : Grows db db')
    (hsame : snapshotSeq (applicable db' binding problemId)
      = snapshotSeq (applicable db binding problemId)) :
    (applicable db' binding problemId).map ActiveDirectiveRow.bare
      = (applicable db binding problemId).map ActiveDirectiveRow.bare
      ∧ ∀ d ∈ db'.directives, isScoped binding problemId d = true →
        (Directives.receiptOf? db' d).isSome →
        d ∈ db.directives ∧ (Directives.receiptOf? db d).isSome := by
  obtain ⟨added, hadded, hnew⟩ := h.directives
  -- a receipt that was not there would be numbered after the snapshot
  have hgone : ∀ d ∈ db'.directives, isScoped binding problemId d = true →
      db.notices d.noticeId = none → Directives.receiptOf? db' d = none := by
    intro d hd hscoped hnone
    cases hrow : Directives.receiptOf? db' d with
    | none => rfl
    | some row =>
        have hlt := h.snapshot_lt hscoped hrow hnone
        have hle := le_snapshotSeq (mem_applicable.mpr ⟨d, hd, hscoped, hrow⟩)
        omega
  have hold : ∀ d ∈ db'.directives, isScoped binding problemId d = true →
      (Directives.receiptOf? db' d).map ActiveDirectiveRow.bare
        = (Directives.receiptOf? db d).map ActiveDirectiveRow.bare := by
    intro d hd hscoped
    cases hnotice : db.notices d.noticeId with
    | some n => exact h.receiptOf? hnotice
    | none =>
        rw [hgone d hd hscoped hnotice]
        simp [Directives.receiptOf?, hnotice]
  constructor
  · rw [applicable, applicable, List.map_filterMap, List.map_filterMap, hadded, List.filter_append,
      List.filterMap_append]
    have hnone : (added.filter (isScoped binding problemId)).filterMap (fun d =>
        (Directives.receiptOf? db' d).map ActiveDirectiveRow.bare) = [] := by
      rw [List.filterMap_eq_nil_iff]
      intro d hd
      obtain ⟨hmem, hscoped⟩ := List.mem_filter.mp hd
      rw [hgone d (by rw [hadded]; exact List.mem_append_right _ hmem) hscoped (hnew d hmem)]
      rfl
    rw [hnone, List.append_nil]
    refine List.filterMap_congr fun d hd => ?_
    obtain ⟨hmem, hscoped⟩ := List.mem_filter.mp hd
    exact hold d (by rw [hadded]; exact List.mem_append_left _ hmem) hscoped
  · intro d hd hscoped hsome
    have hsame := congrArg Option.isSome (hold d hd hscoped)
    rw [Option.isSome_map, Option.isSome_map, hsome] at hsame
    refine ⟨?_, hsame.symm⟩
    rw [hadded] at hd
    rcases List.mem_append.mp hd with hmem | hmem
    · exact hmem
    · rw [hgone d (by rw [hadded]; exact hd) hscoped (hnew d hmem)] at hsome
      cases hsome

end Snapshots

/-! ## Rows in their order -/

section Order

variable {rows : List ActiveDirectiveRow}

def rowKey (row : ActiveDirectiveRow) : ℕ ×ₗ List ℕ := toLex (row.seq, textKey row.id)

theorem rowLe_compares : KeyedSort.Compares rowLe rowKey := by
  intro a b
  rw [rowLe, Bool.or_eq_true, Bool.and_eq_true, decide_eq_true_eq, beq_iff_eq, le_iff_textKey,
    rowKey, rowKey, Prod.Lex.toLex_le_toLex]

theorem perm_ordered (rows : List ActiveDirectiveRow) : (ordered rows).Perm rows :=
  List.perm_insertionSort _ _

theorem mem_ordered {row : ActiveDirectiveRow} : row ∈ ordered rows ↔ row ∈ rows :=
  (perm_ordered rows).mem_iff

theorem seq_le_of_key {a b : ActiveDirectiveRow} (h : rowKey a ≤ rowKey b) : a.seq ≤ b.seq := by
  rcases Prod.Lex.toLex_le_toLex.mp h with hlt | ⟨heq, _⟩
  · exact hlt.le
  · exact heq.le

theorem ordered_pairwise (h : rows.Pairwise fun a b => a.seq ≠ b.seq) :
    (ordered rows).Pairwise fun a b => a.seq < b.seq := by
  have hle := KeyedSort.pairwise_insertionSort rowLe_compares rows
  have hne : (ordered rows).Pairwise fun a b => a.seq ≠ b.seq :=
    (perm_ordered rows).symm.pairwise h fun hab => hab.symm
  exact (hle.and hne).imp fun hab => lt_of_le_of_ne (seq_le_of_key hab.1) hab.2

theorem eq_of_ascending {rows' : List ActiveDirectiveRow} (hperm : rows.Perm rows')
    (h : rows.Pairwise fun a b => a.seq < b.seq) (h' : rows'.Pairwise fun a b => a.seq < b.seq) :
    rows = rows' :=
  List.Perm.eq_of_pairwise (fun _ _ _ _ hab hba => absurd hab (Nat.lt_asymm hba)) h h' hperm

theorem ordered_bare (rows : List ActiveDirectiveRow) :
    (ordered rows).map ActiveDirectiveRow.bare = ordered (rows.map ActiveDirectiveRow.bare) :=
  List.map_insertionSort _ _ _ _ fun _ _ _ _ => Iff.rfl

theorem filter_bare (p : ActiveDirectiveRow → Bool) (hp : ∀ row, p row.bare = p row)
    (rows : List ActiveDirectiveRow) :
    (rows.filter p).map ActiveDirectiveRow.bare = (rows.map ActiveDirectiveRow.bare).filter p := by
  rw [List.filter_map]
  congr 1
  exact List.filter_congr fun row _ => (hp row).symm

theorem latestFocus_bare (rows : List ActiveDirectiveRow) :
    (latestFocus rows).map ActiveDirectiveRow.bare
      = latestFocus (rows.map ActiveDirectiveRow.bare) := by
  rw [latestFocus, latestFocus, ← filter_bare _ (fun _ => rfl), ← ordered_bare, List.getLast?_map]

theorem forbidsAfter_bare (rows : List ActiveDirectiveRow) (after : Nat) :
    (forbidsAfter rows after).map ActiveDirectiveRow.bare
      = forbidsAfter (rows.map ActiveDirectiveRow.bare) after := by
  rw [forbidsAfter, forbidsAfter, ← filter_bare _ (fun _ => rfl), ← ordered_bare]

theorem forbidsAfter_eq (h : rows.Pairwise fun a b => a.seq ≠ b.seq) (after : Nat) :
    forbidsAfter rows after
      = (ordered (rows.filter (·.verb == .forbid))).filter fun row => decide (after < row.seq) := by
  refine eq_of_ascending ?_ (ordered_pairwise (h.filter _)) ((ordered_pairwise (h.filter _)).filter _)
  refine (perm_ordered _).trans ?_
  have hsplit : (rows.filter fun row => row.verb == .forbid && decide (after < row.seq))
      = (rows.filter (·.verb == .forbid)).filter fun row => decide (after < row.seq) := by
    rw [List.filter_filter]
    exact List.filter_congr fun row _ => Bool.and_comm _ _
  rw [hsplit]
  exact (perm_ordered _).symm.filter _

theorem forbidsAfter_verb {after : Nat} {row : ActiveDirectiveRow}
    (hrow : row ∈ forbidsAfter rows after) : row.verb = .forbid := by
  have hmem := (List.mem_filter.mp (mem_ordered.mp hrow)).2
  exact beq_iff_eq.mp (Bool.and_eq_true_iff.mp hmem).1

theorem latestFocus_verb {row : ActiveDirectiveRow} (hrow : latestFocus rows = some row) :
    row ∈ rows ∧ row.verb ≠ .forbid := by
  have hmem := mem_ordered.mp (List.mem_of_getLast? hrow)
  obtain ⟨hmem, hverb⟩ := List.mem_filter.mp hmem
  exact ⟨hmem, bne_iff_ne.mp hverb⟩

/-- The focus state of some rows: the focus or unfocus with the greatest
number, if there is any. -/
def IsLatest (rows : List ActiveDirectiveRow) : Option ActiveDirectiveRow → Prop
  | none => ∀ row ∈ rows, row.verb = .forbid
  | some focus => focus ∈ rows ∧ focus.verb ≠ .forbid
      ∧ ∀ row ∈ rows, row.verb ≠ .forbid → row.seq ≤ focus.seq

theorem isLatest_latestFocus (rows : List ActiveDirectiveRow) : IsLatest rows (latestFocus rows) := by
  cases hlast : latestFocus rows with
  | none =>
      intro row hrow
      by_contra hverb
      have hnil := List.getLast?_eq_none_iff.mp hlast
      have hmem : row ∈ ordered (rows.filter (·.verb != .forbid)) :=
        mem_ordered.mpr (List.mem_filter.mpr ⟨hrow, bne_iff_ne.mpr hverb⟩)
      rw [hnil] at hmem
      cases hmem
  | some focus =>
      obtain ⟨hmem, hverb⟩ := latestFocus_verb hlast
      refine ⟨hmem, hverb, fun row hrow hrowVerb => ?_⟩
      have hin : row ∈ ordered (rows.filter (·.verb != .forbid)) :=
        mem_ordered.mpr (List.mem_filter.mpr ⟨hrow, bne_iff_ne.mpr hrowVerb⟩)
      obtain ⟨init, hinit⟩ := List.getLast?_eq_some_iff.mp hlast
      have hle := KeyedSort.pairwise_insertionSort rowLe_compares
        (rows.filter (·.verb != .forbid))
      change (ordered _).Pairwise _ at hle
      rw [hinit] at hle hin
      rcases List.mem_append.mp hin with hbefore | hself
      · exact seq_le_of_key ((List.pairwise_append.mp hle).2.2 row hbefore focus
          (List.mem_singleton.mpr rfl))
      · rw [List.mem_singleton.mp hself]

end Order

end Asimposium.Directives

/-!
## What a page is read from

A page that is served was selected by one statement that found the
credential's authority (`Authorized`), the snapshot that the cursor names, and
after it the focus and a stretch of the forbids.
-/

namespace Asimposium.Directives

open Codec (Number Value)
open Text (decimal)

/-! ## Receipts of one Fellow -/

section Receipts

variable {db : Db} {binding : Binding} {problemId : Option Text}

theorem applicable_distinct (h : db.Numbered) :
    (applicable db binding problemId).Pairwise fun a b => a.seq ≠ b.seq := by
  have hids : (db.directives.filter (isScoped binding problemId)).Pairwise
      fun d d' => d.id ≠ d'.id := (List.pairwise_map.mp h.directives).filter _
  refine List.Pairwise.filterMap _ ?_ (List.Pairwise.and_mem.mp hids)
  rintro d d' ⟨hd, hd', hne⟩ row hrow row' hrow' hseq
  obtain ⟨n, hn, hfellow, _, htarget, _, rfl⟩ := receiptOf?_some hrow
  obtain ⟨n', hn', hfellow', _, htarget', _, rfl⟩ := receiptOf?_some hrow'
  have hscoped := isScoped_fellow (List.mem_filter.mp hd).2
  have hscoped' := isScoped_fellow (List.mem_filter.mp hd').2
  have hsame : n.fellowId = n'.fellowId := by
    rw [hfellow, hfellow', hscoped.1, hscoped'.1]
  have hnotice := h.distinct _ _ n n' hn hn' hsame hseq
  rw [hnotice, hn'] at hn
  obtain rfl := Option.some.inj hn
  exact hne (Option.some.inj (htarget.symm.trans htarget'))

theorem applicable_pos (h : db.Numbered) {row : ActiveDirectiveRow}
    (hrow : row ∈ applicable db binding problemId) : 0 < row.seq := by
  obtain ⟨d, _, _, hreceipt⟩ := mem_applicable.mp hrow
  obtain ⟨n, hn, _, _, _, _, rfl⟩ := receiptOf?_some hreceipt
  exact h.positive _ n hn

end Receipts

/-! ## Authority -/

/-- The credential of a binding has authority for a problem. -/
structure Authorized {F : Type} (π : Platform F) (db : Db) (binding : Binding)
    (problemId : Option Text) (f : Fellow) (t : Token) (g : Grant) : Prop where
  fellow : db.fellows binding.fellowId = some f
  token : db.tokens binding.credentialId = some t
  grant : db.grants binding.fellowId = some g
  sponsor : db.sponsors f.sponsorId = some none
  /-- it was issued to this Fellow, who still has this sponsor -/
  owner : t.fellowId = binding.fellowId
  current : f.sponsorId = binding.sponsorId ∧ t.sponsorId = binding.sponsorId
    ∧ g.sponsorId = binding.sponsorId
  secret : t.tokenHash = binding.tokenHash ∧ t.credentialProfile = text "bearer"
  /-- the grant was not reduced -/
  granted : g.grantedScopesJson = t.grantedScopesJson
    ∧ g.grantedResourcesJson = t.grantedResourcesJson
  unrevoked : t.revokedAt = none
  status : f.status = text "active" ∨ f.status = text "suspicious_review"
  unexpired : t.issuedAt ≤ db.now ∧ db.now < t.expiresAt
    ∧ db.now < ((π.resources t.grantedResourcesJson).fellowGrantExpiresAt.or
      (π.resources t.grantedResourcesJson).fellow_grant_expires_at).getD t.expiresAt
  /-- no panic of the sponsor since -/
  calm : ∀ panic, db.panicAt binding.sponsorId = some panic →
    panic < t.issuedAt ∧ panic < g.grantedAt
  reaches : ∀ id, problemId = some id → reachesProblem π db binding f t id = true

section Authority

variable {F : Type} {π : Platform F} {db : Db} {binding : Binding} {problemId : Option Text}

theorem authority_cases : authority π db binding problemId = []
    ∨ authority π db binding problemId = [()] ∧ ∃ f t g, Authorized π db binding problemId f t g := by
  unfold authority
  split
  · rename_i f t g hf ht hg
    split
    · rename_i tombstonedAt hsponsor
      split
      · rename_i hadmits
        refine .inr ⟨rfl, f, t, g, ?_⟩
        simp only [admits, Bool.and_eq_true, Bool.or_eq_true, beq_iff_eq, decide_eq_true_eq,
          Option.isNone_iff_eq_none] at hadmits
        obtain ⟨⟨⟨⟨⟨⟨⟨⟨⟨⟨⟨⟨⟨⟨⟨⟨howner, htoken⟩, hgrant⟩, hscopes⟩, hresources⟩, htombstone⟩,
          hsponsorId⟩, hhash⟩, hprofile⟩, hrevoked⟩, hstatus⟩, hissued⟩, hexpires⟩, hexpiry⟩,
          hpanic⟩, hpanic'⟩, hproblem⟩ := hadmits
        refine { fellow := hf, token := ht, grant := hg, sponsor := ?_, owner := howner,
                 current := ⟨hsponsorId, htoken.trans hsponsorId, hgrant.trans hsponsorId⟩,
                 secret := ⟨hhash, hprofile⟩, granted := ⟨hscopes, hresources⟩,
                 unrevoked := hrevoked, status := hstatus,
                 unexpired := ⟨hissued, hexpires, hexpiry⟩, calm := ?_, reaches := ?_ }
        · rw [hsponsor, htombstone]
        · intro panic hat
          rw [hsponsorId, hat] at hpanic hpanic'
          exact ⟨hpanic, hpanic'⟩
        · intro id hid
          rw [hid] at hproblem
          exact hproblem
      · exact .inl rfl
    · exact .inl rfl
  · exact .inl rfl

theorem Authorized.source {f : Fellow} {t : Token} {g : Grant}
    (h : Authorized π db binding problemId f t g)
    (hauthority : authority π db binding problemId = [()]) :
    Directives.source π db binding problemId = applicable db binding problemId := by
  rw [Directives.source, hauthority, if_neg (by decide), applicable, List.filterMap_filter]
  refine List.filterMap_congr fun d _ => ?_
  by_cases hscoped : isScoped binding problemId d = true
  · obtain ⟨hfellow, hsponsor⟩ := isScoped_fellow hscoped
    rw [hscoped, if_pos rfl, hfellow, h.fellow]
    refine if_pos ?_
    simp [hsponsor, h.current.1]
  · rw [Bool.not_eq_true] at hscoped
    rw [hscoped, if_neg (by simp), if_neg (by decide)]

end Authority

/-! ## Pages -/

section Pages

variable {F : Type} {π : Platform F} {db : Db} {binding : Binding}
  {query : ActiveDirectiveQuery}

def selected (rows : List ActiveDirectiveRow) (after limit : Nat) : List ActiveDirectiveRow :=
  (latestFocus rows).toList ++ (forbidsAfter rows after).take limit

theorem mem_forbidsAfter {rows : List ActiveDirectiveRow} {after : Nat} {row : ActiveDirectiveRow} :
    row ∈ forbidsAfter rows after ↔ row ∈ rows ∧ row.verb = .forbid ∧ after < row.seq := by
  rw [forbidsAfter, mem_ordered, List.mem_filter, Bool.and_eq_true, beq_iff_eq, decide_eq_true_eq]

theorem selected_distinct {rows : List ActiveDirectiveRow}
    (h : rows.Pairwise fun a b => a.seq ≠ b.seq) (after limit : Nat) :
    (selected rows after limit).Pairwise fun a b => a.seq ≠ b.seq := by
  have hforbids : (forbidsAfter rows after).Pairwise fun a b => a.seq ≠ b.seq :=
    (ordered_pairwise (h.filter _)).imp Nat.ne_of_lt
  rw [selected, List.pairwise_append]
  refine ⟨?_, hforbids.sublist (List.take_sublist _ _), ?_⟩
  · cases latestFocus rows with
    | none => exact .nil
    | some focus => exact List.pairwise_singleton _ _
  · intro focus hfocus row hrow
    obtain ⟨hmem, hverb⟩ := latestFocus_verb (Option.mem_toList.mp hfocus)
    obtain ⟨hmem', hverb', _⟩ := mem_forbidsAfter.mp (List.mem_of_mem_take hrow)
    have : Std.Symm fun a b : ActiveDirectiveRow => a.seq ≠ b.seq := ⟨fun _ _ hne => hne.symm⟩
    refine h.forall hmem hmem' ?_
    rintro rfl
    exact hverb hverb'

theorem find?_selected (rows : List ActiveDirectiveRow) (after limit : Nat) :
    (ordered (selected rows after limit)).find? (·.verb != .forbid) = latestFocus rows := by
  have hforbids : ((forbidsAfter rows after).take limit).filter (·.verb != .forbid) = [] := by
    rw [List.filter_eq_nil_iff]
    intro row hrow
    simp [forbidsAfter_verb (List.mem_of_mem_take hrow)]
  have hperm : ((ordered (selected rows after limit)).filter (·.verb != .forbid)).Perm
      (latestFocus rows).toList := by
    refine ((perm_ordered _).filter _).trans ?_
    rw [selected, List.filter_append, hforbids, List.append_nil]
    cases hfocus : latestFocus rows with
    | none => exact .nil
    | some focus =>
        have hverb := (latestFocus_verb hfocus).2
        rw [Option.toList_some, List.filter_cons_of_pos (by simpa using hverb), List.filter_nil]
  rw [← List.head?_filter]
  cases hfocus : latestFocus rows with
  | none =>
      rw [hfocus] at hperm
      rw [hperm.eq_nil]
      rfl
  | some focus =>
      rw [hfocus] at hperm
      rw [hperm.eq_singleton]
      rfl

theorem filter_selected {rows : List ActiveDirectiveRow}
    (h : rows.Pairwise fun a b => a.seq ≠ b.seq) (after limit : Nat) :
    (ordered (selected rows after limit)).filter (·.verb == .forbid)
      = (forbidsAfter rows after).take limit := by
  have hascending : (forbidsAfter rows after).Pairwise fun a b => a.seq < b.seq :=
    ordered_pairwise (h.filter _)
  refine eq_of_ascending ?_ ((ordered_pairwise (selected_distinct h after limit)).filter _)
    (hascending.sublist (List.take_sublist _ _))
  refine ((perm_ordered _).filter _).trans ?_
  have hfocus : (latestFocus rows).toList.filter (·.verb == .forbid) = [] := by
    rw [List.filter_eq_nil_iff]
    intro row hrow
    simp [(latestFocus_verb (Option.mem_toList.mp hrow)).2]
  have hforbids : ((forbidsAfter rows after).take limit).filter (·.verb == .forbid)
      = (forbidsAfter rows after).take limit := by
    rw [List.filter_eq_self]
    intro row hrow
    simp [forbidsAfter_verb (List.mem_of_mem_take hrow)]
  rw [selected, List.filter_append, hfocus, hforbids, List.nil_append]

structure Served (π : Platform F) (db : Db) (binding : Binding) (query : ActiveDirectiveQuery)
    (expected : Option Nat) (after : Nat) (page : ActiveDirectiveResponse) : Prop where
  authorized : ∃ f t g, Authorized π db binding query.problemId f t g
  named : ∀ n, expected = some n → n = snapshotSeq (applicable db binding query.problemId)
  focus : page.focus = (latestFocus (applicable db binding query.problemId)).map (receipt binding)
  forbids : page.forbids = ((forbidsAfter (applicable db binding query.problemId) after).take
    query.limit.toNat).map (receipt binding)
  hasMore : page.hasMore = decide (query.limit.toNat
    < (forbidsAfter (applicable db binding query.problemId) after).length)
  cursor : page.nextCursor = if page.hasMore then
      ((forbidsAfter (applicable db binding query.problemId) after).take
        query.limit.toNat).getLast?.map fun last => cursorText (queryDigest π binding query)
          (snapshotSeq (applicable db binding query.problemId)) last.seq
    else none
  url : page.nextUrl = page.nextCursor.map fun cursor =>
    activeDirectivesUrl query.problemId (some query.limit) (some cursor)
  valid : page.isValid = true

theorem pageRows_rows {problemId : Option Text} {expected : Option Nat} {after limit : Nat}
    {f : Fellow} {t : Token} {g : Grant} (h : Authorized π db binding problemId f t g)
    (hauthority : authority π db binding problemId = [()])
    (hexpected : expected.all (· == snapshotSeq (applicable db binding problemId)) = true) :
    (pageRows π db binding problemId expected after limit).filterMap (·.row)
      = ordered (selected (applicable db binding problemId) after limit) := by
  rw [pageRows, h.source hauthority, hauthority, List.flatMap_singleton,
    if_pos hexpected, ← selected, List.filterMap_map]
  cases hselected : selected (applicable db binding problemId) after limit with
  | nil => rfl
  | cons row rows =>
      rw [List.isEmpty_cons, if_neg (by decide), List.filterMap_map]
      exact List.filterMap_some

theorem pageRows_snapshot {problemId : Option Text} {expected : Option Nat} {after limit : Nat}
    {f : Fellow} {t : Token} {g : Grant} (h : Authorized π db binding problemId f t g)
    (hauthority : authority π db binding problemId = [()]) {state : PageRow}
    (hstate : state ∈ pageRows π db binding problemId expected after limit) :
    state.snapshotSeq = snapshotSeq (applicable db binding problemId) := by
  rw [pageRows, h.source hauthority, hauthority, List.flatMap_singleton, List.mem_map] at hstate
  obtain ⟨row, _, rfl⟩ := hstate
  rfl

theorem readActiveDirectivePage_rows {success : Bool} {page : ActiveDirectiveResponse}
    (h : readActiveDirectivePage π db success binding query = .ok page) :
    query.isValid = true ∧ ∃ expected after f t g,
      readCursor π binding query = .ok (expected, after)
      ∧ Authorized π db binding query.problemId f t g
      ∧ (∀ n, expected = some n → n = snapshotSeq (applicable db binding query.problemId))
      ∧ page = respond π binding query (snapshotSeq (applicable db binding query.problemId))
        (ordered (selected (applicable db binding query.problemId) after (query.limit.toNat + 1)))
      ∧ page.isValid = true := by
  unfold readActiveDirectivePage at h
  split at h
  · cases h
  rename_i hvalid
  refine ⟨by simpa using hvalid, ?_⟩
  cases hcursor : readCursor π binding query with
  | error e => rw [hcursor] at h; cases h
  | ok position =>
      obtain ⟨expected, after⟩ := position
      rw [hcursor] at h
      dsimp only at h
      split at h
      · cases h
      rcases (authority_cases : authority π db binding query.problemId = [] ∨ _) with
        hnone | ⟨hauthority, f, t, g, hauthorized⟩
      · rw [pageRows, hnone, List.flatMap_nil] at h
        cases h
      refine ⟨expected, after, f, t, g, rfl, hauthorized, ?_⟩
      split at h
      · cases h
      rename_i state rest hrows
      have hstate : state ∈ pageRows π db binding query.problemId expected after
          (query.limit.toNat + 1) := by
        rw [hrows]
        exact List.mem_cons_self ..
      have hsnapshot := pageRows_snapshot hauthorized hauthority hstate
      split at h
      · cases h
      split at h
      · cases h
      rename_i hchanged
      split at h
      · cases h
      rw [hsnapshot] at hchanged h
      have hexpected : ∀ n, expected = some n
          → n = snapshotSeq (applicable db binding query.problemId) := by
        rintro n rfl
        simpa using hchanged
      have hall : expected.all (· == snapshotSeq (applicable db binding query.problemId)) = true := by
        cases expected with
        | none => rfl
        | some n => exact beq_iff_eq.mpr (hexpected n rfl)
      rw [pageRows_rows hauthorized hauthority hall] at h
      split at h
      · rename_i hresponse
        cases h
        exact ⟨hexpected, rfl, hresponse⟩
      · cases h

theorem readActiveDirectivePage_ok (hdistinct : (applicable db binding query.problemId).Pairwise
      fun a b => a.seq ≠ b.seq) {success : Bool} {page : ActiveDirectiveResponse}
    (h : readActiveDirectivePage π db success binding query = .ok page) :
    query.isValid = true ∧ ∃ expected after, readCursor π binding query = .ok (expected, after)
      ∧ Served π db binding query expected after page := by
  obtain ⟨hvalid, expected, after, f, t, g, hcursor, hauthorized, hnamed, hpage, hresponse⟩ :=
    readActiveDirectivePage_rows h
  have hlength : ((forbidsAfter (applicable db binding query.problemId) after).take
      (query.limit.toNat + 1)).take query.limit.toNat
      = (forbidsAfter (applicable db binding query.problemId) after).take query.limit.toNat := by
    rw [List.take_take, min_eq_left (Nat.le_succ _)]
  refine ⟨hvalid, expected, after, hcursor, ⟨f, t, g, hauthorized⟩, hnamed, ?_, ?_, ?_, ?_, ?_,
    hresponse⟩
  · rw [hpage, respond]
    dsimp only
    rw [find?_selected]
  · rw [hpage, respond]
    dsimp only
    rw [filter_selected hdistinct, hlength]
  · rw [hpage, respond]
    dsimp only
    rw [filter_selected hdistinct, List.length_take]
    rw [decide_eq_decide]
    omega
  · rw [hpage, respond]
    dsimp only
    rw [filter_selected hdistinct, hlength]
  · rw [hpage, respond]

end Pages

end Asimposium.Directives
