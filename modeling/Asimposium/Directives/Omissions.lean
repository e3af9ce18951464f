import Asimposium.Directives.Contract
import Asimposium.Render.PackOmissions

/-!
# Omitted sponsor directives

A pack that could not take every sponsor directive names the missing ones in
one record. The record takes room itself, so the pack is composed again with
it until two compositions in a row miss the same directives.

The record only grows: a composition with the record keeps no more than the
one that was named (`Composition.kept_le`), so what was missing stays
missing, and each further round names at least one directive more.
-/

namespace Asimposium

open Text Json

/-! ## The loop -/

def isSponsorDirective (candidate : PackCandidate) : Bool :=
  candidate.kind == text "sponsor-directive"

def directivesOf (input : PackComposerInput) : List PackCandidate :=
  input.candidates.filter isSponsorDirective

/-- `missing`: the identities of the directives that are no items of the
pack. -/
def missingDirectives (input : PackComposerInput) (composed : ComposedPack) : List Text :=
  ((directivesOf input).filter fun item => !(composed.items.map (·.id)).contains item.id).map (·.id)

/-- `missing.join(",")`. -/
def missingKey (missing : List Text) : Text := [unit ','].intercalate missing

def recordOpening : Text := text "sponsor-directives: budget omitted "

def recordRest (problem : Text) : Text :=
  text ". Before acting, GET " ++ Directives.activeDirectivesUrl (some problem) none none
    ++ text "; follow every next_url while has_more. On DIRECTIVE_SET_CHANGED, restart."

def budgetRecord (problem key : Text) : OmittedEntry where
  reason := text "budget_exceeded"
  detail := some (recordOpening ++ key ++ recordRest problem)

/-- `item.detail?.startsWith("sponsor-directives: budget")`. -/
def isBudgetRecord (entry : OmittedEntry) : Bool :=
  entry.detail.any fun detail => detail.startsWith (text "sponsor-directives: budget")

def declaredNext (input : PackComposerInput) (composed : ComposedPack) (key : Text) :
    List OmittedEntry :=
  composed.omitted.filter (fun entry => !isBudgetRecord entry) ++ [budgetRecord input.problem key]

/-- The loop, with its fuel, at the key of the round before and the pack
composed last. -/
def accountFrom (renderer : Renderer) (input : PackComposerInput) :
    Nat → Text → ComposedPack → Option (Except PackFailure ComposedPack)
  | 0, _, _ => none
  | fuel + 1, prior, composed =>
      let missing := missingDirectives input composed
      if missing = [] ∨ missingKey missing = prior then some (.ok composed)
      else match composePack renderer
          (input.omitting (some (declaredNext input composed (missingKey missing)))) with
        | .error failure => some (.error failure)
        | .ok next => accountFrom renderer input fuel (missingKey missing) next

def accountSponsorDirectiveOmissions (renderer : Renderer) (fuel : Nat)
    (input : PackComposerInput) (initial : ComposedPack) :
    Option (Except PackFailure ComposedPack) :=
  accountFrom renderer input fuel [] initial

/-! ## What a record names -/

/-- The identities in the detail of a record: from its opening to the full
stop before the next blank, split at the commas. -/
def identitiesIn (detail : Text) : List Text :=
  (((detail.drop recordOpening.length).takeWhile fun u => u != unit ' ').dropLast).splitOn (unit ',')

def namedDirectives (omitted : List OmittedEntry) : List Text :=
  (omitted.filter isBudgetRecord).flatMap fun entry => (entry.detail.map identitiesIn).getD []

section Names

variable {missing : List Text}

theorem isItemId_chars {t : Text} (h : isItemId t = true) {u : UInt16} (hu : u ∈ t) :
    (isAlphanumeric u || (text "@#._-").contains u) = true := by
  cases t with
  | nil => cases hu
  | cons head rest =>
      simp only [isItemId, Bool.and_eq_true] at h
      rcases List.mem_cons.mp hu with rfl | hmem
      · rw [h.1.1, Bool.true_or]
      · exact List.all_eq_true.mp h.1.2 u hmem

theorem isItemId_ne {t : Text} (h : isItemId t = true) : t ≠ [] := by
  rintro rfl
  cases h

theorem not_mem_itemId {t : Text} (h : isItemId t = true) {u : UInt16}
    (hu : (isAlphanumeric u || (text "@#._-").contains u) = false) : u ∉ t := by
  intro hmem
  rw [isItemId_chars h hmem] at hu
  cases hu

theorem identitiesIn_budgetRecord (problem : Text) (hids : ∀ id ∈ missing, isItemId id = true)
    (hne : missing ≠ []) :
    identitiesIn (recordOpening ++ missingKey missing ++ recordRest problem) = missing := by
  have hblank : unit ' ' ∉ missingKey missing :=
    not_mem_intercalate (by decide) fun id hid => not_mem_itemId (hids id hid) (by decide)
  have hrest : recordRest problem = unit '.' :: unit ' ' :: (text "Before acting, GET "
      ++ Directives.activeDirectivesUrl (some problem) none none
      ++ text "; follow every next_url while has_more. On DIRECTIVE_SET_CHANGED, restart.") := rfl
  have htaken : (missingKey missing ++ recordRest problem).takeWhile (fun u => u != unit ' ')
      = missingKey missing ++ [unit '.'] := by
    rw [List.takeWhile_append_of_pos]
    · rw [hrest, List.takeWhile_cons_of_pos (by decide), List.takeWhile_cons_of_neg (by decide)]
    · intro u hu
      rw [bne_iff_ne]
      rintro rfl
      exact hblank hu
  rw [identitiesIn, List.append_assoc, List.drop_left, htaken, List.dropLast_concat, missingKey,
    List.splitOn_intercalate]
  · intro id hid
    exact not_mem_itemId (hids id hid) (by decide)
  · exact hne

theorem isBudgetRecord_budgetRecord (problem key : Text) :
    isBudgetRecord (budgetRecord problem key) = true := by
  have hopening : recordOpening = text "sponsor-directives: budget" ++ text " omitted " := by decide
  show (text "sponsor-directives: budget").isPrefixOf (recordOpening ++ key ++ recordRest problem)
    = true
  rw [List.isPrefixOf_iff_prefix, hopening, List.append_assoc, List.append_assoc]
  exact List.prefix_append _ _

end Names

/-! ## The size of a record -/

def isVerbatim (u : UInt16) : Bool :=
  isAscii u && decide (0x20 ≤ u) && u != unit '"' && u != unit '\\'

theorem escapeUnits_verbatim {u : UInt16} (h : isVerbatim u = true) (t : Text) :
    escapeUnits (u :: t) = u :: escapeUnits t := by
  simp only [isVerbatim, Bool.and_eq_true, bne_iff_ne, decide_eq_true_eq] at h
  obtain ⟨⟨⟨hascii, hge⟩, hquote⟩, hslash⟩ := h
  have hne : ∀ v : UInt16, v < 0x20 → u ≠ v := by
    rintro v hv rfl
    exact absurd hv (UInt16.not_lt.mpr hge)
  have hunit : escapeUnit u = [u] := by
    simp [escapeUnit, hquote, hslash, hne 8 (by decide), hne 9 (by decide), hne 10 (by decide),
      hne 12 (by decide), hne 13 (by decide), UInt16.not_lt.mpr hge, not_surrogate hascii]
  cases t with
  | nil => exact hunit
  | cons v rest =>
      rw [escapeUnits, if_neg (by simp [not_surrogate hascii]), hunit]
      rfl

theorem byteLength_quote_verbatim {s : Text} (h : ∀ u ∈ s, isVerbatim u = true) (t : Text) :
    byteLength (quote (s ++ t)) = s.length + byteLength (quote t) := by
  induction s with
  | nil => simp
  | cons u s ih =>
      rw [List.forall_mem_cons] at h
      have hascii : isAscii u = true := by
        have hu := h.1
        simp only [isVerbatim, Bool.and_eq_true] at hu
        exact hu.1.1.1
      have hsplit : byteLength (quote (u :: (s ++ t))) = 1 + byteLength (quote (s ++ t)) := by
        rw [quote, escapeUnits_verbatim h.1, quote, byteLength_cons (by decide), List.cons_append,
          byteLength_cons hascii, byteLength_cons (by decide)]
      rw [List.cons_append, hsplit, ih h.2, List.length_cons]
      omega

theorem omissionSize_budgetRecord (problem : Text) : ∃ rest, ∀ key : Text,
    (∀ u ∈ key, isVerbatim u = true) →
      omissionSize (budgetRecord problem key) = rest + key.length := by
  have hopening : ∀ u ∈ recordOpening, isVerbatim u = true := by decide
  refine ⟨omissionSize { reason := text "budget_exceeded", detail := some [] }
    + recordOpening.length + byteLength (quote (recordRest problem)) - byteLength (quote []),
    fun key hkey => ?_⟩
  have hsize : ∀ detail : Text,
      omissionSize { reason := text "budget_exceeded", detail := some detail }
        = omissionSize { reason := text "budget_exceeded", detail := some [] }
          - byteLength (quote []) + byteLength (quote detail)
        ∧ byteLength (quote [])
          ≤ omissionSize { reason := text "budget_exceeded", detail := some [] } := by
    intro detail
    have hmembers : ∀ detail : Text,
        omissionSize { reason := text "budget_exceeded", detail := some detail }
          = 1 + newlineSize 2 4 + (1 + newlineSize 2 6 + keySize 2 (text "reason")
            + byteLength (quote (text "budget_exceeded"))
            + (1 + newlineSize 2 6 + keySize 2 (text "detail") + byteLength (quote detail))) :=
      fun _ => rfl
    rw [hmembers, hmembers]
    omega
  have hdetail : byteLength (quote (recordOpening ++ key ++ recordRest problem))
      = recordOpening.length + key.length + byteLength (quote (recordRest problem)) := by
    rw [byteLength_quote_verbatim, List.length_append]
    intro u hu
    rcases List.mem_append.mp hu with hmem | hmem
    · exact hopening u hmem
    · exact hkey u hmem
  obtain ⟨hdiffer, hle⟩ := hsize (recordOpening ++ key ++ recordRest problem)
  rw [budgetRecord, hdiffer, hdetail]
  omega

theorem missingKey_length {missing : List Text} (h : missing ≠ []) :
    (missingKey missing).length + 1 = (missing.map fun id => id.length + 1).sum := by
  induction missing with
  | nil => exact absurd rfl h
  | cons id missing ih =>
      cases missing with
      | nil => simp [missingKey]
      | cons next rest =>
          have htail := ih (List.cons_ne_nil _ _)
          rw [missingKey, List.intercalate_cons_cons, List.length_append, List.length_append,
            List.map_cons, List.sum_cons, ← htail, missingKey, List.length_singleton]
          omega

theorem omissionSize_mono (problem : Text) {missing missing' : List Text}
    (hids : ∀ id ∈ missing', isItemId id = true) (hne : missing ≠ [])
    (h : missing.Sublist missing') :
    omissionSize (budgetRecord problem (missingKey missing))
      ≤ omissionSize (budgetRecord problem (missingKey missing')) := by
  have hchars : ∀ {u : UInt16}, (isAlphanumeric u || (text "@#._-").contains u) = true →
      isVerbatim u = true := by
    intro u hu
    rcases Bool.or_eq_true _ _ ▸ hu with hu | hu
    · have hplain : isPlain u = true := by rw [isPlain, hu, Bool.true_or]
      have hdiffers : ∀ v, isPlain v = false → u ≠ v := by
        rintro v hv rfl
        rw [hplain] at hv
        cases hv
      simp only [isVerbatim, Bool.and_eq_true, bne_iff_ne, decide_eq_true_eq]
      exact ⟨⟨⟨(isPlain_bounds hplain).2, (isPlain_bounds hplain).1⟩,
        hdiffers _ (by decide)⟩, hdiffers _ (by decide)⟩
    · exact (by decide : ∀ v ∈ text "@#._-", isVerbatim v = true) u
        (List.contains_iff_mem.mp hu)
  have hkey : ∀ {ids : List Text}, (∀ id ∈ ids, isItemId id = true) →
      ∀ u ∈ missingKey ids, isVerbatim u = true := by
    intro ids hids u hu
    by_contra hnot
    have hmember : u ∈ [unit ','].intercalate ids := hu
    refine not_mem_intercalate ?_ ?_ hmember
    · rintro hmem
      obtain rfl := List.mem_singleton.mp hmem
      exact hnot (by decide)
    · intro id hid hmem
      exact hnot (hchars (isItemId_chars (hids id hid) hmem))
  obtain ⟨rest, hrest⟩ := omissionSize_budgetRecord problem
  rw [hrest _ (hkey fun id hid => hids id (h.subset hid)), hrest _ (hkey hids)]
  have hne' : missing' ≠ [] := by
    rintro rfl
    exact hne (List.sublist_nil.mp h)
  have hlength := missingKey_length hne
  have hlength' := missingKey_length hne'
  have hsum := (h.map fun id => id.length + 1).sum_le_sum fun _ _ => Nat.zero_le _
  omega

/-! ## One round -/

section Round

variable {renderer : Renderer} {input : PackComposerInput} {composed next : ComposedPack}
  {declared : Option (List OmittedEntry)} {draft : Draft} {kept : Nat}

theorem Composition.records (h : Composition renderer (input.omitting declared) draft kept composed) :
    (composed.omitted.filter isBudgetRecord).Perm
      (((declared.getD []).filter (staysOmitted draft.sections)).filter isBudgetRecord) := by
  have hdrafted : Drafted renderer ((input.omitting declared).omitting declared) draft := h.drafted
  obtain ⟨_, added, hadded, homitted, _⟩ := h.drafted.omitting hdrafted
  have hlisted : (listedOmitted declared).Perm (declared.getD []) := List.perm_insertionSort _ _
  have hplain : ∀ entries : List OmittedEntry, (∀ entry ∈ entries, entry.detail = none) →
      entries.filter isBudgetRecord = [] := by
    intro entries hentries
    rw [List.filter_eq_nil_iff]
    intro entry hentry
    simp [isBudgetRecord, hentries entry hentry]
  have hstatic : (draft.contents.omitted.filter isBudgetRecord).Perm
      (((declared.getD []).filter (staysOmitted draft.sections)).filter isBudgetRecord) := by
    rw [homitted, List.filter_append, hplain added fun entry hentry => (hadded entry hentry).1,
      List.append_nil]
    exact (hlisted.filter _).filter _
  rw [h.omitted, Draft.finalOmitted, Draft.omissions]
  have hmark : (if 0 < draft.visible.length - kept then [omission "budget_exceeded"]
      else []).filter isBudgetRecord = [] := by
    split
    · rfl
    · rfl
  generalize (if 0 < draft.visible.length - kept then [omission "budget_exceeded"] else []) = mark
    at hmark ⊢
  split
  · rename_i hempty
    rw [Bool.and_eq_true, List.isEmpty_iff, List.isEmpty_iff, List.append_eq_nil_iff] at hempty
    have hnone : draft.contents.omitted = [] := hempty.2.1
    rw [hnone] at hstatic
    exact hstatic
  · rw [List.filter_append, hmark, List.append_nil]
    exact hstatic

theorem declaredNext_records (key : Text) :
    (declaredNext input composed key).filter isBudgetRecord = [budgetRecord input.problem key] := by
  rw [declaredNext, List.filter_append, List.filter_filter, List.filter_singleton,
    isBudgetRecord_budgetRecord]
  simp

theorem declaredNext_stays (h : Composition renderer (input.omitting declared) draft kept composed)
    (key : Text) :
    ∀ entry ∈ declaredNext input composed key, staysOmitted draft.sections entry = true := by
  intro entry hentry
  rcases List.mem_append.mp hentry with hmem | hmem
  · exact h.stays entry (List.mem_filter.mp hmem).1
  · obtain rfl := List.mem_singleton.mp hmem
    exact staysOmitted_plain _ (by decide : text "budget_exceeded" ≠ _)

/-- Declaring the record takes no fewer bytes than what was published, as
long as the record before named no other directives. -/
theorem declaredNext_size {missing missing' : List Text}
    (hrecords : composed.omitted.filter isBudgetRecord = []
      ∨ composed.omitted.filter isBudgetRecord = [budgetRecord input.problem (missingKey missing)])
    (hids : ∀ id ∈ missing', isItemId id = true) (hne : missing ≠ [])
    (h : missing.Sublist missing') :
    omittedSize composed.omitted
      ≤ omittedSize (declaredNext input composed (missingKey missing')) := by
  have hsplit : (composed.omitted.filter (fun entry => !isBudgetRecord entry)
      ++ composed.omitted.filter isBudgetRecord).Perm composed.omitted :=
    List.perm_append_comm.trans (List.filter_append_perm _ _)
  rw [← omittedSize_perm hsplit]
  rcases hrecords with hnone | hone
  · rw [hnone, List.append_nil]
    exact omittedSize_append _ _
  · rw [hone]
    exact omittedSize_replaced (omissionSize_mono _ hids hne h) _

theorem missingDirectives_sublist {draft' : Draft} {kept' : Nat}
    (h : composed.items = prefixItems renderer.toSanitizer draft kept)
    (h' : next.items = prefixItems renderer.toSanitizer draft' kept')
    (hvisible : draft'.visible = draft.visible) (hle : kept' ≤ kept) :
    (missingDirectives input composed).Sublist (missingDirectives input next) := by
  refine List.Sublist.map _ (List.monotone_filter_right _ fun item hitem => ?_)
  rw [Bool.not_eq_true', List.contains_eq_mem, decide_eq_false_iff_not] at hitem ⊢
  refine fun hmem => hitem ?_
  rw [h', prefixItems, hvisible] at hmem
  rw [h, prefixItems]
  exact ((List.take_sublist_take_left hle).map _).map _ |>.subset hmem

theorem mem_missingDirectives (hids : ∀ item ∈ directivesOf input, isItemId item.id = true)
    (composed : ComposedPack) : ∀ id ∈ missingDirectives input composed, isItemId id = true := by
  intro id hid
  obtain ⟨item, hitem, rfl⟩ := List.mem_map.mp hid
  exact hids item (List.mem_filter.mp hitem).1

theorem round (hmember : input.isOutsider = false)
    (hids : ∀ item ∈ directivesOf input, isItemId item.id = true)
    (hsafe : ∀ candidate ∈ draft.visible, wholeItemTokens renderer.toSanitizer candidate
      ≤ maxSafeInteger)
    (h : Composition renderer (input.omitting declared) draft kept composed)
    {missing : List Text} (hne : missing ≠ [])
    (hsublist : missing.Sublist (missingDirectives input composed))
    (hrecords : composed.omitted.filter isBudgetRecord = []
      ∨ composed.omitted.filter isBudgetRecord = [budgetRecord input.problem (missingKey missing)])
    (hnext : composePack renderer (input.omitting (some (declaredNext input composed
      (missingKey (missingDirectives input composed))))) = .ok next) :
    ∃ draft' kept', Composition renderer (input.omitting (some (declaredNext input composed
        (missingKey (missingDirectives input composed))))) draft' kept' next
      ∧ draft'.visible = draft.visible
      ∧ next.omitted.filter isBudgetRecord
        = [budgetRecord input.problem (missingKey (missingDirectives input composed))]
      ∧ (missingDirectives input composed).Sublist (missingDirectives input next) := by
  obtain ⟨draft', kept', h'⟩ := composition_of_ok
    (show (input.omitting (some _)).isOutsider = false from hmember) hnext
  have hagain : Composition renderer ((input.omitting declared).omitting (some (declaredNext input
      composed (missingKey (missingDirectives input composed))))) draft' kept' next := h'
  have hdraft' := (h.drafted.omitting hagain.drafted).1
  have hvisible : draft'.visible = draft.visible := by rw [hdraft']; rfl
  have hmissing := mem_missingDirectives hids composed
  have hstays := declaredNext_stays h (missingKey (missingDirectives input composed))
  have hle := h.kept_le hagain hsafe
    (List.append_ne_nil_of_right_ne_nil _ (List.cons_ne_nil _ _)) hstays
    (declaredNext_size hrecords hmissing hne hsublist)
  refine ⟨draft', kept', h', hvisible, ?_, missingDirectives_sublist h.items h'.items hvisible hle⟩
  have hperm := h'.records
  have hsections : draft'.sections = draft.sections := by rw [hdraft']; rfl
  rw [Option.getD_some, hsections, List.filter_eq_self.mpr hstays, declaredNext_records] at hperm
  exact List.perm_singleton.mp hperm

end Round

/-! ## The whole loop -/

/-- The omitted directives are accounted for: the records are that of the
missing directives, or none when none is missing. -/
def OmissionsAccounted (input : PackComposerInput) (pack : ComposedPack) : Prop :=
  pack.omitted.filter isBudgetRecord
      = (if missingDirectives input pack = [] then []
        else [budgetRecord input.problem (missingKey (missingDirectives input pack))])
    ∧ namedDirectives pack.omitted = missingDirectives input pack

section Loop

variable {renderer : Renderer} {input : PackComposerInput}

theorem missingDirectives_length (composed : ComposedPack) :
    (missingDirectives input composed).length ≤ (directivesOf input).length := by
  rw [missingDirectives, List.length_map]
  exact List.length_filter_le _ _

theorem omissionsAccounted_none {pack : ComposedPack}
    (hmissing : missingDirectives input pack = [])
    (hrecords : pack.omitted.filter isBudgetRecord = []) : OmissionsAccounted input pack := by
  rw [OmissionsAccounted, namedDirectives, hrecords, hmissing, if_pos rfl]
  exact ⟨rfl, rfl⟩

theorem omissionsAccounted_some (hids : ∀ item ∈ directivesOf input, isItemId item.id = true)
    {pack : ComposedPack} (hmissing : missingDirectives input pack ≠ [])
    (hrecords : pack.omitted.filter isBudgetRecord
      = [budgetRecord input.problem (missingKey (missingDirectives input pack))]) :
    OmissionsAccounted input pack := by
  rw [OmissionsAccounted, namedDirectives, hrecords, if_neg hmissing]
  refine ⟨rfl, ?_⟩
  rw [List.flatMap_singleton]
  exact identitiesIn_budgetRecord _ (mem_missingDirectives hids pack) hmissing

/-- From a pack with the record of some missing directives: the number bounds
how many more may come to miss. -/
theorem accountFrom_ends (hmember : input.isOutsider = false)
    (hids : ∀ item ∈ directivesOf input, isItemId item.id = true) {visible : List PackCandidate}
    (hsafe : ∀ candidate ∈ visible, wholeItemTokens renderer.toSanitizer candidate
      ≤ maxSafeInteger) (left : Nat) {missing : List Text} {composed : ComposedPack}
    {declared : Option (List OmittedEntry)} {draft : Draft} {kept : Nat}
    (h : Composition renderer (input.omitting declared) draft kept composed)
    (hvisible : draft.visible = visible) (hne : missing ≠ [])
    (hsublist : missing.Sublist (missingDirectives input composed))
    (hrecords : composed.omitted.filter isBudgetRecord
      = [budgetRecord input.problem (missingKey missing)])
    (hleft : (directivesOf input).length ≤ missing.length + left) :
    ∃ result, (∀ fuel, left + 1 ≤ fuel →
        accountFrom renderer input fuel (missingKey missing) composed = some result)
      ∧ result ≠ .error .unsettled
      ∧ ∀ pack, result = .ok pack → OmissionsAccounted input pack := by
  have hnonempty : missingDirectives input composed ≠ [] := by
    intro hnil
    rw [hnil] at hsublist
    exact hne (List.sublist_nil.mp hsublist)
  induction left generalizing missing composed declared draft kept with
  | zero =>
      have hlength : (missingDirectives input composed).length ≤ (directivesOf input).length :=
        missingDirectives_length composed
      obtain rfl := hsublist.eq_of_length_le (by omega)
      refine ⟨.ok composed, ?_, (fun hunsettled => nomatch hunsettled), ?_⟩
      · intro fuel hfuel
        obtain ⟨fuel, rfl⟩ := Nat.exists_eq_add_of_le' hfuel
        exact if_pos (.inr rfl)
      · intro pack hpack
        cases hpack
        exact omissionsAccounted_some hids hnonempty hrecords
  | succ left ih =>
      by_cases hkey : missingKey (missingDirectives input composed) = missingKey missing
      · refine ⟨.ok composed, ?_, (fun hunsettled => nomatch hunsettled), ?_⟩
        · intro fuel hfuel
          obtain ⟨fuel, rfl⟩ := Nat.exists_eq_add_of_le' (show 1 ≤ fuel by omega)
          exact if_pos (.inr hkey)
        · intro pack hpack
          cases hpack
          rw [← hkey] at hrecords
          exact omissionsAccounted_some hids hnonempty hrecords
      · have hmore : missing.length < (missingDirectives input composed).length := by
          by_contra hless
          exact hkey (congrArg missingKey (hsublist.eq_of_length_le (by omega)).symm)
        have hstep : ∀ fuel, accountFrom renderer input (fuel + 1) (missingKey missing) composed
            = match composePack renderer (input.omitting (some (declaredNext input composed
                (missingKey (missingDirectives input composed))))) with
              | .error failure => some (.error failure)
              | .ok next => accountFrom renderer input fuel
                  (missingKey (missingDirectives input composed)) next :=
          fun fuel => if_neg (not_or.mpr ⟨hnonempty, hkey⟩)
        cases hnext : composePack renderer (input.omitting (some (declaredNext input composed
            (missingKey (missingDirectives input composed))))) with
        | error failure =>
            refine ⟨.error failure, ?_, ?_, fun pack hpack => nomatch hpack⟩
            · intro fuel hfuel
              obtain ⟨fuel, rfl⟩ := Nat.exists_eq_add_of_le' (show 1 ≤ fuel by omega)
              rw [hstep, hnext]
            · rintro ⟨⟩
              exact settles_composePackWithSelectionEstimator renderer _ false hnext
        | ok next =>
            obtain ⟨draft', kept', h', hvisible', hrecords', hsublist'⟩ := round hmember hids
              (fun candidate hcandidate => hsafe candidate (hvisible ▸ hcandidate)) h hne hsublist
              (.inr hrecords) hnext
            have hnonempty' : missingDirectives input next ≠ [] := by
              intro hnil
              rw [hnil] at hsublist'
              exact hnonempty (List.sublist_nil.mp hsublist')
            obtain ⟨result, hresult, hsettled, haccounted⟩ := ih h' (hvisible'.trans hvisible)
              hnonempty hsublist' hrecords' (by omega) hnonempty'
            refine ⟨result, ?_, hsettled, haccounted⟩
            intro fuel hfuel
            obtain ⟨fuel, rfl⟩ := Nat.exists_eq_add_of_le' (show 1 ≤ fuel by omega)
            rw [hstep, hnext]
            exact hresult fuel (by omega)

/-- What an input must have for its omitted directives to be accounted for:
its viewer is a member or the public, the directives have identities, and
the estimate of no candidate reaches the end of the safe integers, which a
string is too short for. -/
structure AccountableInput (renderer : Renderer) (input : PackComposerInput) : Prop where
  member : input.isOutsider = false
  ids : ∀ item ∈ directivesOf input, isItemId item.id = true
  estimates : ∀ candidate ∈ input.candidates,
    wholeItemTokens renderer.toSanitizer candidate ≤ maxSafeInteger

theorem AccountableInput.visible {declared : Option (List OmittedEntry)} {draft : Draft}
    (h : AccountableInput renderer input) (hdrafted : Drafted renderer (input.omitting declared) draft) :
    ∀ candidate ∈ draft.visible, wholeItemTokens renderer.toSanitizer candidate
      ≤ maxSafeInteger := by
  obtain ⟨_, viewer, _, _, _, hviewer, _, hdraft⟩ := hdrafted
  obtain ⟨_, _, _, rfl⟩ := draftPack_ok.mp hdraft
  intro candidate hcandidate
  obtain ⟨given, hgiven, rfl⟩ := (mem_draftOf_visible hviewer candidate).mp hcandidate
  exact h.estimates given (List.mem_filter.mp hgiven).1

theorem accountSponsorDirectiveOmissions_stops {initial : ComposedPack}
    (h : missingDirectives input initial = [] ∨ missingKey (missingDirectives input initial) = [])
    (fuel : Nat) :
    accountSponsorDirectiveOmissions renderer (fuel + 1) input initial = some (.ok initial) :=
  if_pos h

/-- The loop ends on every pack that was composed from the input, under
whatever omissions other than records of its own, and in the pack it returns
the one record names exactly the directives that are no items. -/
theorem accountSponsorDirectiveOmissions_exact (h : AccountableInput renderer input)
    {declared : Option (List OmittedEntry)} {initial : ComposedPack}
    (hdeclared : ∀ entry ∈ declared.getD [], isBudgetRecord entry = false)
    (hinitial : composePack renderer (input.omitting declared) = .ok initial) :
    ∃ result, (∀ fuel, (directivesOf input).length + 1 ≤ fuel →
        accountSponsorDirectiveOmissions renderer fuel input initial = some result)
      ∧ result ≠ .error .unsettled
      ∧ ∀ pack, result = .ok pack → OmissionsAccounted input pack := by
  obtain ⟨draft, kept, hcomposition⟩ := composition_of_ok
    (show (input.omitting declared).isOutsider = false from h.member) hinitial
  have hrecords : initial.omitted.filter isBudgetRecord = [] := by
    have hperm := hcomposition.records
    have hnone : ((declared.getD []).filter (staysOmitted draft.sections)).filter isBudgetRecord
        = [] := by
      rw [List.filter_eq_nil_iff]
      intro entry hentry
      rw [hdeclared entry (List.mem_filter.mp hentry).1]
      exact Bool.false_ne_true
    rw [hnone] at hperm
    exact hperm.eq_nil
  by_cases hmissing : missingDirectives input initial = []
  · refine ⟨.ok initial, ?_, (fun hunsettled => nomatch hunsettled), ?_⟩
    · intro fuel hfuel
      obtain ⟨fuel, rfl⟩ := Nat.exists_eq_add_of_le' (show 1 ≤ fuel by omega)
      exact accountSponsorDirectiveOmissions_stops (.inl hmissing) fuel
    · intro pack hpack
      cases hpack
      exact omissionsAccounted_none hmissing hrecords
  · -- identities are not empty, so the first key is not that of no round
    have hkey : missingKey (missingDirectives input initial) ≠ [] := by
      intro hnil
      have hlength := missingKey_length hmissing
      obtain ⟨id, rest, hcons⟩ := List.exists_cons_of_ne_nil hmissing
      have hid := isItemId_ne (mem_missingDirectives h.ids initial id
        (by rw [hcons]; exact List.mem_cons_self ..))
      have hpos := List.length_pos_iff.mpr hid
      rw [hnil, hcons, List.map_cons, List.sum_cons, List.length_nil] at hlength
      omega
    have hstep : ∀ fuel, accountSponsorDirectiveOmissions renderer (fuel + 1) input initial
        = match composePack renderer (input.omitting (some (declaredNext input initial
            (missingKey (missingDirectives input initial))))) with
          | .error failure => some (.error failure)
          | .ok next => accountFrom renderer input fuel
              (missingKey (missingDirectives input initial)) next :=
      fun fuel => if_neg (not_or.mpr ⟨hmissing, hkey⟩)
    have hsome := List.length_pos_iff.mpr hmissing
    have hlength : (missingDirectives input initial).length ≤ (directivesOf input).length :=
      missingDirectives_length initial
    cases hnext : composePack renderer (input.omitting (some (declaredNext input initial
        (missingKey (missingDirectives input initial))))) with
    | error failure =>
        refine ⟨.error failure, ?_, ?_, fun pack hpack => nomatch hpack⟩
        · intro fuel hfuel
          obtain ⟨fuel, rfl⟩ := Nat.exists_eq_add_of_le' (show 1 ≤ fuel by omega)
          rw [hstep, hnext]
        · rintro ⟨⟩
          exact settles_composePackWithSelectionEstimator renderer _ false hnext
    | ok next =>
        have hsafe := h.visible hcomposition.drafted
        obtain ⟨draft', kept', h', hvisible', hrecords', hsublist'⟩ := round h.member h.ids hsafe
          hcomposition hmissing (List.Sublist.refl _) (.inl hrecords) hnext
        obtain ⟨result, hresult, hsettled, haccounted⟩ := accountFrom_ends h.member h.ids hsafe
          ((directivesOf input).length - (missingDirectives input initial).length) h' hvisible'
          hmissing hsublist' hrecords' (by omega)
        refine ⟨result, ?_, hsettled, haccounted⟩
        intro fuel hfuel
        obtain ⟨fuel, rfl⟩ := Nat.exists_eq_add_of_le' (show 1 ≤ fuel by omega)
        rw [hstep, hnext]
        exact hresult fuel (by omega)

end Loop

/-! ## Outside its domain -/

section Outsiders

variable {renderer : Renderer} {input : PackComposerInput}

theorem Outside.omitting {contents : PackContents} (h : Outside input contents)
    (omitted : Option (List OmittedEntry)) : Outside (input.omitting omitted) contents := by
  obtain ⟨houtsider, viewer, provenance, budgetTokens, degraded, hviewer, hcommon, hcontents⟩ := h
  exact ⟨houtsider, viewer, provenance, budgetTokens, degraded, hviewer,
    ⟨hcommon.provenance, hcommon.budget, hcommon.header, hcommon.degraded, hcommon.cursor⟩,
    hcontents⟩

/-- A session without membership is told nothing, so no directive is named:
the loop ends after one round with the pack it began with. -/
theorem accountSponsorDirectiveOmissions_outsider (houtsider : input.isOutsider = true)
    {initial : ComposedPack} (hinitial : composePack renderer input = .ok initial) (fuel : Nat) :
    accountSponsorDirectiveOmissions renderer (fuel + 2) input initial = some (.ok initial)
      ∧ missingDirectives input initial = (directivesOf input).map (·.id)
      ∧ initial.omitted.filter isBudgetRecord = [] := by
  rcases compose_cases renderer input with ⟨_, error, hrefused⟩ | ⟨contents, houtside, _⟩
    | ⟨draft, hdrafted, _⟩
  · rw [composePack, hrefused] at hinitial
    cases hinitial
  · have hagain : ∀ omitted, composePack renderer (input.omitting omitted) = .ok initial := by
      intro omitted
      rw [← hinitial, composePack, composePack, houtside.compose, (houtside.omitting omitted).compose]
    obtain ⟨_, hitems, _, _⟩ := houtside.checked
    rw [composePack, houtside.compose] at hinitial
    have hcontents := (finalize_honest hinitial).1
    have hnone : initial.items = [] := by
      show initial.toPackContents.items = []
      rw [hcontents, hitems]
    refine ⟨?_, ?_, ?_⟩
    · rw [accountSponsorDirectiveOmissions, accountFrom]
      split
      · rfl
      · rw [hagain]
        exact if_pos (.inr rfl)
    · rw [missingDirectives, hnone, List.filter_eq_self.mpr]
      intro item _
      rfl
    · obtain ⟨_, _, _, _, _, _, _, rfl⟩ := houtside
      show initial.toPackContents.omitted.filter isBudgetRecord = []
      rw [hcontents]
      rfl
  · have hmember := hdrafted.member
    rw [houtsider] at hmember
    cases hmember

end Outsiders

/-! ## Runs -/

def sampleDirective (id : String) (requires : Option (List Text)) : PackCandidate :=
  { sampleCandidate id 5 with
    kind := text "sponsor-directive", scope := .system, untrusted := false, requires }

/-- A contributor's request for a directive above the permissions of its
session. -/
def contributorInput : PackComposerInput :=
  { sampleInput 800 [sampleDirective "D-1" (some [text "steer"])] with
    viewer := { audience := .session, membership := .contributor, effectivePermissions := [] } }

theorem contributorInput_accountable : AccountableInput asciiRenderer contributorInput :=
  ⟨by decide, by decide, by decide +kernel⟩

theorem composes_of (input : PackComposerInput)
    (h : (composePack asciiRenderer input).toOption.any (fun pack => pack.items = []) = true) :
    ∃ pack, composePack asciiRenderer input = .ok pack ∧ pack.items = [] := by
  cases hpack : composePack asciiRenderer input with
  | error failure => rw [hpack] at h; cases h
  | ok pack => rw [hpack] at h; exact ⟨pack, rfl, of_decide_eq_true h⟩

/-- The directive is missing from the first pack, and the loop ends. -/
theorem accountSponsorDirectiveOmissions_exact_contributor : ∃ initial result,
    composePack asciiRenderer contributorInput = .ok initial
      ∧ missingDirectives contributorInput initial = [text "D-1"]
      ∧ accountSponsorDirectiveOmissions asciiRenderer 2 contributorInput initial = some result
      ∧ ∀ pack, result = .ok pack → OmissionsAccounted contributorInput pack := by
  obtain ⟨initial, hinitial, hitems⟩ := composes_of contributorInput (by decide +kernel)
  obtain ⟨result, hresult, _, haccounted⟩ :=
    @accountSponsorDirectiveOmissions_exact asciiRenderer contributorInput
      contributorInput_accountable none initial (by decide) hinitial
  refine ⟨initial, result, hinitial, ?_, hresult 2 (by decide), haccounted⟩
  rw [missingDirectives, hitems]
  rfl

/-- The loop returns a pack whose records are not those of the missing
directives, from the pack of an input. -/
def Misaccounts (input : PackComposerInput) : Prop :=
  ∃ initial pack, composePack asciiRenderer input = .ok initial
    ∧ accountSponsorDirectiveOmissions asciiRenderer 2 input initial = some (.ok pack)
    ∧ ¬OmissionsAccounted input pack

def outsiderInput : PackComposerInput :=
  { contributorInput with viewer := { contributorInput.viewer with membership := .none } }

theorem outsiderInput_misaccounts : Misaccounts outsiderInput := by
  obtain ⟨initial, hinitial, _⟩ := composes_of outsiderInput (by decide +kernel)
  obtain ⟨haccounted, hmissing, hrecords⟩ :=
    accountSponsorDirectiveOmissions_outsider (by decide) hinitial 0
  refine ⟨initial, initial, hinitial, haccounted, ?_⟩
  rintro ⟨hnone, _⟩
  rw [hrecords, hmissing, if_neg (by decide)] at hnone
  cases hnone

/-- A public request that passes over a private directive without an
identity. -/
def anonymousInput : PackComposerInput :=
  sampleInput 800 [{ sampleDirective "" none with scope := .workshop, untrusted := true }]

theorem anonymousInput_misaccounts : Misaccounts anonymousInput := by
  obtain ⟨initial, hinitial, hitems⟩ := composes_of anonymousInput (by decide +kernel)
  have hmissing : missingDirectives anonymousInput initial = [[]] := by
    rw [missingDirectives, hitems]
    rfl
  have hrecords : initial.omitted.filter isBudgetRecord = [] := by
    obtain ⟨draft, kept, hcomposition⟩ := composition_of_ok (by decide) hinitial
    have hundeclared : Composition _ (anonymousInput.omitting none) draft kept initial :=
      hcomposition
    exact hundeclared.records.eq_nil
  have hkey : missingKey (missingDirectives anonymousInput initial) = [] := by
    rw [hmissing]
    rfl
  refine ⟨initial, initial, hinitial,
    accountSponsorDirectiveOmissions_stops (.inr hkey) 1, ?_⟩
  rintro ⟨hnone, _⟩
  rw [hrecords, hmissing, if_neg (by decide)] at hnone
  cases hnone

/-- A request without directives that declares what reads as a record. -/
def recordedInput : PackComposerInput :=
  (sampleInput 800 []).omitting
    (some [{ reason := text "r", detail := some (text "sponsor-directives: budget") }])

theorem recordedInput_misaccounts : Misaccounts recordedInput := by
  obtain ⟨initial, hinitial, _⟩ := composes_of recordedInput (by decide +kernel)
  have hmissing : missingDirectives recordedInput initial = [] := rfl
  refine ⟨initial, initial, hinitial,
    accountSponsorDirectiveOmissions_stops (.inl hmissing) 1, ?_⟩
  obtain ⟨draft, kept, hcomposition⟩ := composition_of_ok (by decide) hinitial
  have hdeclared : Composition _ ((sampleInput 800 []).omitting (some [{
      reason := text "r", detail := some (text "sponsor-directives: budget") }])) draft kept
      initial := hcomposition
  have hrecords := hdeclared.records.length_eq
  rintro ⟨hnone, _⟩
  rw [hmissing, if_pos rfl] at hnone
  have hstays : staysOmitted draft.sections
      { reason := text "r", detail := some (text "sponsor-directives: budget") } = true :=
    staysOmitted_plain _ (by decide : text "r" ≠ _)
  rw [hnone, Option.getD_some, List.filter_singleton, hstays] at hrecords
  exact absurd hrecords (by decide)

/-- Three packs that do not name what is missing: one for a session without
membership, which is told nothing; one for the public, which passes over a
private directive before its identity is looked at; and one that declared a
record before it missed anything. -/
theorem accountSponsorDirectiveOmissions_inexact :
    Misaccounts outsiderInput ∧ Misaccounts anonymousInput ∧ Misaccounts recordedInput :=
  ⟨outsiderInput_misaccounts, anonymousInput_misaccounts, recordedInput_misaccounts⟩

end Asimposium
