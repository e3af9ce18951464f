import Asimposium.Citations.Stable

/-!
# The identity of a citation

A canonical locator comes back unchanged, except where its path ended in two
slashes. The duplicate key folds the letters of every kind, so that two
locators of a case-sensitive kind that differ in case alone share one key.
-/

namespace Asimposium.Citations

open Text (isAscii isSpace foldAscii trim)

/-! ## What the runtime gives -/

def Reparses (platform : Platform) (u : Url) : Prop := platform.parseUrl u.toString = some u

structure Platform.Lawful (platform : Platform) : Prop where
  lower : ∀ {t : Text}, (∀ u ∈ t, isAscii u = true) → platform.toLowerCase t = t.map foldAscii
  upper : ∀ {t : Text}, (∀ u ∈ t, isAscii u = true) → platform.toUpperCase t = t.map raiseAscii
  nfc_nfc : ∀ t, platform.nfc (platform.nfc t) = platform.nfc t
  nfc_trim : ∀ {t : Text}, trim t = t → trim (platform.nfc t) = platform.nfc t
  nfc_ne_nil : ∀ {t : Text}, t ≠ [] → platform.nfc t ≠ []
  reparses : ∀ {raw : Text} {u : Url}, platform.parseUrl raw = some u → Reparses platform u
  /-- The setters leave a record of the parser's. -/
  settle : ∀ {u : Url}, Reparses platform u → isHttp u = true → Reparses platform u.settle
  /-- A serialization has its white space encoded. -/
  plain : ∀ {u : Url}, Reparses platform u → isHttp u = true → trim u.toString = u.toString

/-! ## The slash at the end -/

theorem trimPath_snoc (path : Text) (u : UInt16) :
    trimPath (path ++ [u]) = if path ≠ [] ∧ u = unit '/' then path else path ++ [u] := by
  have hlength : 1 < (path ++ [u]).length ↔ path ≠ [] := by
    rw [List.length_append, List.length_singleton, ← List.length_pos_iff]
    omega
  rw [trimPath, List.dropLast_concat, List.getLast?_concat]
  refine if_congr ?_ rfl rfl
  rw [Option.some_inj, hlength]

theorem slashes_suffix (body : Text) (v u : UInt16) :
    text "//" <:+ body ++ [v] ++ [u] ↔ v = unit '/' ∧ u = unit '/' := by
  have hslashes : text "//" = [unit '/', unit '/'] := rfl
  rw [hslashes, List.append_assoc]
  constructor
  · rintro ⟨front, h⟩
    have hpair := List.append_inj_right' h rfl
    simp only [List.cons_append, List.nil_append, List.cons.injEq, and_true] at hpair
    exact ⟨hpair.1.symm, hpair.2.symm⟩
  · rintro ⟨rfl, rfl⟩
    exact List.suffix_append _ _

theorem trimPath_trimPath (path : Text) :
    trimPath (trimPath path) = trimPath path ↔ ¬(2 < path.length ∧ text "//" <:+ path) := by
  rcases List.eq_nil_or_concat path with rfl | ⟨front, u, rfl⟩
  · simp [trimPath]
  · rw [List.concat_eq_append, trimPath_snoc]
    by_cases hu : front ≠ [] ∧ u = unit '/'
    · obtain ⟨hfront, rfl⟩ := hu
      rw [if_pos ⟨hfront, rfl⟩]
      rcases List.eq_nil_or_concat front with rfl | ⟨body, v, rfl⟩
      · exact absurd rfl hfront
      · rw [List.concat_eq_append, trimPath_snoc, slashes_suffix]
        have hlength : 2 < (body ++ [v] ++ [unit '/']).length ↔ body ≠ [] := by
          rw [List.length_append, List.length_append, ← List.length_pos_iff]
          simp only [List.length_singleton]
          omega
        rw [hlength]
        by_cases hv : body ≠ [] ∧ v = unit '/'
        · rw [if_pos hv]
          refine iff_of_false ?_ (fun h => h ⟨hv.1, hv.2, rfl⟩)
          intro h
          exact absurd (congrArg List.length h) (by simp)
        · rw [if_neg hv]
          exact iff_of_true rfl fun h => hv ⟨h.1, h.2.1⟩
    · rw [if_neg hu, trimPath_snoc, if_neg hu]
      refine iff_of_true rfl ?_
      rintro ⟨hlength, hsuffix⟩
      rcases List.eq_nil_or_concat front with rfl | ⟨body, v, rfl⟩
      · exact absurd hlength (by simp)
      · rw [List.concat_eq_append, slashes_suffix] at hsuffix
        exact hu ⟨by simp, hsuffix.2⟩

/-! ## Canonical forms -/

/-- The canonical locators of each kind, of a trimmed text. -/
inductive Form (platform : Platform) (raw : Text) : LocatorKind → Text → Prop
  | doi {id : Text} : isDoi id = true → Form platform raw .doi (id.map foldAscii)
  | arxiv {id : Text} : isArxiv id = true → Form platform raw .arxiv (id.map foldAscii)
  | url {u : Url} : platform.parseUrl raw = some u → isHttp u = true →
      Form platform raw .url u.settle.toString
  | isbn {number : Text} : isIsbn number = true → Form platform raw .isbn number
  | manual : raw ≠ [] → Form platform raw .manual (platform.nfc raw)

section Lawful

variable {platform : Platform} (lawful : platform.Lawful)

include lawful

variable {id : Text}

theorem isDoi_lower (h : isDoi id = true) : platform.toLowerCase id = id.map foldAscii :=
  lawful.lower fun u hu => isAscii_of_isDoiUnit ((isDoi_units h).2 u hu)

theorem isArxiv_lower (h : isArxiv id = true) : platform.toLowerCase id = id.map foldAscii :=
  lawful.lower fun u hu => isAscii_of_isDoiUnit (isDoiUnit_of_isArxivUnit (isArxiv_units h u hu))

theorem canonicalizeLocator_form {kind : LocatorKind} {locator : Option Text} {c : Text}
    (h : canonicalizeLocator platform kind locator = ⟨some c, none⟩) :
    Form platform (trim (locator.getD [])) kind c := by
  unfold canonicalizeLocator at h
  split at h
  · cases h
  · rename_i hkind
    dsimp only at h
    split at h
    · cases h
    · rename_i hraw
      cases kind with
      | doi =>
          dsimp only at h
          split at h
          · cases h
          · rename_i id hmatch
            cases h
            rw [isDoi_lower lawful (matchDoi_isDoi hmatch)]
            exact .doi (matchDoi_isDoi hmatch)
      | arxiv =>
          dsimp only at h
          split at h
          · cases h
          · rename_i id hmatch
            cases h
            rw [isArxiv_lower lawful (matchArxiv_isArxiv hmatch)]
            exact .arxiv (matchArxiv_isArxiv hmatch)
      | url =>
          dsimp only at h
          split at h
          · cases h
          · rename_i u hparse
            split at h
            · cases h
            · rename_i hhttp
              cases h
              exact .url hparse (by simpa using hhttp)
      | isbn =>
          dsimp only at h
          split at h
          · cases h
          · rename_i hisbn
            cases h
            exact .isbn (by simpa using hisbn)
      | manual =>
          cases h
          exact .manual (by simpa using hraw)
      | modelMemory => exact absurd rfl hkind

/-! ## Canonicalizing again -/

/-- A path that is longer than two slashes and ends in two. -/
def DoubleSlash (platform : Platform) (kind : LocatorKind) (locator : Option Text) : Prop :=
  kind = .url ∧ ∃ u, platform.parseUrl (trim (locator.getD [])) = some u ∧
    2 < u.pathname.length ∧ text "//" <:+ u.pathname

omit lawful in
theorem ne_nil_of_isHttp {u : Url} (h : isHttp u = true) : u.toString ≠ [] := by
  rintro hnil
  have hprotocol : u.protocol = [] := by
    simp only [Url.toString, List.append_eq_nil_iff] at hnil
    exact hnil.1.1.1.1
  rw [isHttp, hprotocol] at h
  exact absurd h (by decide)

theorem canonicalizeLocator_doi (h : isDoi id = true) :
    canonicalizeLocator platform .doi (some id) = ⟨some (id.map foldAscii), none⟩ := by
  have hunits := (isDoi_units h).2
  have hne : id ≠ [] := by
    rintro rfl
    cases h
  have htrim : trim id = id := trim_of_clean fun u hu => isSpace_of_isDoiUnit (hunits u hu)
  simp [canonicalizeLocator, htrim, hne, matchDoi_self h, isDoi_lower lawful h]

theorem canonicalizeLocator_arxiv (h : isArxiv id = true) :
    canonicalizeLocator platform .arxiv (some id) = ⟨some (id.map foldAscii), none⟩ := by
  have hunits := isArxiv_units h
  have hne : id ≠ [] := by
    rintro rfl
    cases h
  have htrim : trim id = id :=
    trim_of_clean fun u hu => isSpace_of_isDoiUnit (isDoiUnit_of_isArxivUnit (hunits u hu))
  simp [canonicalizeLocator, htrim, hne, matchArxiv_self h, isArxiv_lower lawful h]

theorem canonicalizeLocator_isbn {number : Text} (h : isIsbn number = true) :
    canonicalizeLocator platform .isbn (some number) = ⟨some number, none⟩ := by
  obtain ⟨hne, hunits⟩ := isIsbn_units h
  have hfilter : (number.filter fun u => !(u == unit '-' || isSpace u)) = number := by
    rw [List.filter_eq_self]
    intro u hu
    obtain ⟨-, hspace, hhyphen, -⟩ := isIsbnUnit_plain (hunits u hu)
    rw [hspace, hhyphen]
    rfl
  have hupper : platform.toUpperCase number = number := by
    rw [lawful.upper fun u hu => (isIsbnUnit_plain (hunits u hu)).1]
    calc number.map raiseAscii
        = number.map id :=
          List.map_congr_left fun u hu => (isIsbnUnit_plain (hunits u hu)).2.2.2
      _ = number := List.map_id number
  have htrim : trim number = number :=
    trim_of_clean fun u hu => (isIsbnUnit_plain (hunits u hu)).2.1
  simp [canonicalizeLocator, htrim, hne, hfilter, hupper, h, -Bool.not_or]

theorem canonicalizeLocator_manual {raw : Text} (htrim : trim raw = raw) (hne : raw ≠ []) :
    canonicalizeLocator platform .manual (some (platform.nfc raw))
      = ⟨some (platform.nfc raw), none⟩ := by
  simp [canonicalizeLocator, lawful.nfc_trim htrim, lawful.nfc_ne_nil hne, lawful.nfc_nfc]

theorem canonicalizeLocator_url {u : Url} (hu : Reparses platform u) (hhttp : isHttp u = true) :
    canonicalizeLocator platform .url (some u.settle.toString)
      = ⟨some u.settle.settle.toString, none⟩ := by
  have hsettle := lawful.settle hu hhttp
  have hkept : isHttp u.settle = true := hhttp
  have hparse : platform.parseUrl u.settle.toString = some u.settle := hsettle
  simp [canonicalizeLocator, lawful.plain hsettle hkept, ne_nil_of_isHttp hkept, hparse, hkept]

omit lawful in
theorem settle_toString_iff (u : Url) :
    u.settle.settle.toString = u.settle.toString ↔
      ¬(2 < u.pathname.length ∧ text "//" <:+ u.pathname) := by
  rw [← trimPath_trimPath]
  constructor
  · intro h
    simp only [Url.toString, Url.settle, List.append_nil] at h
    exact List.append_cancel_left (List.append_cancel_right h)
  · intro h
    simp only [Url.toString, Url.settle, h]

omit lawful in
theorem kind_of_none {kind : LocatorKind} {locator : Option Text}
    (h : canonicalizeLocator platform kind locator = ⟨none, none⟩) : kind = .modelMemory := by
  unfold canonicalizeLocator at h
  split at h
  · assumption
  · dsimp only at h
    split at h
    · cases h
    · cases kind with
      | modelMemory => rfl
      | manual => cases h
      | isbn =>
          dsimp only at h
          split at h <;> cases h
      | url =>
          dsimp only at h
          split at h
          · cases h
          · split at h <;> cases h
      | doi =>
          dsimp only at h
          split at h <;> cases h
      | arxiv =>
          dsimp only at h
          split at h <;> cases h

omit lawful in
theorem map_fold_fold (t : Text) : (t.map foldAscii).map foldAscii = t.map foldAscii := by
  rw [List.map_map]
  exact List.map_congr_left fun u _ => fold_fold u

theorem canonicalizeLocator_stable {kind : LocatorKind} {locator : Option Text} {c : Option Text}
    (h : canonicalizeLocator platform kind locator = ⟨c, none⟩) :
    canonicalizeLocator platform kind c = ⟨c, none⟩ ↔ ¬DoubleSlash platform kind locator := by
  cases c with
  | none =>
      obtain rfl := kind_of_none h
      exact iff_of_true rfl fun hslash => by cases hslash.1
  | some c =>
      have hother : ∀ {k : LocatorKind}, k ≠ .url → ¬DoubleSlash platform k locator :=
        fun hk hslash => hk hslash.1
      cases canonicalizeLocator_form lawful h with
      | doi hid =>
          refine iff_of_true ?_ (hother (by simp))
          rw [canonicalizeLocator_doi lawful (by rw [isDoi_fold, hid]), map_fold_fold]
      | arxiv hid =>
          refine iff_of_true ?_ (hother (by simp))
          rw [canonicalizeLocator_arxiv lawful (by rw [isArxiv_fold, hid]), map_fold_fold]
      | url hparse hhttp =>
          rename_i u
          rw [canonicalizeLocator_url lawful (lawful.reparses hparse) hhttp, DoubleSlash, hparse]
          simp only [Canonicalized.mk.injEq, Option.some_inj, and_true, true_and, exists_eq_left']
          exact settle_toString_iff u
      | isbn hnumber => exact iff_of_true (canonicalizeLocator_isbn lawful hnumber) (hother (by simp))
      | manual hne =>
          refine iff_of_true ?_ (hother (by simp))
          exact canonicalizeLocator_manual lawful (trim_trim _) hne

end Lawful

/-! ## The duplicate key -/

/-- A citation whose locator was accepted: all but `model_memory` has one. -/
structure RetrievedCitation (platform : Platform) where
  title : Text
  year : Option Int
  kind : LocatorKind
  locator : Option Text
  canonical : Text
  accepted : canonicalizeLocator platform kind locator = ⟨some canonical, none⟩

def RetrievedCitation.normHash {platform : Platform} (citation : RetrievedCitation platform) :
    Text :=
  computeCitationNormHash platform citation.title citation.year citation.kind
    (some citation.canonical)

/-- Canonical locators of a case-sensitive kind that differ in case alone. -/
def CaseTwins {platform : Platform} (a b : RetrievedCitation platform) : Prop :=
  (a.kind = .url ∨ a.kind = .manual) ∧ a.kind = b.kind ∧ a.canonical ≠ b.canonical ∧
    platform.toLowerCase a.canonical = platform.toLowerCase b.canonical

theorem name_of_append {j k : LocatorKind} {r s : Text}
    (h : text j.name ++ unit ':' :: r = text k.name ++ unit ':' :: s) : j = k ∧ r = s := by
  have hname : ∀ k : LocatorKind, (text k.name).all (· != unit ':') = true := by
    intro k
    cases k <;> rfl
  have hrun : ∀ (k : LocatorKind) (r : Text),
      (text k.name ++ unit ':' :: r).takeWhile (· != unit ':') = text k.name := by
    intro k r
    rw [List.takeWhile_append_of_pos (List.all_eq_true.mp (hname k)), List.takeWhile_cons]
    simp
  have hnames : text j.name = text k.name := by
    have hcongr := congrArg (List.takeWhile (· != unit ':')) h
    rwa [hrun, hrun] at hcongr
  have hkind : j = k := by
    cases j <;> cases k <;> first | rfl | exact absurd hnames (by decide)
  subst hkind
  exact ⟨rfl, (List.cons.inj (List.append_cancel_left h)).2⟩

section Twins

variable {platform : Platform} (lawful : platform.Lawful)

include lawful

theorem form_ne_nil {raw c : Text} {kind : LocatorKind} (h : Form platform raw kind c) :
    c ≠ [] := by
  cases h with
  | @doi id hid =>
      rintro hnil
      rw [List.map_eq_nil_iff.mp hnil] at hid
      cases hid
  | @arxiv id hid =>
      rintro hnil
      rw [List.map_eq_nil_iff.mp hnil] at hid
      cases hid
  | @url u _ hhttp => exact ne_nil_of_isHttp (u := u.settle) hhttp
  | isbn hnumber => exact (isIsbn_units hnumber).1
  | manual hne => exact lawful.nfc_ne_nil hne

theorem lower_doi {id : Text} (h : isDoi id = true) :
    platform.toLowerCase (id.map foldAscii) = id.map foldAscii := by
  rw [isDoi_lower lawful (by rw [isDoi_fold, h]), map_fold_fold]

theorem lower_arxiv {id : Text} (h : isArxiv id = true) :
    platform.toLowerCase (id.map foldAscii) = id.map foldAscii := by
  rw [isArxiv_lower lawful (by rw [isArxiv_fold, h]), map_fold_fold]

theorem raise_lower_isbn {number : Text} (h : isIsbn number = true) :
    (platform.toLowerCase number).map raiseAscii = number := by
  have hunits := (isIsbn_units h).2
  rw [lawful.lower fun u hu => (isIsbnUnit_plain (hunits u hu)).1, List.map_map]
  have hback : ∀ u ∈ number, (raiseAscii ∘ foldAscii) u = u := by
    intro u hu
    exact forall_ascii (p := fun u => isIsbnUnit u = true → raiseAscii (foldAscii u) = u)
      (by decide) (isIsbnUnit_plain (hunits u hu)).1 (hunits u hu)
  calc number.map (raiseAscii ∘ foldAscii)
      = number.map id := List.map_congr_left hback
    _ = number := List.map_id number

theorem lower_injective {raw raw' c d : Text} {kind : LocatorKind}
    (hc : Form platform raw kind c) (hd : Form platform raw' kind d)
    (hkind : ¬(kind = .url ∨ kind = .manual))
    (h : platform.toLowerCase c = platform.toLowerCase d) : c = d := by
  cases hc with
  | doi hid =>
      cases hd with
      | doi hid' => rwa [lower_doi lawful hid, lower_doi lawful hid'] at h
  | arxiv hid =>
      cases hd with
      | arxiv hid' => rwa [lower_arxiv lawful hid, lower_arxiv lawful hid'] at h
  | isbn hnumber =>
      cases hd with
      | isbn hnumber' =>
          rw [← raise_lower_isbn lawful hnumber, h, raise_lower_isbn lawful hnumber']
  | url => exact absurd (.inl rfl) hkind
  | manual => exact absurd (.inr rfl) hkind

theorem normHash_eq (citation : RetrievedCitation platform) :
    citation.normHash = text "citation:" ++
      (text citation.kind.name ++ unit ':' :: platform.toLowerCase citation.canonical) := by
  have hform := canonicalizeLocator_form lawful citation.accepted
  have hkind : citation.kind ≠ .modelMemory := by
    intro hkind
    rw [hkind] at hform
    cases hform
  have hne := form_ne_nil lawful hform
  have hcolon : text ":" = [unit ':'] := rfl
  rw [RetrievedCitation.normHash, computeCitationNormHash]
  simp only [Option.getD_some]
  rw [if_pos ⟨hkind, hne⟩, hcolon, List.append_assoc, List.append_assoc]
  rfl

theorem normHash_eq_iff (a b : RetrievedCitation platform) :
    a.normHash = b.normHash ↔ a.kind = b.kind ∧
      platform.toLowerCase a.canonical = platform.toLowerCase b.canonical := by
  rw [normHash_eq lawful, normHash_eq lawful]
  constructor
  · intro h
    exact name_of_append (List.append_cancel_left h)
  · rintro ⟨hkind, hlower⟩
    rw [hkind, hlower]

theorem normHash_distinct (a b : RetrievedCitation platform) :
    (a.normHash = b.normHash → a.kind = b.kind ∧ a.canonical = b.canonical) ↔
      ¬CaseTwins a b := by
  rw [normHash_eq_iff lawful]
  constructor
  · rintro h ⟨-, hkind, hne, hlower⟩
    exact hne (h ⟨hkind, hlower⟩).2
  · rintro htwins ⟨hkind, hlower⟩
    refine ⟨hkind, ?_⟩
    by_contra hne
    have hsensitive : a.kind = .url ∨ a.kind = .manual := by
      by_contra hfold
      have ha := canonicalizeLocator_form lawful a.accepted
      have hb := canonicalizeLocator_form lawful b.accepted
      rw [← hkind] at hb
      exact hne (lower_injective lawful ha hb hfold hlower)
    exact htwins ⟨hsensitive, hkind, hne, hlower⟩

end Twins

/-- Canonicalizing again returns a canonical locator unchanged unless its path
ended in two slashes, and the duplicate key tells two retrieved citations
apart unless they are case twins. -/
theorem citationIdentity_exact {platform : Platform} (lawful : platform.Lawful) :
    (∀ (kind : LocatorKind) (locator c : Option Text),
        canonicalizeLocator platform kind locator = ⟨c, none⟩ →
          (canonicalizeLocator platform kind c = ⟨c, none⟩ ↔ ¬DoubleSlash platform kind locator)) ∧
      ∀ a b : RetrievedCitation platform,
        (a.normHash = b.normHash → a.kind = b.kind ∧ a.canonical = b.canonical) ↔
          ¬CaseTwins a b :=
  ⟨fun _ _ _ h => canonicalizeLocator_stable lawful h, normHash_distinct lawful⟩

/-! ## One origin -/

def isSamplePath (path : Text) : Bool :=
  path.head? == some (unit '/') && path.all fun u => Text.isLower u || Text.isUpper u || u == unit '/'

def sample : Platform where
  toLowerCase t := t.map foldAscii
  toUpperCase t := t.map raiseAscii
  nfc t := t
  parseUrl raw :=
    let path := raw.drop 19
    if raw.take 19 = text "https://example.org" ∧ isSamplePath path then
      some ⟨text "https:", text "//example.org", path, [], []⟩
    else none

theorem sample_parse {raw : Text} {u : Url} (h : sample.parseUrl raw = some u) :
    ∃ path, isSamplePath path = true ∧ raw = text "https://example.org" ++ path ∧
      u = ⟨text "https:", text "//example.org", path, [], []⟩ := by
  simp only [sample] at h
  split at h
  · rename_i hpath
    refine ⟨raw.drop 19, hpath.2, ?_, (Option.some.inj h).symm⟩
    rw [← hpath.1, List.take_append_drop]
  · cases h

theorem sample_toString (path : Text) :
    Url.toString ⟨text "https:", text "//example.org", path, [], []⟩
      = text "https://example.org" ++ path := by
  have horigin : text "https:" ++ text "//example.org" = text "https://example.org" := rfl
  rw [Url.toString, horigin, List.append_nil, List.append_nil]

theorem sample_reparses {path : Text} (h : isSamplePath path = true) :
    Reparses sample ⟨text "https:", text "//example.org", path, [], []⟩ := by
  have hlength : (text "https://example.org").length = 19 := rfl
  have htake : (text "https://example.org" ++ path).take 19 = text "https://example.org" :=
    List.take_left' hlength
  have hdrop : (text "https://example.org" ++ path).drop 19 = path := List.drop_left' hlength
  rw [Reparses, sample_toString]
  simp only [sample, htake, hdrop, h, true_and, if_true]

theorem trimPath_sample {path : Text} (h : isSamplePath path = true) :
    isSamplePath (trimPath path) = true := by
  rcases List.eq_nil_or_concat path with rfl | ⟨front, u, rfl⟩
  · exact h
  · rw [List.concat_eq_append] at h ⊢
    rw [trimPath_snoc]
    split
    · rename_i hfront
      cases front with
      | nil => exact absurd rfl hfront.1
      | cons v front =>
          simp only [isSamplePath, List.cons_append, List.head?_cons, List.all_cons,
            List.all_append, Bool.and_eq_true] at h ⊢
          exact ⟨h.1, h.2.1, h.2.2.1⟩
    · exact h

theorem isSpace_sample {path : Text} (h : isSamplePath path = true) :
    ∀ u ∈ path, isSpace u = false := by
  rw [isSamplePath, Bool.and_eq_true] at h
  intro u hu
  have hunit := List.all_eq_true.mp h.2 u hu
  have hdoi : isDoiUnit u = true := by
    simp only [isDoiUnit, Text.isAlphanumeric, Bool.or_eq_true] at hunit ⊢
    tauto
  exact isSpace_of_isDoiUnit hdoi

theorem sample_lawful : sample.Lawful where
  lower _ := rfl
  upper _ := rfl
  nfc_nfc _ := rfl
  nfc_trim h := h
  nfc_ne_nil h := h
  reparses h := by
    obtain ⟨path, hpath, -, rfl⟩ := sample_parse h
    exact sample_reparses hpath
  settle h _ := by
    obtain ⟨path, hpath, -, rfl⟩ := sample_parse h
    exact sample_reparses (trimPath_sample hpath)
  plain h _ := by
    obtain ⟨path, hpath, -, rfl⟩ := sample_parse h
    have horigin : ∀ u ∈ text "https://example.org", isSpace u = false := by decide
    rw [sample_toString]
    refine trim_of_clean fun u hu => ?_
    exact (List.mem_append.mp hu).elim (horigin u) (isSpace_sample hpath u)

/-- A page of the origin, by a locator that is in its own form. -/
def samplePage (path : String) (h : canonicalizeLocator sample .url
    (some (text ("https://example.org" ++ path))) =
      ⟨some (text ("https://example.org" ++ path)), none⟩) : RetrievedCitation sample :=
  ⟨text "A page", none, .url, _, _, h⟩

theorem canonicalLocator_unstable :
    sample.Lawful ∧
      canonicalizeLocator sample .url (some (text "https://example.org/a//"))
        = ⟨some (text "https://example.org/a/"), none⟩ ∧
      canonicalizeLocator sample .url (some (text "https://example.org/a/"))
        = ⟨some (text "https://example.org/a"), none⟩ ∧
      (samplePage "/A" (by decide)).normHash = (samplePage "/a" (by decide)).normHash ∧
      (samplePage "/A" (by decide)).canonical ≠ (samplePage "/a" (by decide)).canonical :=
  ⟨sample_lawful, by decide, by decide, by decide, by decide⟩

theorem citationIdentity_sample :
    (canonicalizeLocator sample .url (some (text "https://example.org/a"))
        = ⟨some (text "https://example.org/a"), none⟩ ↔
      ¬DoubleSlash sample .url (some (text "https://example.org/a/"))) ∧
      (((samplePage "/a" (by decide)).normHash = (samplePage "/b" (by decide)).normHash →
          (samplePage "/a" (by decide)).kind = (samplePage "/b" (by decide)).kind ∧
          (samplePage "/a" (by decide)).canonical = (samplePage "/b" (by decide)).canonical) ↔
        ¬CaseTwins (samplePage "/a" (by decide)) (samplePage "/b" (by decide))) :=
  ⟨(citationIdentity_exact sample_lawful).1 .url _ _ (by decide),
    (citationIdentity_exact sample_lawful).2 _ _⟩

end Asimposium.Citations
