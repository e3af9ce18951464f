import Asimposium.Ledger.EvidenceGraph
import Mathlib.Algebra.Order.BigOperators.Group.List
import Mathlib.Data.List.Perm.Basic

/-!
# A grounding is the whole closure

A read of evidence succeeds exactly when all of the closure is there and
admissible, and then it returns the closure. Rows, members and what the code
resolves correspond one by one, in the order of the rows.
-/

namespace Asimposium.EvidenceGrounding

open Codec (Value)
open PublicContent (hiddenByContentControl eventTargets)
open Text (byteLength)
open Worklist (Reached)

variable {F : Type}

/-! ## A successful read -/

structure Resolution (π : Platform F) (db : Db) (claim : Claim) (roots : List EvidenceReference)
    (resolved sources : List (GroundedEvidence F)) : Prop where
  version : isSafeInteger claim.version = true ∧ 1 ≤ claim.version
  count : (groundingRows π db roots).length ≤ nodeLimit
  rows : List.Forall₂ (RowSource π claim) (groundingRows π db roots) resolved
  bytes : (resolved.map fun source => byteLength source.payloadJson).sum ≤ byteLimit
  distinct : (resolved.map (·.evidenceId)).Nodup
  descending : ∀ source ∈ resolved, isDescending resolved source = true
  roots : roots.mapM (resolvePin resolved) = some sources

section Read

variable {π : Platform F} {db : Db} {claim : Claim} {requested : Value F}
  {roots : List EvidenceReference}

theorem read_nil (hrefs : references (some requested) = some []) {success : Bool} :
    readEvidenceGrounding π db success claim requested = .ok ([], []) := by
  rw [readEvidenceGrounding, hrefs]
  rfl

theorem read_ok (hrefs : references (some requested) = some roots) (hroots : roots ≠ [])
    {r : List (GroundedEvidence F) × List GroundingWitness} :
    readEvidenceGrounding π db true claim requested = .ok r ↔
      ∃ resolved, Resolution π db claim roots resolved r.1
        ∧ r.2 = resolved.map (·.witness) := by
  have hempty : ¬ roots.isEmpty = true := fun h => hroots (List.isEmpty_iff.mp h)
  rw [readEvidenceGrounding, hrefs]
  dsimp only
  rw [if_neg hempty]
  by_cases hversion : isSafeInteger claim.version = true ∧ 1 ≤ claim.version
  · have hgood : ¬ (!isSafeInteger claim.version || decide (claim.version < 1)) = true := by
      have hlow : ¬ claim.version < 1 := not_lt.mpr hversion.2
      simp [hversion.1, hlow]
    rw [if_neg hgood, if_neg (by decide)]
    by_cases hcount : nodeLimit < (groundingRows π db roots).length
    · rw [if_pos hcount]
      refine ⟨fun h => (by cases h), ?_⟩
      rintro ⟨resolved, hresolution, -⟩
      exact absurd hresolution.count (not_le.mpr hcount)
    · rw [if_neg hcount]
      constructor
      · intro h
        cases hrows : resolveRows π claim 0 [] (groundingRows π db roots) with
        | error error => rw [hrows] at h; cases h
        | ok resolved =>
            rw [hrows] at h
            dsimp only at h
            obtain ⟨new, hnew, hall, hbytes, hnodup, -⟩ :=
              (resolveRows_ok (Nat.zero_le _)).mp hrows
            rw [List.nil_append] at hnew
            subst hnew
            by_cases hdescending : resolved.all (isDescending resolved) = true
            · rw [if_neg (by rw [hdescending]; decide)] at h
              cases hsources : roots.mapM (resolvePin resolved) with
              | none => rw [hsources] at h; cases h
              | some sources =>
                  rw [hsources] at h
                  obtain rfl := Except.ok.inj h
                  rw [Nat.zero_add] at hbytes
                  exact ⟨resolved, ⟨hversion, not_lt.mp hcount, hall, hbytes, hnodup,
                    List.all_eq_true.mp hdescending, hsources⟩, rfl⟩
            · rw [if_pos (by simpa using hdescending)] at h
              cases h
      · rintro ⟨resolved, hresolution, hwitnesses⟩
        have hrows : resolveRows π claim 0 [] (groundingRows π db roots) = .ok resolved :=
          (resolveRows_ok (Nat.zero_le _)).mpr ⟨resolved, rfl, hresolution.rows,
            by rw [Nat.zero_add]; exact hresolution.bytes, hresolution.distinct,
            fun _ _ b hb => absurd hb List.not_mem_nil⟩
        have hdescending : resolved.all (isDescending resolved) = true :=
          List.all_eq_true.mpr hresolution.descending
        rw [hrows]
        dsimp only
        rw [if_neg (by rw [hdescending]; decide), hresolution.roots, ← hwitnesses]
  · have hbad : (!isSafeInteger claim.version || decide (claim.version < 1)) = true := by
      rw [not_and_or, not_le] at hversion
      simpa using hversion
    rw [if_pos hbad]
    refine ⟨fun h => (by cases h), ?_⟩
    rintro ⟨resolved, hresolution, -⟩
    exact absurd hresolution.version hversion

def refOf (node : Node) : EvidenceReference := ⟨node.1, text "sha256:" ++ node.2⟩

theorem refOf_node (node : Node) : (refOf node).node = node := by
  have hlength : (text "sha256:").length = 7 := by decide
  show (node.1, (text "sha256:" ++ node.2).drop 7) = node
  rw [← hlength, List.drop_left]

theorem refOf_formed (node : Node) : Formed (refOf node) := by
  rw [Formed, refOf_node]
  rfl

theorem Resolution.isPublic {resolved sources : List (GroundedEvidence F)} (hroots : roots ≠ [])
    (h : Resolution π db claim roots resolved sources) : db.isPublic = true := by
  by_contra hprivate
  have hrows := h.rows
  rw [groundingRows, if_neg hprivate] at hrows
  cases hrows
  cases roots with
  | nil => exact hroots rfl
  | cons root rest =>
      have hnone := h.roots
      rw [List.mapM_cons] at hnone
      cases hnone

theorem Resolution.row {resolved sources : List (GroundedEvidence F)} (hroots : roots ≠ [])
    (h : Resolution π db claim roots resolved sources) {node : Node}
    (hnode : node ∈ nodes π db roots) :
    ∃ e, matching db node = [e]
      ∧ ⟨node, some e, payloadJson db e⟩ ∈ groundingRows π db roots := by
  have hperm := groundingRows_perm (h.isPublic hroots) h.count
  have hmem : ∀ row ∈ rowsOf db node, row ∈ groundingRows π db roots := fun row hrow =>
    hperm.mem_iff.mpr (List.mem_flatMap.mpr ⟨node, hnode, hrow⟩)
  have hids : ((groundingRows π db roots).map (·.node.1)).Nodup := by
    have heq := Related.map_eq h.rows fun row source hsource => hsource.evidenceId.symm
    rw [heq]
    exact h.distinct
  have hone : ((rowsOf db node).map (·.node.1)).Nodup := by
    refine ((hperm.map (·.node.1)).nodup_iff.mp hids).sublist (List.Sublist.map _ ?_)
    exact List.sublist_flatten_of_mem (List.mem_map_of_mem hnode)
  cases hmatching : matching db node with
  | nil =>
      rw [rowsOf, hmatching] at hmem
      obtain ⟨source, -, e, body, fellowId, sponsorId, havailable, -⟩ :=
        Related.mem_left h.rows (hmem _ (List.mem_singleton_self _))
      cases havailable
  | cons e rest =>
      rw [rowsOf, hmatching] at hmem hone
      cases rest with
      | nil => exact ⟨e, rfl, hmem _ (List.mem_singleton_self _)⟩
      | cons e' rest => simp at hone

end Read

section Sound

variable {π : Platform F} {db : Db} {claim : Claim} {roots : List EvidenceReference}
  {resolved sources : List (GroundedEvidence F)}

structure RowMember (π : Platform F) (db : Db) (claim : Claim) (row : Row) (m : Member F) :
    Prop where
  row : row = m.row
  formed : Formed m.ref
  source : source? π db m.ref = some m
  admissible : Admissible π db claim m

theorem Resolution.members (hroots : roots ≠ []) (h : Resolution π db claim roots resolved sources) :
    ∃ members, List.Forall₂ (RowMember π db claim) (groundingRows π db roots) members
      ∧ List.Forall₂ Resolves members resolved := by
  have hpublic := h.isPublic hroots
  refine Related.exists_between h.rows fun row hrow source hmem hsource => ?_
  obtain ⟨node, hnode, hof⟩ :=
    List.mem_flatMap.mp ((groundingRows_perm hpublic h.count).mem_iff.mp hrow)
  obtain ⟨e, hmatching, -⟩ := h.row hroots hnode
  rw [rowsOf, hmatching] at hof
  obtain rfl := List.mem_singleton.mp hof
  rw [← refOf_node node] at hmatching hsource
  obtain ⟨m, hm, hbody, rfl, hresolves, hadmissible⟩ :=
    hsource.member hpublic h.version (refOf_formed node) hmatching
  obtain ⟨href, -⟩ := source?_some hm
  obtain ⟨pins, hpins, -⟩ := isDescending_iff.mp (h.descending source hmem)
  rw [hresolves.payload] at hpins
  refine ⟨m, ⟨?_, ?_, ?_, hadmissible pins hpins⟩, hresolves⟩
  · rw [Member.row, href, refOf_node, ← hbody]
  · rw [href]
    exact refOf_formed node
  · rw [href]
    exact hm

theorem Resolution.sources_nodes (h : Resolution π db claim roots resolved sources) :
    sources.map (fun source => (source.evidenceId, source.payloadDigest)) = roots.map (·.node) := by
  refine (Related.map_eq (Related.mapM_some.mp h.roots) fun root source hroot => ?_).symm
  obtain ⟨-, hid, hdigest⟩ := (resolvePin_some h.distinct).mp hroot
  have hlength : (text "sha256:").length = 7 := by decide
  rw [EvidenceReference.node, hid, hdigest, ← hlength, List.drop_left]

theorem Resolution.grounded (hsame : ReadsAlike π db) (hroots : roots ≠ [])
    (hformed : ∀ root ∈ roots, Formed root) (h : Resolution π db claim roots resolved sources) :
    ∃ members, Grounded π db (Admissible π db claim) roots members
      ∧ List.Forall₂ Resolves members resolved := by
  have hpublic := h.isPublic hroots
  obtain ⟨members, hrows, hresolves⟩ := h.members hroots
  have hperm := groundingRows_perm hpublic h.count
  have hcount : (nodes π db roots).length ≤ nodeLimit :=
    (length_le_rows _).trans (hperm.length_eq ▸ h.count)
  have hmember : ∀ m ∈ members, RowMember π db claim m.row m := by
    intro m hm
    obtain ⟨row, -, hrow⟩ := Related.mem_right hrows hm
    rwa [hrow.row] at hrow
  -- every node of the table is the reference of a member
  have hnodes : ∀ ref, Formed ref → ref.node ∈ nodes π db roots → ref ∈ members.map (·.ref) := by
    intro ref href hnode
    obtain ⟨e, -, hrow⟩ := h.row hroots hnode
    obtain ⟨m, hm, hrowm⟩ := Related.mem_left hrows hrow
    exact List.mem_map.mpr ⟨m, hm, hrowm.formed.eq_of_node href (congrArg Row.node hrowm.row).symm⟩
  have hopen : ∀ ref ∈ members.map (·.ref), Open π db ref := by
    intro ref hmem
    obtain ⟨m, hm, rfl⟩ := List.mem_map.mp hmem
    have hadmissible := (hmember m hm).admissible
    obtain ⟨pins, hpins⟩ := hadmissible.listed
    exact ⟨m, pins, (hmember m hm).source, hadmissible.payloadJson (hmember m hm).source, hpins⟩
  have hclosed : ∀ ref, Reached (storedPins π db) roots ref → ref ∈ members.map (·.ref) := by
    intro ref hreached
    refine hnodes ref (reached_formed hformed hreached) (mem_nodes_of_reached hcount ?_)
    refine node_reached hpublic hsame hformed (fun ref href hnode => ?_) hreached
    exact hopen ref (hnodes ref href (mem_nodes_of_reached hcount hnode))
  have hids : members.map (·.ref.evidenceId) = resolved.map (·.evidenceId) :=
    Related.map_eq hresolves fun m source hm => hm.evidenceId.symm
  refine ⟨members, ⟨fun ref => ⟨hclosed ref, fun hmem => ?_⟩, ?_, ?_, ?_,
    fun m hm => (hmember m hm).source, fun m hm => (hmember m hm).admissible, ?_⟩, hresolves⟩
  · obtain ⟨m, hm, rfl⟩ := List.mem_map.mp hmem
    obtain ⟨row, hrow, hrowm⟩ := Related.mem_right hrows hm
    obtain ⟨node, hnode, hof⟩ := List.mem_flatMap.mp (hperm.mem_iff.mp hrow)
    have hat : m.ref.node = node := by
      rw [← rowsOf_node hof, hrowm.row]
      rfl
    obtain ⟨ref, hreached, href⟩ := reached_of_node hpublic hsame
      (fun ref hreached => hopen ref (hclosed ref hreached)) (reached_of_mem_nodes hnode)
    rwa [← (reached_formed hformed hreached).eq_of_node hrowm.formed (href.trans hat.symm)]
  · rw [hids]
    exact h.distinct
  · rw [← hrows.length_eq]
    exact h.count
  · have hbodies : members.map (fun m => byteLength m.body)
        = resolved.map fun source => byteLength source.payloadJson :=
      Related.map_eq hresolves fun m source hm => by rw [hm.payloadJson]
    rw [hbodies]
    exact h.bytes
  · intro m hm m' hm' hpin
    obtain ⟨source, hsource, hresolve⟩ := Related.mem_left hresolves hm
    obtain ⟨source', hsource', hresolve'⟩ := Related.mem_left hresolves hm'
    obtain ⟨pins, hpins, hall⟩ := isDescending_iff.mp (h.descending source hsource)
    rw [storedPins_eq (hmember m hm).source (hresolve.payload ▸ hpins)] at hpin
    obtain ⟨dependency, hdependency, hlt⟩ := hall m'.ref hpin
    obtain ⟨hmem, hid, -⟩ := (resolvePin_some h.distinct).mp hdependency
    have hfound : dependency = source' :=
      List.inj_on_of_nodup_map h.distinct hmem hsource' (hid.trans hresolve'.evidenceId.symm)
    rwa [hfound, hresolve'.sequence, hresolve.sequence] at hlt

end Sound

section Complete

variable {π : Platform F} {db : Db} {claim : Claim} {roots : List EvidenceReference}
  {members : List (Member F)}

theorem rowsOf_source {m : Member F} (hsource : source? π db m.ref = some m)
    (hbody : payloadJson db m.event = some m.body) : rowsOf db m.ref.node = [m.row] := by
  obtain ⟨-, hmatching, -⟩ := source?_some hsource
  rw [rowsOf, hmatching, Member.row, ← hbody]
  rfl

theorem Grounded.formed {Admits : Member F → Prop} (hformed : ∀ root ∈ roots, Formed root)
    (h : Grounded π db Admits roots members) {m : Member F} (hm : m ∈ members) : Formed m.ref :=
  reached_formed hformed ((h.closure m.ref).mpr (List.mem_map_of_mem hm))

theorem Grounded.refs_nodup {Admits : Member F → Prop} (h : Grounded π db Admits roots members) :
    (members.map (·.ref.node)).Nodup := by
  have hids := h.distinct
  have hmap : members.map (·.ref.evidenceId) = (members.map (·.ref.node)).map Prod.fst := by
    rw [List.map_map]
    rfl
  rw [hmap] at hids
  exact hids.of_map Prod.fst

theorem Grounded.open (h : Grounded π db (Admissible π db claim) roots members)
    {ref : EvidenceReference} (href : ref ∈ members.map (·.ref)) : Open π db ref := by
  obtain ⟨m, hm, rfl⟩ := List.mem_map.mp href
  obtain ⟨pins, hpins⟩ := (h.admits m hm).listed
  exact ⟨m, pins, h.stored m hm, (h.admits m hm).payloadJson (h.stored m hm), hpins⟩

theorem Grounded.nodes_perm (hsame : ReadsAlike π db) (hpublic : db.isPublic = true)
    (hformed : ∀ root ∈ roots, Formed root)
    (h : Grounded π db (Admissible π db claim) roots members) :
    (nodes π db roots).Perm (members.map (·.ref.node)) := by
  have hopen : ∀ ref, Reached (storedPins π db) roots ref → Open π db ref :=
    fun ref hreached => h.open ((h.closure ref).mp hreached)
  have hof : ∀ node, Reached (expand π db) (roots.map (·.node)) node →
      ∃ m ∈ members, m.ref.node = node := by
    intro node hnode
    obtain ⟨ref, hreached, rfl⟩ := reached_of_node hpublic hsame hopen hnode
    obtain ⟨m, hm, rfl⟩ := List.mem_map.mp ((h.closure ref).mp hreached)
    exact ⟨m, hm, rfl⟩
  have hsubset : nodes π db roots ⊆ members.map (·.ref.node) := by
    intro node hnode
    obtain ⟨m, hm, rfl⟩ := hof node (reached_of_mem_nodes hnode)
    exact List.mem_map.mpr ⟨m, hm, rfl⟩
  have hcount : (nodes π db roots).length ≤ nodeLimit := by
    have hle := (nodes_nodup.subperm hsubset).length_le
    rw [List.length_map] at hle
    exact hle.trans h.count
  refine (List.perm_ext_iff_of_nodup nodes_nodup h.refs_nodup).mpr fun node =>
    ⟨fun hnode => hsubset hnode, fun hnode => ?_⟩
  obtain ⟨m, hm, rfl⟩ := List.mem_map.mp hnode
  refine mem_nodes_of_reached hcount (node_reached hpublic hsame hformed ?_
    ((h.closure m.ref).mpr (List.mem_map_of_mem hm)))
  intro ref href hreached
  obtain ⟨m', hm', heq⟩ := hof ref.node hreached
  rw [← (h.formed hformed hm').eq_of_node href heq]
  exact h.open (List.mem_map_of_mem hm')

theorem Grounded.rows_perm (hsame : ReadsAlike π db) (hpublic : db.isPublic = true)
    (hformed : ∀ root ∈ roots, Formed root)
    (h : Grounded π db (Admissible π db claim) roots members) :
    (groundingRows π db roots).Perm (members.map (·.row)) := by
  have hrows : (members.map (·.ref.node)).flatMap (rowsOf db) = members.map (·.row) := by
    rw [List.flatMap_map, ← List.flatMap_singleton' (members.map (·.row)), List.flatMap_map]
    exact List.flatMap_congr fun m hm =>
      rowsOf_source (h.stored m hm) ((h.admits m hm).payloadJson (h.stored m hm))
  have hperm := (h.nodes_perm hsame hpublic hformed).flatMap_right (rowsOf db)
  rw [hrows] at hperm
  refine (groundingRows_eq hpublic ?_).trans hperm
  rw [hperm.length_eq, List.length_map]
  exact h.count

theorem Grounded.perm {Admits : Member F → Prop} {members' : List (Member F)}
    (h : Grounded π db Admits roots members) (hperm : members'.Perm members) :
    Grounded π db Admits roots members' where
  closure ref := (h.closure ref).trans (hperm.map (·.ref)).mem_iff.symm
  distinct := (hperm.map (·.ref.evidenceId)).nodup_iff.mpr h.distinct
  count := hperm.length_eq ▸ h.count
  bytes := (hperm.map fun m => byteLength m.body).sum_eq ▸ h.bytes
  stored m hm := h.stored m (hperm.mem_iff.mp hm)
  admits m hm := h.admits m (hperm.mem_iff.mp hm)
  later m hm m' hm' := h.later m (hperm.mem_iff.mp hm) m' (hperm.mem_iff.mp hm')

theorem Grounded.resolution_rows (hformed : ∀ root ∈ roots, Formed root) (hroots : roots ≠ [])
    (h : Grounded π db (Admissible π db claim) roots members)
    (hrows : groundingRows π db roots = members.map (·.row)) :
    ∃ resolved sources, Resolution π db claim roots resolved sources := by
  obtain ⟨resolved, hresolved⟩ :
      ∃ resolved, List.Forall₂ (fun m source => RowSource π claim m.row source ∧ Resolves m source)
        members resolved :=
    Related.exists_right fun m hm =>
      (h.admits m hm).rowSource (h.formed hformed hm) (h.stored m hm)
  have hdistinct : (resolved.map (·.evidenceId)).Nodup := by
    have hids := Related.map_eq hresolved fun m source hm => hm.2.evidenceId.symm
    rw [← hids]
    exact h.distinct
  -- every reference of the closure is found again
  have hfind : ∀ ref, Reached (storedPins π db) roots ref →
      ∃ m ∈ members, ∃ source, m.ref = ref ∧ Resolves m source
        ∧ resolvePin resolved ref = some source := by
    intro ref hreached
    obtain ⟨m, hm, rfl⟩ := List.mem_map.mp ((h.closure ref).mp hreached)
    obtain ⟨source, hsource, -, hresolves⟩ := Related.mem_left hresolved hm
    refine ⟨m, hm, source, rfl, hresolves, (resolvePin_some hdistinct).mpr
      ⟨hsource, hresolves.evidenceId, ?_⟩⟩
    rw [hresolves.payloadDigest]
    exact h.formed hformed hm
  obtain ⟨sources, hsources⟩ : ∃ sources, roots.mapM (resolvePin resolved) = some sources := by
    obtain ⟨sources, hsources⟩ := Related.exists_right (l := roots) fun root hroot => by
      obtain ⟨-, -, source, -, -, hfound⟩ := hfind root (.seed hroot)
      exact ⟨source, hfound⟩
    exact ⟨sources, Related.mapM_some.mpr hsources⟩
  obtain ⟨root, hroot⟩ := List.exists_mem_of_ne_nil roots hroots
  obtain ⟨m, hm, -⟩ := hfind root (.seed hroot)
  refine ⟨resolved, sources, (h.admits m hm).versioned, ?_, ?_, ?_, hdistinct, ?_, hsources⟩
  · rw [hrows, List.length_map]
    exact h.count
  · rw [hrows, List.forall₂_map_left_iff]
    exact hresolved.imp fun m source hm => hm.1
  · have hbodies : members.map (fun m => byteLength m.body)
        = resolved.map fun source => byteLength source.payloadJson :=
      Related.map_eq hresolved fun m source hm => by rw [hm.2.payloadJson]
    rw [← hbodies]
    exact h.bytes
  · intro source hsource
    obtain ⟨m, hm, -, hresolves⟩ := Related.mem_right hresolved hsource
    obtain ⟨pins, hpins⟩ := (h.admits m hm).listed
    refine isDescending_iff.mpr ⟨pins, hresolves.payload ▸ hpins, fun pin hpin => ?_⟩
    rw [← storedPins_eq (h.stored m hm) hpins] at hpin
    obtain ⟨m', hm', dependency, rfl, hresolves', hfound⟩ :=
      hfind pin (.step ((h.closure m.ref).mpr (List.mem_map_of_mem hm)) hpin)
    refine ⟨dependency, hfound, ?_⟩
    rw [hresolves'.sequence, hresolves.sequence]
    exact h.later m hm m' hm' hpin

theorem Grounded.resolution (hsame : ReadsAlike π db) (hformed : ∀ root ∈ roots, Formed root)
    (hroots : roots ≠ []) (h : Grounded π db (Admissible π db claim) roots members) :
    ∃ resolved sources, Resolution π db claim roots resolved sources := by
  obtain ⟨root, hroot⟩ := List.exists_mem_of_ne_nil roots hroots
  obtain ⟨m, hm, -⟩ := List.mem_map.mp ((h.closure root).mp (.seed hroot))
  have hself : List.Forall₂ (fun row m => row = Member.row m) (members.map (·.row)) members :=
    List.forall₂_map_left_iff.mpr (List.forall₂_same.mpr fun _ _ => rfl)
  obtain ⟨members', hrows, hperm⟩ :=
    List.perm_comp_forall₂ (h.rows_perm hsame (h.admits m hm).isPublic hformed) hself
  refine (h.perm hperm).resolution_rows hformed hroots ?_
  have heq := Related.map_eq hrows (f := id) fun row m hrow => hrow
  rwa [List.map_id] at heq

end Complete

section Closure

variable {π : Platform F} {db : Db} {claim : Claim} {roots : List EvidenceReference}
  {members : List (Member F)}

theorem Grounded.unique {Admits Admits' : Member F → Prop} {members' : List (Member F)}
    (h : Grounded π db Admits roots members) (h' : Grounded π db Admits' roots members') :
    members.Perm members' := by
  have hsubset : ∀ {A A' : Member F → Prop} {l l' : List (Member F)}, Grounded π db A roots l →
      Grounded π db A' roots l' → ∀ m ∈ l, m ∈ l' := by
    intro A A' l l' hl hl' m hm
    obtain ⟨m', hm', href⟩ :=
      List.mem_map.mp ((hl'.closure m.ref).mp ((hl.closure m.ref).mpr (List.mem_map_of_mem hm)))
    have hstored := hl'.stored m' hm'
    rw [href, hl.stored m hm] at hstored
    rwa [Option.some.inj hstored]
  exact (List.perm_ext_iff_of_nodup (h.distinct.of_map _) (h'.distinct.of_map _)).mpr fun m =>
    ⟨hsubset h h' m, hsubset h' h m⟩

theorem Grounded.seq_lt {Admits : Member F → Prop} (h : Grounded π db Admits roots members)
    {m : Member F} (hm : m ∈ members) {ref : EvidenceReference}
    (hpins : Relation.TransGen (fun a b => b ∈ storedPins π db a) m.ref ref) :
    ∃ m' ∈ members, m'.ref = ref ∧ m'.event.seq < m.event.seq := by
  have hpinned : ∀ m₁ ∈ members, ∀ pin ∈ storedPins π db m₁.ref,
      ∃ m₂ ∈ members, m₂.ref = pin ∧ m₂.event.seq < m₁.event.seq := by
    intro m₁ hm₁ pin hpin
    obtain ⟨m₂, hm₂, rfl⟩ := List.mem_map.mp
      ((h.closure pin).mp (.step ((h.closure m₁.ref).mpr (List.mem_map_of_mem hm₁)) hpin))
    exact ⟨m₂, hm₂, rfl, h.later m₁ hm₁ m₂ hm₂ hpin⟩
  induction hpins with
  | single hpin => exact hpinned m hm _ hpin
  | tail _ hpin ih =>
      obtain ⟨m₁, hm₁, rfl, hlt⟩ := ih
      obtain ⟨m₂, hm₂, href, hlt'⟩ := hpinned m₁ hm₁ _ hpin
      exact ⟨m₂, hm₂, href, hlt'.trans hlt⟩

theorem Grounded.acyclic {Admits : Member F → Prop} (h : Grounded π db Admits roots members)
    {ref : EvidenceReference} (href : Reached (storedPins π db) roots ref) :
    ¬ Relation.TransGen (fun a b => b ∈ storedPins π db a) ref ref := by
  intro hcycle
  obtain ⟨m, hm, rfl⟩ := List.mem_map.mp ((h.closure ref).mp href)
  obtain ⟨m', hm', heq, hlt⟩ := h.seq_lt hm hcycle
  obtain rfl : m' = m := List.inj_on_of_nodup_map h.distinct hm' hm (by rw [heq])
  exact absurd hlt (lt_irrefl _)

/-- Bodies became unreadable, that of an event among them. -/
structure Withholds (db db' : Db) (e : Event) : Prop where
  events : db'.events = db.events
  publicSeq : db'.publicSeq = db.publicSeq
  bodies : ∀ e' body, payloadJson db' e' = some body → payloadJson db e' = some body
  gone : payloadJson db' e = none

theorem Withholds.readsAlike {db' : Db} {e : Event} (hsame : ReadsAlike π db)
    (h : Withholds db db' e) : ReadsAlike π db' :=
  fun e' body hbody => hsame e' body (h.bodies e' body hbody)

theorem Withholds.source? {db' : Db} {e : Event} (h : Withholds db db' e)
    {ref : EvidenceReference} {m : Member F}
    (hsource : EvidenceGrounding.source? π db' ref = some m)
    (hbody : payloadJson db' m.event = some m.body) :
    EvidenceGrounding.source? π db ref = some m := by
  obtain ⟨rfl, hmatching, hparse, -⟩ := source?_some hsource
  obtain ⟨row, hrow, hjson, hsha, -⟩ := payloadJson_some.mp (h.bodies _ _ hbody)
  rw [matching, h.events, h.publicSeq] at hmatching
  rw [← hjson] at hparse
  have heq := source?_eq hmatching hrow hsha hparse
  rw [hjson] at heq
  exact heq

theorem Withholds.refuses {db' : Db} {m : Member F} (hsame : ReadsAlike π db)
    (hformed : ∀ root ∈ roots, Formed root) (hroots : roots ≠ [])
    (hreached : Reached (storedPins π db) roots m.ref) (hstored : EvidenceGrounding.source? π db m.ref = some m)
    (h : Withholds db db' m.event) {resolved sources : List (GroundedEvidence F)} :
    ¬ Resolution π db' claim roots resolved sources := by
  intro hresolution
  obtain ⟨members, hgrounded, -⟩ := hresolution.grounded (h.readsAlike hsame) hroots hformed
  have hkept : ∀ m' ∈ members, payloadJson db' m'.event = some m'.body
      ∧ EvidenceGrounding.source? π db m'.ref = some m' := by
    intro m' hm'
    have hbody := (hgrounded.admits m' hm').payloadJson (hgrounded.stored m' hm')
    exact ⟨hbody, h.source? (hgrounded.stored m' hm') hbody⟩
  have hmember : ∀ ref, Reached (storedPins π db) roots ref →
      Reached (storedPins π db') roots ref := by
    intro ref href
    induction href with
    | seed hroot => exact .seed hroot
    | step _ hpin ih =>
        obtain ⟨m', hm', rfl⟩ := List.mem_map.mp ((hgrounded.closure _).mp ih)
        obtain ⟨pins, hpins⟩ := (hgrounded.admits m' hm').listed
        rw [storedPins_eq (hkept m' hm').2 hpins] at hpin
        rw [← storedPins_eq (hgrounded.stored m' hm') hpins] at hpin
        exact ih.step hpin
  obtain ⟨m', hm', href⟩ := List.mem_map.mp ((hgrounded.closure m.ref).mp (hmember _ hreached))
  obtain ⟨hbody, hsource⟩ := hkept m' hm'
  rw [href, hstored] at hsource
  rw [← Option.some.inj hsource, h.gone] at hbody
  cases hbody

end Closure

/-! ## The read and the closure -/

theorem references_formed {requested : Value F} {roots : List EvidenceReference}
    (hrefs : references (some requested) = some roots) : ∀ root ∈ roots, Formed root :=
  (references_nodes hrefs).1

theorem grounded_nil {π : Platform F} {db : Db} {Admits : Member F → Prop} :
    Grounded π db Admits [] [] where
  closure ref := by
    refine ⟨fun h => ?_, fun h => absurd h List.not_mem_nil⟩
    induction h with
    | seed hroot => exact absurd hroot List.not_mem_nil
    | step _ _ ih => exact absurd ih List.not_mem_nil
  distinct := List.nodup_nil
  count := Nat.zero_le _
  bytes := Nat.zero_le _
  stored m hm := absurd hm List.not_mem_nil
  admits m hm := absurd hm List.not_mem_nil
  later m hm := absurd hm List.not_mem_nil

/-- A read succeeds exactly when the closure of its references is there
within the budgets and all of it is admissible. It then returns the closure,
which has no cycle, and stops succeeding when the body of any member is
withheld. -/
theorem grounding_exact {π : Platform F} {db : Db} {claim : Claim} {requested : Value F}
    {roots : List EvidenceReference} (hsame : ReadsAlike π db)
    (hrefs : references (some requested) = some roots) :
    ((∃ r, readEvidenceGrounding π db true claim requested = .ok r)
      ↔ ∃ members, Grounded π db (Admissible π db claim) roots members)
    ∧ ∀ members, Grounded π db (Admissible π db claim) roots members →
      (∀ r, readEvidenceGrounding π db true claim requested = .ok r →
        r.1.map (fun source => (source.evidenceId, source.payloadDigest)) = roots.map (·.node)
        ∧ r.2.Perm (members.map (·.witness)))
      ∧ (∀ ref, Reached (storedPins π db) roots ref →
        ¬ Relation.TransGen (fun a b => b ∈ storedPins π db a) ref ref)
      ∧ ∀ m ∈ members, ∀ db', Withholds db db' m.event →
        ∃ error, readEvidenceGrounding π db' true claim requested = .error error := by
  have hformed := references_formed hrefs
  have hempty : roots = [] → ∀ db, readEvidenceGrounding π db true claim requested = .ok ([], []) :=
    fun hnil db => read_nil (hnil ▸ hrefs)
  refine ⟨⟨?_, ?_⟩, fun members hgrounded => ⟨fun r hr => ?_, fun ref => hgrounded.acyclic, ?_⟩⟩
  · rintro ⟨r, hr⟩
    by_cases hroots : roots = []
    · subst hroots
      exact ⟨[], grounded_nil⟩
    · obtain ⟨resolved, hresolution, -⟩ := (read_ok hrefs hroots).mp hr
      obtain ⟨members, hgrounded, -⟩ := hresolution.grounded hsame hroots hformed
      exact ⟨members, hgrounded⟩
  · rintro ⟨members, hgrounded⟩
    by_cases hroots : roots = []
    · exact ⟨_, hempty hroots db⟩
    · obtain ⟨resolved, sources, hresolution⟩ := hgrounded.resolution hsame hformed hroots
      exact ⟨(sources, _), (read_ok hrefs hroots).mpr ⟨resolved, hresolution, rfl⟩⟩
  · by_cases hroots : roots = []
    · rw [hempty hroots db] at hr
      obtain rfl := Except.ok.inj hr
      subst hroots
      obtain rfl := List.perm_nil.mp (hgrounded.unique (@grounded_nil _ π db fun _ => True))
      exact ⟨rfl, .nil⟩
    · obtain ⟨resolved, hresolution, hwitnesses⟩ := (read_ok hrefs hroots).mp hr
      obtain ⟨members', hgrounded', hresolves⟩ := hresolution.grounded hsame hroots hformed
      constructor
      · exact hresolution.sources_nodes
      · rw [hwitnesses, ← Related.map_eq hresolves fun m source hm => hm.witness.symm]
        exact (hgrounded'.unique hgrounded).map _
  · intro m hm db' hwithholds
    by_cases hroots : roots = []
    · subst hroots
      have hnone := hgrounded.unique (@grounded_nil _ π db fun _ => True)
      rw [List.perm_nil.mp hnone] at hm
      exact absurd hm List.not_mem_nil
    · cases hr : readEvidenceGrounding π db' true claim requested with
      | error error => exact ⟨error, rfl⟩
      | ok r =>
          obtain ⟨resolved, hresolution, -⟩ := (read_ok hrefs hroots).mp hr
          refine absurd hresolution (hwithholds.refuses hsame hformed hroots ?_
            (hgrounded.stored m hm))
          exact (hgrounded.closure m.ref).mpr (List.mem_map_of_mem hm)

section Sample

def sampleHash (letter : Char) : Text := List.replicate 64 (unit letter)

def sampleReference (id : String) (letter : Char) : Value Unit :=
  .obj [(text "evidence_id", .str (text id)),
    (text "digest", .str (text "sha256:" ++ sampleHash letter))]

def samplePayload (body : String) (pins : List (Value Unit)) : List (Text × Value Unit) :=
  [(text "bears_on_kind", .str (text "claim")), (text "bears_on_id", .str (text "C-1")),
    (text "bears_on_version", .num (.finite false ())), (text "mode", .str (text "confirmatory")),
    (text "kind", .str (text "observation")), (text "direction", .str (text "supports")),
    (text "body_md", .str (text body)),
    (text "falsification_check", .obj [(text "evidence", .arr pins)])]

/-- Three bodies: one, a second that pins it, and one of white space. -/
def samplePlatform : Platform Unit where
  sha256Hex body := sampleHash (if body = text "1" then 'a' else if body = text "2" then 'b' else 'c')
  parseJson body :=
    if body = text "1" then some (.obj (samplePayload "observed" []))
    else if body = text "2" then some (.obj (samplePayload "checked" [sampleReference "E-1" 'a']))
    else some (.obj (samplePayload " " []))
  sqlJson body :=
    if body = text "1" then some (.obj (samplePayload "observed" []))
    else if body = text "2" then some (.obj (samplePayload "checked" [sampleReference "E-1" 'a']))
    else some (.obj (samplePayload " " []))
  numberIs _ n := n == 1

def sampleEvent (id : String) (seq : Nat) (letter : Char) : Event where
  id := text id
  seq := seq
  type := text "evidence.created"
  objectKind := text "evidence"
  objectId := text "E-" ++ text id
  objectVersion := 1
  payloadSha256 := sampleHash letter
  fellowId := some (text "F-1")
  sponsorId := some (text "S-1")

def sampleDb : Db where
  isPrivateDraft := false
  publicSeq := 9
  events := [sampleEvent "1" 3 'a', sampleEvent "2" 5 'b', sampleEvent "3" 7 'c']
  content id :=
    if id = text "1" then some ⟨sampleHash 'a', text "1", false⟩
    else if id = text "2" then some ⟨sampleHash 'b', text "2", false⟩
    else if id = text "3" then some ⟨sampleHash 'c', text "3", false⟩
    else none
  controls := []
  withdrawn _ := false

def sampleClaim : Claim := ⟨text "C-1", 1⟩

def sampleRoot (id : String) (letter : Char) : EvidenceReference :=
  ⟨text id, text "sha256:" ++ sampleHash letter⟩

theorem sample_readsAlike : ReadsAlike samplePlatform sampleDb := fun _ _ _ => rfl

theorem grounding_exact_sample :
    ∃ members, Grounded samplePlatform sampleDb (Admissible samplePlatform sampleDb sampleClaim)
        [sampleRoot "E-2" 'b'] members := by
  have hrefs : references (some (.arr [sampleReference "E-2" 'b']))
      = some [sampleRoot "E-2" 'b'] := by decide +kernel
  refine (grounding_exact sample_readsAlike hrefs).1.mp ?_
  have hok : (readEvidenceGrounding samplePlatform sampleDb true sampleClaim
      (.arr [sampleReference "E-2" 'b'])).isOk = true := by decide +kernel
  cases hread : readEvidenceGrounding samplePlatform sampleDb true sampleClaim
      (.arr [sampleReference "E-2" 'b']) with
  | error error => rw [hread] at hok; cases hok
  | ok r => exact ⟨r, rfl⟩

/-- Evidence with a body of white space bears on the claim in every way, and
the read refuses it. -/
theorem blank_evidence_refused :
    ∃ (requested : Value Unit) (roots : List EvidenceReference) (members : List (Member Unit)),
      ReadsAlike samplePlatform sampleDb ∧ references (some requested) = some roots
        ∧ Grounded samplePlatform sampleDb (Bearing samplePlatform sampleDb sampleClaim) roots
          members
        ∧ ¬ ∃ r, readEvidenceGrounding samplePlatform sampleDb true sampleClaim requested
          = .ok r := by
  have hsource : source? samplePlatform sampleDb (sampleRoot "E-3" 'c')
      = some ⟨sampleRoot "E-3" 'c', sampleEvent "3" 7 'c', text "3", samplePayload " " []⟩ := by
    rfl
  have hpins : storedPins samplePlatform sampleDb (sampleRoot "E-3" 'c') = [] := by
    decide +kernel
  refine ⟨.arr [sampleReference "E-3" 'c'], [sampleRoot "E-3" 'c'],
    [⟨sampleRoot "E-3" 'c', sampleEvent "3" 7 'c', text "3", samplePayload " " []⟩],
    sample_readsAlike, by decide +kernel, ⟨fun ref => ⟨fun h => ?_, fun h => .seed h⟩,
      List.nodup_singleton _, by decide, by decide +kernel, ?_, ?_, ?_⟩, ?_⟩
  · induction h with
    | seed hroot => exact hroot
    | step _ hpin ih =>
        rw [List.mem_singleton.mp ih] at hpin
        exact absurd (hpins ▸ hpin) List.not_mem_nil
  · exact List.forall_mem_singleton.mpr hsource
  · refine List.forall_mem_singleton.mpr ?_
    exact {
      isPublic := rfl
      unredacted := fun row hrow => by
        obtain rfl := Option.some.inj hrow
        rfl
      visible := rfl
      standing := rfl
      hashed := rfl
      kind := by decide +kernel
      object := by decide +kernel
      version := by decide +kernel
      confirmatory := by decide +kernel
      unselected := rfl
      notAssertion := by decide +kernel
      notHeuristic := by decide +kernel }
  · intro m hm m' hm' hpin
    rw [List.mem_singleton.mp hm] at hpin
    exact absurd (hpins ▸ hpin) List.not_mem_nil
  · rintro ⟨r, hr⟩
    have hrefused : (readEvidenceGrounding samplePlatform sampleDb true sampleClaim
        (.arr [sampleReference "E-3" 'c'])).isOk = false := by decide +kernel
    rw [hr] at hrefused
    cases hrefused

end Sample

end Asimposium.EvidenceGrounding
