import Asimposium.Ledger.EvidenceGrounding
import Asimposium.Lib.Related
import Asimposium.Lib.UniqueKey

/-!
# The evidence graph

The evidence that a list of references reaches through stored pins, and what
makes a member of it admissible.

The statement and the code read pins from different views of a body. They
agree where a body parses with well-formed lists of pins, so by induction
along the pins the table of the statement has the references of the graph.
-/

namespace Asimposium.EvidenceGrounding

open Codec (Number Value)
open Text (byteLength trim)
open Worklist (Reached)

variable {F : Type}

/-! ## Well-formed references -/

/-- A digest is an algorithm and what the statement compares. -/
def Formed (ref : EvidenceReference) : Prop :=
  ref.digest = text "sha256:" ++ ref.node.2

theorem formed_of_isDigest {ref : EvidenceReference} (h : isDigest ref.digest = true) :
    Formed ref := by
  rw [isDigest, Bool.and_eq_true, Bool.and_eq_true] at h
  obtain ⟨rest, hrest⟩ := List.isPrefixOf_iff_prefix.mp h.1.1
  have hlength : (text "sha256:").length = 7 := by decide
  have hdrop : ref.digest.drop 7 = rest := by
    rw [← hrest, ← hlength, List.drop_left]
  show ref.digest = text "sha256:" ++ ref.digest.drop 7
  rw [hdrop, hrest]

theorem Formed.eq_of_node {ref ref' : EvidenceReference} (h : Formed ref) (h' : Formed ref')
    (hnode : ref.node = ref'.node) : ref = ref' := by
  have hid : ref.evidenceId = ref'.evidenceId := congrArg Prod.fst hnode
  have hdigest : ref.digest = ref'.digest := by rw [h, h', hnode]
  cases ref
  cases ref'
  exact congrArg₂ EvidenceReference.mk hid hdigest

theorem reference_node {value : Value F} {ref : EvidenceReference} (h : reference value = some ref) :
    Formed ref ∧ sqlReference value = some ref.node := by
  cases value with
  | obj members =>
      rw [reference] at h
      rw [sqlReference]
      cases hid : field members "evidence_id" with
      | none => rw [hid] at h; cases h
      | some id =>
          cases hdigest : field members "digest" with
          | none => rw [hid, hdigest] at h; cases id <;> cases h
          | some digest =>
              rw [hid, hdigest] at h
              cases id with
              | str evidenceId =>
                  cases digest with
                  | str digest =>
                      dsimp only at h ⊢
                      by_cases hgood : members.length = 2 ∧ isEvidenceId evidenceId ∧ isDigest digest
                      · rw [if_pos hgood] at h
                        obtain rfl := Option.some.inj h
                        exact ⟨formed_of_isDigest hgood.2.2, rfl⟩
                      · rw [if_neg hgood] at h
                        cases h
                  | _ => cases h
              | _ => cases h
  | _ => cases h

theorem referencesFrom_nodes {values : List (Value F)} {seen : List Text}
    {refs : List EvidenceReference} (h : referencesFrom seen values = some refs) :
    (∀ ref ∈ refs, Formed ref) ∧ values.filterMap sqlReference = refs.map (·.node) := by
  induction values generalizing seen refs with
  | nil =>
      obtain rfl := Option.some.inj h
      exact ⟨fun ref href => absurd href List.not_mem_nil, rfl⟩
  | cons value rest ih =>
      rw [referencesFrom] at h
      cases hvalue : reference value with
      | none => rw [hvalue] at h; cases h
      | some ref =>
          rw [hvalue] at h
          dsimp only at h
          by_cases hseen : seen.contains ref.evidenceId = true
          · rw [if_pos hseen] at h
            cases h
          · rw [if_neg hseen, Option.map_eq_some_iff] at h
            obtain ⟨later, hlater, rfl⟩ := h
            obtain ⟨hformed, hnode⟩ := reference_node hvalue
            obtain ⟨hformed', hnodes⟩ := ih hlater
            refine ⟨List.forall_mem_cons.mpr ⟨hformed, hformed'⟩, ?_⟩
            rw [List.filterMap_cons_some hnode, hnodes, List.map_cons]

theorem references_nodes {value : Option (Value F)} {refs : List EvidenceReference}
    (h : references value = some refs) :
    (∀ ref ∈ refs, Formed ref) ∧ sqlReferences value = refs.map (·.node) := by
  cases value with
  | none => cases h
  | some value =>
      cases value with
      | arr values =>
          rw [references] at h
          by_cases hlength : values.length ≤ referenceLimit
          · rw [if_pos hlength] at h
            rw [sqlReferences, List.take_of_length_le hlength]
            exact referencesFrom_nodes h
          · rw [if_neg hlength] at h
            cases h
      | _ => cases h

variable {payload : List (Text × Value F)} {pins : List EvidenceReference}

theorem checkPins_nodes (h : checkPins payload = some pins) :
    (∀ pin ∈ pins, Formed pin) ∧
      sqlReferences (extract ["falsification_check", "evidence"] (.obj payload))
        = pins.map (·.node) := by
  rw [checkPins] at h
  rw [extract]
  cases hcheck : field payload "falsification_check" with
  | none =>
      rw [hcheck] at h
      obtain rfl := Option.some.inj h
      exact ⟨fun pin hpin => absurd hpin List.not_mem_nil, rfl⟩
  | some check =>
      rw [hcheck] at h
      cases check with
      | null =>
          obtain rfl := Option.some.inj h
          exact ⟨fun pin hpin => absurd hpin List.not_mem_nil, rfl⟩
      | obj check =>
          have hpins : references (field check "evidence") = some pins := h
          have hextract : extract ["evidence"] (.obj check) = field check "evidence" := by
            rw [extract]
            cases field check "evidence" <;> rfl
          dsimp only
          rw [hextract]
          exact references_nodes hpins
      | _ => cases h

theorem methodPins_nodes (h : methodPins payload = some pins) :
    (∀ pin ∈ pins, Formed pin) ∧
      sqlReferences (extract ["scientific_provenance", "method", "evidence"] (.obj payload))
        = pins.map (·.node) := by
  have hnone : some [] = some pins → (∀ pin ∈ pins, Formed pin) ∧
      sqlReferences (none : Option (Value F)) = pins.map (·.node) := by
    intro hpins
    obtain rfl := Option.some.inj hpins
    exact ⟨fun pin hpin => absurd hpin List.not_mem_nil, rfl⟩
  rw [methodPins] at h
  rw [extract]
  cases hprovenance : field payload "scientific_provenance" with
  | none =>
      rw [hprovenance] at h
      exact hnone h
  | some provenance =>
      rw [hprovenance] at h
      cases provenance with
      | null => exact hnone h
      | obj provenance =>
          dsimp only [present] at h ⊢
          rw [extract]
          cases hmethod : field provenance "method" with
          | none =>
              rw [hmethod] at h
              exact hnone h
          | some method =>
              rw [hmethod] at h
              cases method with
              | null => exact hnone h
              | obj method =>
                  dsimp only [present] at h ⊢
                  rw [extract]
                  cases hevidence : field method "evidence" with
                  | none =>
                      rw [hevidence] at h
                      exact hnone h
                  | some evidence =>
                      rw [hevidence] at h
                      exact references_nodes h
              | _ => cases h
      | _ => cases h

theorem sqlPins_eq {π : Platform F} {body : Text} (hsame : π.sqlJson body = π.parseJson body)
    (hparse : π.parseJson body = some (.obj payload)) (hpins : dependencies payload = some pins) :
    sqlPins π body = pins.map (·.node) := by
  rw [dependencies] at hpins
  cases hchecks : checkPins payload with
  | none => rw [hchecks] at hpins; cases hpins
  | some checks =>
      cases hmethods : methodPins payload with
      | none => rw [hchecks, hmethods] at hpins; cases hpins
      | some methods =>
          rw [hchecks, hmethods] at hpins
          obtain rfl := Option.some.inj hpins
          rw [sqlPins, hsame, hparse, Option.getD_some, (checkPins_nodes hchecks).2,
            (methodPins_nodes hmethods).2, List.map_append]

theorem dependencies_formed (h : dependencies payload = some pins) : ∀ pin ∈ pins, Formed pin := by
  rw [dependencies] at h
  cases hchecks : checkPins payload with
  | none => rw [hchecks] at h; cases h
  | some checks =>
      cases hmethods : methodPins payload with
      | none => rw [hchecks, hmethods] at h; cases h
      | some methods =>
          rw [hchecks, hmethods] at h
          obtain rfl := Option.some.inj h
          intro pin hpin
          rcases List.mem_append.mp hpin with hcheck | hmethod
          · exact (checkPins_nodes hchecks).1 pin hcheck
          · exact (methodPins_nodes hmethods).1 pin hmethod

/-! ## The evidence graph -/

/-- A publication that a reference names, with its stored body. -/
structure Member (F : Type) where
  ref : EvidenceReference
  event : Event
  body : Text
  payload : List (Text × Value F)

def Member.row (m : Member F) : Row := ⟨m.ref.node, some m.event, some m.body⟩

def Member.witness (m : Member F) : GroundingWitness where
  eventId := m.event.id
  payloadDigest := m.ref.node.2
  payloadJson := m.body

section Graph

variable (π : Platform F) (db : Db)

/-- The one publication of a reference, whether or not it may be read. -/
def source? (ref : EvidenceReference) : Option (Member F) :=
  match matching db ref.node with
  | [e] =>
      match db.content e.id with
      | some row =>
          if row.payloadSha256 = e.payloadSha256 then
            match π.parseJson row.payloadJson with
            | some (.obj payload) => some { ref, event := e, body := row.payloadJson, payload }
            | _ => none
          else none
      | none => none
  | _ => none

def storedPins (ref : EvidenceReference) : List EvidenceReference :=
  ((source? π db ref).bind fun m => dependencies m.payload).getD []

structure Bearing (claim : Claim) (m : Member F) : Prop where
  isPublic : db.isPublic = true
  unredacted : ∀ row, db.content m.event.id = some row → row.isRedacted = false
  visible : isHidden db m.event = false
  standing : db.withdrawn m.event.id = false
  hashed : m.ref.digest = text "sha256:" ++ π.sha256Hex m.body
  kind : isString m.payload "bears_on_kind" (text "claim") = true
  object : isString m.payload "bears_on_id" claim.claimId = true
  version : isNumber π m.payload "bears_on_version" claim.version = true
  confirmatory : isString m.payload "mode" (text "confirmatory") = true
  unselected : present (field m.payload "selected_hypothesis_id") = none
  notAssertion : isString m.payload "computed_class" (text "assertion") = false
  notHeuristic : isString m.payload "computed_class" (text "heuristic") = false

structure Admissible (claim : Claim) (m : Member F) : Prop extends Bearing π db claim m where
  small : byteLength m.body ≤ sourceByteLimit
  identified : m.event.id ≠ []
  attributed : ∃ fellowId sponsorId, m.event.fellowId = some fellowId ∧ fellowId ≠ []
    ∧ m.event.sponsorId = some sponsorId ∧ sponsorId ≠ []
  numbered : isSafeInteger m.event.seq = true ∧ 1 ≤ m.event.seq
  versioned : isSafeInteger claim.version = true ∧ 1 ≤ claim.version
  described : ∃ kind direction body, field m.payload "kind" = some (.str kind)
    ∧ field m.payload "direction" = some (.str direction)
    ∧ field m.payload "body_md" = some (.str body) ∧ trim body ≠ []
  listed : ∃ pins, dependencies m.payload = some pins

/-- The members are all that the roots reach, within the budgets, and every
one is admitted and later than what it pins. -/
structure Grounded (Admits : Member F → Prop) (roots : List EvidenceReference)
    (members : List (Member F)) : Prop where
  closure : ∀ ref, Reached (storedPins π db) roots ref ↔ ref ∈ members.map (·.ref)
  distinct : (members.map (·.ref.evidenceId)).Nodup
  count : members.length ≤ nodeLimit
  bytes : (members.map fun m => byteLength m.body).sum ≤ byteLimit
  stored : ∀ m ∈ members, source? π db m.ref = some m
  admits : ∀ m ∈ members, Admits m
  later : ∀ m ∈ members, ∀ m' ∈ members, m'.ref ∈ storedPins π db m.ref →
    m'.event.seq < m.event.seq

end Graph

section Sources

variable {π : Platform F} {db : Db} {ref : EvidenceReference} {m : Member F}

theorem source?_some (h : source? π db ref = some m) :
    m.ref = ref ∧ matching db ref.node = [m.event] ∧ π.parseJson m.body = some (.obj m.payload)
      ∧ ∃ row, db.content m.event.id = some row ∧ row.payloadSha256 = m.event.payloadSha256
        ∧ row.payloadJson = m.body := by
  rw [source?] at h
  cases hmatching : matching db ref.node with
  | nil => rw [hmatching] at h; cases h
  | cons e rest =>
      cases rest with
      | cons e' rest => rw [hmatching] at h; cases h
      | nil =>
          rw [hmatching] at h
          dsimp only at h
          cases hrow : db.content e.id with
          | none => rw [hrow] at h; cases h
          | some row =>
              rw [hrow] at h
              dsimp only at h
              by_cases hsha : row.payloadSha256 = e.payloadSha256
              · rw [if_pos hsha] at h
                cases hparse : π.parseJson row.payloadJson with
                | none => rw [hparse] at h; cases h
                | some value =>
                    rw [hparse] at h
                    cases value with
                    | obj payload =>
                        obtain rfl := Option.some.inj h
                        exact ⟨rfl, rfl, hparse, row, hrow, hsha, rfl⟩
                    | _ => cases h
              · rw [if_neg hsha] at h
                cases h

theorem source?_eq {e : Event} {row : Content} {payload : List (Text × Value F)}
    (hmatching : matching db ref.node = [e]) (hrow : db.content e.id = some row)
    (hsha : row.payloadSha256 = e.payloadSha256)
    (hparse : π.parseJson row.payloadJson = some (.obj payload)) :
    source? π db ref = some { ref, event := e, body := row.payloadJson, payload } := by
  simp only [source?, hmatching, hrow, if_pos hsha, hparse]

theorem storedPins_eq {pins : List EvidenceReference} (h : source? π db ref = some m)
    (hpins : dependencies m.payload = some pins) : storedPins π db ref = pins := by
  rw [storedPins, h, Option.bind_some, hpins, Option.getD_some]

theorem storedPins_formed : ∀ pin ∈ storedPins π db ref, Formed pin := by
  intro pin hpin
  rw [storedPins] at hpin
  cases hpins : (source? π db ref).bind fun m => dependencies m.payload with
  | none =>
      rw [hpins] at hpin
      exact absurd hpin List.not_mem_nil
  | some pins =>
      rw [hpins] at hpin
      obtain ⟨m, -, hm⟩ := Option.bind_eq_some_iff.mp hpins
      exact dependencies_formed hm pin hpin

theorem reached_formed {roots : List EvidenceReference} (hroots : ∀ root ∈ roots, Formed root)
    (h : Reached (storedPins π db) roots ref) : Formed ref := by
  cases h with
  | seed hroot => exact hroots ref hroot
  | step _ hpin => exact storedPins_formed ref hpin

theorem payloadJson_some {e : Event} {body : Text} :
    payloadJson db e = some body ↔ ∃ row, db.content e.id = some row ∧ row.payloadJson = body
      ∧ row.payloadSha256 = e.payloadSha256 ∧ row.isRedacted = false
      ∧ byteLength body ≤ sourceByteLimit ∧ isHidden db e = false ∧ db.withdrawn e.id = false := by
  rw [payloadJson]
  cases hrow : db.content e.id with
  | none => exact ⟨fun h => (by cases h), fun ⟨row, h, _⟩ => (by cases h)⟩
  | some row =>
      dsimp only
      constructor
      · intro h
        by_cases hgood : row.payloadSha256 = e.payloadSha256 ∧ row.isRedacted = false
            ∧ byteLength row.payloadJson ≤ sourceByteLimit ∧ isHidden db e = false
            ∧ db.withdrawn e.id = false
        · rw [if_pos hgood] at h
          obtain rfl := Option.some.inj h
          exact ⟨row, rfl, rfl, hgood⟩
        · rw [if_neg hgood] at h
          cases h
      · rintro ⟨row', hrow', rfl, hgood⟩
        obtain rfl := Option.some.inj hrow'
        exact if_pos hgood

end Sources

/-! ## The two traversals -/

/-- SQLite and `JSON.parse` read the bodies that may be read alike. -/
def ReadsAlike (π : Platform F) (db : Db) : Prop :=
  ∀ e body, payloadJson db e = some body → π.sqlJson body = π.parseJson body

/-- The body of a member may be read, and its pins are well formed. -/
def Open (π : Platform F) (db : Db) (ref : EvidenceReference) : Prop :=
  ∃ m pins, source? π db ref = some m ∧ payloadJson db m.event = some m.body
    ∧ dependencies m.payload = some pins

section Traversals

variable {π : Platform F} {db : Db} {roots : List EvidenceReference}
  (hpublic : db.isPublic = true) (hsame : ReadsAlike π db)
include hpublic hsame

theorem expand_node {ref : EvidenceReference} (h : Open π db ref) :
    expand π db ref.node = (storedPins π db ref).map (·.node) := by
  obtain ⟨m, pins, hsource, hbody, hpins⟩ := h
  obtain ⟨-, hmatching, hparse, -⟩ := source?_some hsource
  rw [expand, if_pos hpublic, hmatching, List.flatMap_singleton, hbody, Option.map_some,
    Option.getD_some, storedPins_eq hsource hpins]
  exact sqlPins_eq (hsame m.event m.body hbody) hparse hpins

theorem node_reached (hroots : ∀ root ∈ roots, Formed root)
    (hopen : ∀ ref, Formed ref → Reached (expand π db) (roots.map (·.node)) ref.node →
      Open π db ref)
    {ref : EvidenceReference} (h : Reached (storedPins π db) roots ref) :
    Reached (expand π db) (roots.map (·.node)) ref.node := by
  induction h with
  | seed hroot => exact .seed (List.mem_map_of_mem hroot)
  | @step source pin hreached hpin ih =>
      refine ih.step ?_
      rw [expand_node hpublic hsame (hopen source (reached_formed hroots hreached) ih)]
      exact List.mem_map_of_mem hpin

theorem reached_of_node (hopen : ∀ ref, Reached (storedPins π db) roots ref → Open π db ref)
    {node : Node} (h : Reached (expand π db) (roots.map (·.node)) node) :
    ∃ ref, Reached (storedPins π db) roots ref ∧ ref.node = node := by
  induction h with
  | seed hroot =>
      obtain ⟨root, hmem, rfl⟩ := List.mem_map.mp hroot
      exact ⟨root, .seed hmem, rfl⟩
  | step _ hnext ih =>
      obtain ⟨source, hreached, rfl⟩ := ih
      rw [expand_node hpublic hsame (hopen source hreached)] at hnext
      obtain ⟨pin, hpin, rfl⟩ := List.mem_map.mp hnext
      exact ⟨pin, hreached.step hpin, rfl⟩

end Traversals

/-! ## The rows of the statement -/

section Rows

variable {π : Platform F} {db : Db} {roots : List EvidenceReference}

theorem enqueue_perm (node : Node) (queue : List Node) :
    (queue ++ [node]).Perm (node :: queue) := List.perm_append_singleton node queue

theorem rowsOf_node {node : Node} {row : Row} (h : row ∈ rowsOf db node) : row.node = node := by
  rw [rowsOf] at h
  cases hmatching : matching db node with
  | nil =>
      rw [hmatching] at h
      rw [List.mem_singleton.mp h]
  | cons e rest =>
      rw [hmatching] at h
      obtain ⟨e', -, rfl⟩ := List.mem_map.mp h
      rfl

theorem rowsOf_ne_nil (node : Node) : rowsOf db node ≠ [] := by
  rw [rowsOf]
  cases matching db node with
  | nil => exact List.cons_ne_nil _ _
  | cons e rest => exact List.cons_ne_nil _ _

theorem length_le_rows (l : List Node) : l.length ≤ (l.flatMap (rowsOf db)).length := by
  induction l with
  | nil => exact le_rfl
  | cons node rest ih =>
      have hpos : 0 < (rowsOf db node).length := List.length_pos_iff.mpr (rowsOf_ne_nil node)
      rw [List.flatMap_cons, List.length_append, List.length_cons]
      omega

theorem groundingRows_perm (hpublic : db.isPublic = true)
    (h : (groundingRows π db roots).length ≤ nodeLimit) :
    (groundingRows π db roots).Perm ((nodes π db roots).flatMap (rowsOf db)) := by
  rw [groundingRows, if_pos hpublic] at h ⊢
  have hlength := h
  rw [List.length_take] at hlength
  rw [List.take_of_length_le (by omega)]
  exact List.perm_insertionSort _ _

theorem groundingRows_eq (hpublic : db.isPublic = true)
    (h : ((nodes π db roots).flatMap (rowsOf db)).length ≤ nodeLimit) :
    (groundingRows π db roots).Perm ((nodes π db roots).flatMap (rowsOf db)) := by
  refine groundingRows_perm hpublic ?_
  rw [groundingRows, if_pos hpublic, List.length_take, List.length_insertionSort]
  omega

theorem mem_nodes_of_reached (h : (nodes π db roots).length ≤ nodeLimit) {node : Node}
    (hreached : Reached (expand π db) (roots.map (·.node)) node) : node ∈ nodes π db roots :=
  RecursiveTable.table_complete enqueue_perm (Nat.lt_succ_of_le h) hreached

theorem reached_of_mem_nodes {node : Node} (h : node ∈ nodes π db roots) :
    Reached (expand π db) (roots.map (·.node)) node :=
  RecursiveTable.table_sound enqueue_perm h

theorem nodes_nodup : (nodes π db roots).Nodup := RecursiveTable.table_nodup enqueue_perm

end Rows

/-! ## The loop over the rows -/

section Loop

variable {π : Platform F} {claim : Claim}

def RowSource (π : Platform F) (claim : Claim) (row : Row) (source : GroundedEvidence F) : Prop :=
  ∃ e body fellowId sponsorId, availableRow row = some (e, body, fellowId, sponsorId)
    ∧ readPayload π claim row e body fellowId sponsorId = .ok source

theorem availableRow_some {row : Row} {e : Event} {body fellowId sponsorId : Text} :
    availableRow row = some (e, body, fellowId, sponsorId) ↔
      row.event = some e ∧ row.payloadJson = some body ∧ e.fellowId = some fellowId
        ∧ e.sponsorId = some sponsorId ∧ e.id ≠ [] ∧ fellowId ≠ [] ∧ sponsorId ≠ []
        ∧ isSafeInteger e.seq = true ∧ 1 ≤ e.seq ∧ e.payloadSha256 = row.node.2 := by
  constructor
  · intro h
    rw [availableRow] at h
    cases hevent : row.event with
    | none => rw [hevent] at h; cases h
    | some e' =>
        cases hbody : row.payloadJson with
        | none => rw [hevent, hbody] at h; cases h
        | some body' =>
            rw [hevent, hbody] at h
            dsimp only at h
            cases hfellow : e'.fellowId with
            | none => rw [hfellow] at h; cases h
            | some fellowId' =>
                cases hsponsor : e'.sponsorId with
                | none => rw [hfellow, hsponsor] at h; cases h
                | some sponsorId' =>
                    rw [hfellow, hsponsor] at h
                    dsimp only at h
                    by_cases hgood : e'.id ≠ [] ∧ fellowId' ≠ [] ∧ sponsorId' ≠ []
                        ∧ isSafeInteger e'.seq = true ∧ 1 ≤ e'.seq
                        ∧ e'.payloadSha256 = row.node.2
                    · rw [if_pos hgood] at h
                      obtain ⟨rfl, rfl, rfl, rfl⟩ := Option.some.inj h
                      exact ⟨rfl, rfl, hfellow, hsponsor, hgood⟩
                    · rw [if_neg hgood] at h
                      cases h
  · rintro ⟨hevent, hbody, hfellow, hsponsor, hgood⟩
    simp only [availableRow, hevent, hbody, hfellow, hsponsor]
    exact if_pos hgood

theorem grounding_some {payload : List (Text × Value F)} {kind direction body : Text} :
    grounding π claim payload = some (kind, direction, body) ↔
      (isString payload "bears_on_kind" (text "claim") = true
        ∧ isString payload "bears_on_id" claim.claimId = true
        ∧ isNumber π payload "bears_on_version" claim.version = true
        ∧ isString payload "mode" (text "confirmatory") = true
        ∧ present (field payload "selected_hypothesis_id") = none
        ∧ isString payload "computed_class" (text "assertion") = false
        ∧ isString payload "computed_class" (text "heuristic") = false)
      ∧ field payload "kind" = some (.str kind) ∧ field payload "direction" = some (.str direction)
        ∧ field payload "body_md" = some (.str body) ∧ trim body ≠ [] := by
  rw [grounding]
  constructor
  · intro h
    rw [ite_eq_iff] at h
    obtain ⟨hgood, h⟩ | ⟨-, h⟩ := h
    · refine ⟨?_, ?_⟩
      · simpa [and_assoc] using hgood
      · cases hkind : field payload "kind" with
        | none => rw [hkind] at h; cases h
        | some k =>
            cases hdirection : field payload "direction" with
            | none => rw [hkind, hdirection] at h; cases k <;> cases h
            | some d =>
                cases hbody : field payload "body_md" with
                | none => rw [hkind, hdirection, hbody] at h; cases k <;> cases d <;> cases h
                | some b =>
                    rw [hkind, hdirection, hbody] at h
                    cases k with
                    | str k =>
                        cases d with
                        | str d =>
                            cases b with
                            | str b =>
                                dsimp only at h
                                by_cases hblank : trim b = []
                                · rw [if_pos hblank] at h
                                  cases h
                                · rw [if_neg hblank] at h
                                  obtain ⟨rfl, rfl, rfl⟩ := Option.some.inj h
                                  exact ⟨rfl, rfl, rfl, hblank⟩
                            | _ => cases h
                        | _ => cases h
                    | _ => cases h
    · cases h
  · rintro ⟨hgood, hkind, hdirection, hbody, hblank⟩
    rw [if_pos (by simpa [and_assoc] using hgood), hkind, hdirection, hbody]
    exact if_neg hblank

theorem readPayload_ok {row : Row} {e : Event} {body fellowId sponsorId : Text}
    {source : GroundedEvidence F} :
    readPayload π claim row e body fellowId sponsorId = .ok source ↔
      π.sha256Hex body = row.node.2 ∧ ∃ payload kind direction prose,
        π.parseJson body = some (.obj payload)
        ∧ grounding π claim payload = some (kind, direction, prose)
        ∧ source = { eventId := e.id, payloadDigest := row.node.2, payloadJson := body
                     evidenceId := row.node.1, sequence := e.seq, fellowId, sponsorId, kind
                     direction, body := prose, payload } := by
  rw [readPayload]
  by_cases hsha : π.sha256Hex body = row.node.2
  · rw [if_neg (not_not.mpr hsha)]
    constructor
    · intro h
      cases hparse : π.parseJson body with
      | none => rw [hparse] at h; cases h
      | some value =>
          rw [hparse] at h
          cases value with
          | obj payload =>
              dsimp only at h
              cases hgrounding : grounding π claim payload with
              | none => rw [hgrounding] at h; cases h
              | some parts =>
                  rw [hgrounding] at h
                  obtain ⟨kind, direction, prose⟩ := parts
                  exact ⟨hsha, payload, kind, direction, prose, rfl, hgrounding,
                    (Except.ok.inj h).symm⟩
          | _ => cases h
    · rintro ⟨-, payload, kind, direction, prose, hparse, hgrounding, rfl⟩
      simp only [hparse, hgrounding]
  · rw [if_pos hsha]
    exact ⟨fun h => (by cases h), fun h => absurd h.1 hsha⟩

theorem RowSource.evidenceId {row : Row} {source : GroundedEvidence F}
    (h : RowSource π claim row source) : source.evidenceId = row.node.1 := by
  obtain ⟨e, body, fellowId, sponsorId, -, hread⟩ := h
  obtain ⟨-, payload, kind, direction, prose, -, -, rfl⟩ := readPayload_ok.mp hread
  rfl

theorem resolveRows_ok {rows : List Row} {bytes : Nat} {resolved all : List (GroundedEvidence F)}
    (hbytes : bytes ≤ byteLimit) :
    resolveRows π claim bytes resolved rows = .ok all ↔
      ∃ new, all = resolved ++ new ∧ List.Forall₂ (RowSource π claim) rows new
        ∧ bytes + (new.map fun source => byteLength source.payloadJson).sum ≤ byteLimit
        ∧ (new.map (·.evidenceId)).Nodup
        ∧ ∀ a ∈ new, ∀ b ∈ resolved, b.evidenceId ≠ a.evidenceId := by
  induction rows generalizing bytes resolved with
  | nil =>
      rw [resolveRows]
      constructor
      · intro h
        exact ⟨[], by rw [List.append_nil, Except.ok.inj h], .nil, hbytes, List.nodup_nil,
          fun a ha => absurd ha List.not_mem_nil⟩
      · rintro ⟨new, rfl, hnew, -⟩
        cases hnew
        rw [List.append_nil]
  | cons row rest ih =>
      rw [resolveRows]
      constructor
      · intro h
        cases havailable : availableRow row with
        | none => rw [havailable] at h; cases h
        | some found =>
            obtain ⟨e, body, fellowId, sponsorId⟩ := found
            rw [havailable] at h
            dsimp only at h
            by_cases hlimit : byteLimit < bytes + byteLength body
            · rw [if_pos hlimit] at h
              cases h
            · rw [if_neg hlimit] at h
              cases hread : readPayload π claim row e body fellowId sponsorId with
              | error error => rw [hread] at h; cases h
              | ok source =>
                  rw [hread] at h
                  dsimp only at h
                  have hsource : RowSource π claim row source := ⟨_, _, _, _, havailable, hread⟩
                  have hbody : source.payloadJson = body := by
                    obtain ⟨-, payload, kind, direction, prose, -, -, rfl⟩ :=
                      readPayload_ok.mp hread
                    rfl
                  by_cases htwice : resolved.any (·.evidenceId == row.node.1) = true
                  · rw [if_pos htwice] at h
                    cases h
                  · rw [if_neg htwice, ih (not_lt.mp hlimit)] at h
                    obtain ⟨new, rfl, hnew, hsum, hnodup, hapart⟩ := h
                    refine ⟨source :: new, by rw [List.append_assoc, List.singleton_append],
                      .cons hsource hnew, ?_, ?_, ?_⟩
                    · rw [List.map_cons, List.sum_cons, hbody]
                      omega
                    · rw [List.map_cons, List.nodup_cons]
                      refine ⟨fun hmem => ?_, hnodup⟩
                      obtain ⟨a, ha, hid⟩ := List.mem_map.mp hmem
                      exact hapart a ha source (List.mem_append_right _ (List.mem_singleton_self _))
                        hid.symm
                    · refine List.forall_mem_cons.mpr ⟨?_, fun a ha b hb =>
                        hapart a ha b (List.mem_append_left _ hb)⟩
                      intro b hb heq
                      rw [hsource.evidenceId] at heq
                      exact htwice (List.any_eq_true.mpr ⟨b, hb, beq_iff_eq.mpr heq⟩)
      · rintro ⟨new, rfl, hnew, hsum, hnodup, hapart⟩
        cases hnew with
        | @cons _ source _ new hsource hnew =>
            obtain ⟨e, body, fellowId, sponsorId, havailable, hread⟩ := id hsource
            have hbody : source.payloadJson = body := by
              obtain ⟨-, payload, kind, direction, prose, -, -, rfl⟩ := readPayload_ok.mp hread
              rfl
            rw [List.map_cons, List.sum_cons, hbody] at hsum
            rw [List.map_cons, List.nodup_cons] at hnodup
            obtain ⟨hfirst, hapart⟩ := List.forall_mem_cons.mp hapart
            have htwice : ¬ resolved.any (·.evidenceId == row.node.1) = true := by
              intro hany
              obtain ⟨b, hb, heq⟩ := List.any_eq_true.mp hany
              exact hfirst b hb ((beq_iff_eq.mp heq).trans hsource.evidenceId.symm)
            simp only [havailable, hread]
            rw [if_neg (by omega), if_neg htwice, ih (by omega)]
            refine ⟨new, by rw [List.append_assoc, List.singleton_append], hnew, by omega,
              hnodup.2, fun a ha b hb => ?_⟩
            rcases List.mem_append.mp hb with hold | hlast
            · exact hapart a ha b hold
            · rw [List.mem_singleton.mp hlast]
              intro heq
              exact hnodup.1 (List.mem_map.mpr ⟨a, ha, heq.symm⟩)

end Loop

/-! ## Members and what is resolved -/

structure Resolves (m : Member F) (source : GroundedEvidence F) : Prop where
  witness : source.witness = m.witness
  evidenceId : source.evidenceId = m.ref.evidenceId
  sequence : source.sequence = m.event.seq
  payload : source.payload = m.payload

section Resolution

variable {π : Platform F} {db : Db} {claim : Claim}

variable {source : GroundedEvidence F}

theorem Resolves.payloadDigest {m : Member F} (h : Resolves m source) :
    source.payloadDigest = m.ref.node.2 :=
  congrArg GroundingWitness.payloadDigest h.witness

theorem Resolves.payloadJson {m : Member F} (h : Resolves m source) : source.payloadJson = m.body :=
  congrArg GroundingWitness.payloadJson h.witness

theorem matching_digest {node : Node} {e : Event} (h : e ∈ matching db node) :
    e.payloadSha256 = node.2 := by
  have hgood := (List.mem_filter.mp h).2
  simp only [Bool.and_eq_true, beq_iff_eq] at hgood
  exact hgood.1.2

theorem RowSource.member {ref : EvidenceReference} {e : Event} {source : GroundedEvidence F}
    (hpublic : db.isPublic = true)
    (hversion : isSafeInteger claim.version = true ∧ 1 ≤ claim.version) (hformed : Formed ref)
    (hmatching : matching db ref.node = [e])
    (h : RowSource π claim ⟨ref.node, some e, payloadJson db e⟩ source) :
    ∃ m, source? π db ref = some m ∧ payloadJson db m.event = some m.body ∧ m.event = e
      ∧ Resolves m source
      ∧ ∀ pins, dependencies m.payload = some pins → Admissible π db claim m := by
  obtain ⟨e', body, fellowId, sponsorId, havailable, hread⟩ := h
  obtain ⟨hevent, hbody, hfellow, hsponsor, hid, hfellowId, hsponsorId, hsafe, hseq, -⟩ :=
    availableRow_some.mp havailable
  obtain rfl := Option.some.inj hevent
  obtain ⟨hsha, payload, kind, direction, prose, hparse, hgrounding, rfl⟩ :=
    readPayload_ok.mp hread
  obtain ⟨row, hrow, rfl, hrowSha, hredacted, hsmall, hvisible, hstanding⟩ :=
    payloadJson_some.mp hbody
  obtain ⟨⟨hkind, hobject, hclaim, hmode, hselected, hassertion, hheuristic⟩, hdescribed⟩ :=
    grounding_some.mp hgrounding
  refine ⟨_, source?_eq hmatching hrow hrowSha hparse, hbody, rfl, ⟨rfl, rfl, rfl, rfl⟩, ?_⟩
  intro pins hpins
  exact {
    isPublic := hpublic
    unredacted := fun row' hrow' => by
      obtain rfl := Option.some.inj (hrow.symm.trans hrow')
      exact hredacted
    visible := hvisible
    standing := hstanding
    hashed := hformed.trans (congrArg _ hsha.symm)
    kind := hkind
    object := hobject
    version := hclaim
    confirmatory := hmode
    unselected := hselected
    notAssertion := hassertion
    notHeuristic := hheuristic
    small := hsmall
    identified := hid
    attributed := ⟨fellowId, sponsorId, hfellow, hfellowId, hsponsor, hsponsorId⟩
    numbered := ⟨hsafe, hseq⟩
    versioned := hversion
    described := ⟨kind, direction, prose, hdescribed⟩
    listed := ⟨pins, hpins⟩ }

theorem Admissible.payloadJson {m : Member F} (h : Admissible π db claim m)
    (hsource : source? π db m.ref = some m) :
    EvidenceGrounding.payloadJson db m.event = some m.body := by
  obtain ⟨-, -, -, row, hrow, hsha, hjson⟩ := source?_some hsource
  exact payloadJson_some.mpr ⟨row, hrow, hjson, hsha, h.unredacted row hrow, h.small, h.visible,
    h.standing⟩

theorem Admissible.rowSource {m : Member F} (h : Admissible π db claim m) (hformed : Formed m.ref)
    (hsource : source? π db m.ref = some m) :
    ∃ source, RowSource π claim m.row source ∧ Resolves m source := by
  obtain ⟨-, hmatching, hparse, -⟩ := source?_some hsource
  obtain ⟨fellowId, sponsorId, hfellow, hfellowId, hsponsor, hsponsorId⟩ := h.attributed
  obtain ⟨kind, direction, prose, hdescribed⟩ := h.described
  have hdigest : m.event.payloadSha256 = m.ref.node.2 :=
    matching_digest (by rw [hmatching]; exact List.mem_singleton_self _)
  have hsha : π.sha256Hex m.body = m.ref.node.2 :=
    List.append_cancel_left (h.hashed.symm.trans hformed)
  have hgrounding : grounding π claim m.payload = some (kind, direction, prose) :=
    grounding_some.mpr ⟨⟨h.kind, h.object, h.version, h.confirmatory, h.unselected,
      h.notAssertion, h.notHeuristic⟩, hdescribed⟩
  have havailable : availableRow m.row = some (m.event, m.body, fellowId, sponsorId) :=
    availableRow_some.mpr ⟨rfl, rfl, hfellow, hsponsor, h.identified, hfellowId, hsponsorId,
      h.numbered.1, h.numbered.2, hdigest⟩
  have hread := (@readPayload_ok _ π claim m.row m.event m.body fellowId sponsorId _).mpr
    ⟨hsha, m.payload, kind, direction, prose, hparse, hgrounding, rfl⟩
  exact ⟨_, ⟨_, _, _, _, havailable, hread⟩, ⟨rfl, rfl, rfl, rfl⟩⟩

theorem resolvePin_some {resolved : List (GroundedEvidence F)}
    (hnodup : (resolved.map (·.evidenceId)).Nodup) {pin : EvidenceReference} :
    resolvePin resolved pin = some source ↔ source ∈ resolved
      ∧ source.evidenceId = pin.evidenceId
      ∧ pin.digest = text "sha256:" ++ source.payloadDigest := by
  rw [resolvePin, resolvedGet, Option.filter_eq_some_iff, UniqueKey.find?_eq_some hnodup,
    beq_iff_eq, and_assoc]

theorem isDescending_iff {resolved : List (GroundedEvidence F)} :
    isDescending resolved source = true ↔ ∃ pins, dependencies source.payload = some pins
      ∧ ∀ pin ∈ pins, ∃ dependency, resolvePin resolved pin = some dependency
        ∧ dependency.sequence < source.sequence := by
  rw [isDescending, Option.any_eq_true]
  simp only [List.all_eq_true, Option.any_eq_true, decide_eq_true_eq]

end Resolution

end Asimposium.EvidenceGrounding
