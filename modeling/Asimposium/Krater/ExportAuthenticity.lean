import Asimposium.Lib.Numerals
import Asimposium.Krater.ExportSignatures
import Asimposium.Krater.SegmentChain

/-!
# What a trusted signature covers

The chain of an export can be recomputed from the payloads and the envelopes
alone. A signature that is counted is over a checkpoint on the recomputed
chain, under the key of a pin where it is trusted, and its text names that
checkpoint and no other.
-/

namespace Asimposium.Krater

/-! ## The recomputed chain -/

def recomputedRow (sha256Hex : String → String) (problem : String) (seq : Nat)
    (event : ParsedEvent) : String :=
  sha256Hex (eventEnvelopeRowPreimage problem seq
    { event.toEventEnvelope with payloadSha256 := sha256Hex event.payloadJson })

/-- The root the events lead to from a root and a sequence on, by their
payloads and envelopes: no recorded digest is read. -/
def recomputedRoot (sha256Hex : String → String) (problem : String) :
    String → Nat → List ParsedEvent → String
  | root, _, [] => root
  | root, seq, event :: rest =>
      recomputedRoot sha256Hex problem
        (sha256Hex (eventChainPreimage problem seq (sha256Hex event.payloadJson)
          (recomputedRow sha256Hex problem seq event) root))
        (seq + 1) rest

section Chain

variable {sha256Hex : String → String} {problem previous : String} {seq : Nat}
  {events : List ParsedEvent}

theorem EventSound.recomputed {event : ParsedEvent}
    (h : EventSound sha256Hex problem previous seq event) :
    sha256Hex (eventChainPreimage problem seq (sha256Hex event.payloadJson)
      (recomputedRow sha256Hex problem seq event) previous) = event.chainDigest := by
  have henvelope : { event.toEventEnvelope with payloadSha256 := sha256Hex event.payloadJson }
      = event.toEventEnvelope := by
    rw [h.payload]
  have hrow : recomputedRow sha256Hex problem seq event = event.rowDigest := by
    rw [recomputedRow, henvelope, ← h.seq]
    exact h.row
  rw [hrow, h.payload, ← h.seq]
  exact h.chain

theorem ChainSound.recomputed (h : ChainSound sha256Hex problem previous seq events) :
    recomputedRoot sha256Hex problem previous seq events
      = HashChain.tip (·.chainDigest) previous events := by
  induction events generalizing previous seq with
  | nil => rfl
  | cons event rest ih =>
      rw [recomputedRoot, h.1.recomputed, ih h.2, HashChain.tip_cons]

theorem ChainSound.recomputed_take (h : ChainSound sha256Hex problem previous seq events)
    {event : ParsedEvent} (hevent : event ∈ events) :
    recomputedRoot sha256Hex problem previous seq (events.take (event.seq + 1 - seq))
      = event.chainDigest := by
  induction events generalizing previous seq with
  | nil => exact absurd hevent List.not_mem_nil
  | cons first rest ih =>
      rcases List.mem_cons.mp hevent with rfl | hrest
      · have hone : event.seq + 1 - seq = 1 := by
          have hseq := h.1.seq
          omega
        rw [hone, List.take_succ_cons, List.take_zero, recomputedRoot, h.1.recomputed]
        rfl
      · have hbounds := h.2.seq_mem event hrest
        have hsucc : event.seq + 1 - seq = (event.seq + 1 - (seq + 1)) + 1 := by omega
        rw [hsucc, List.take_succ_cons, recomputedRoot, h.1.recomputed]
        exact ih h.2 hrest

end Chain

/-! ## Statements -/

structure CheckpointStatement.WellFormed (statement : CheckpointStatement) : Prop where
  problem : isProblemId statement.problemId = true
  seq : isPositiveInteger statement.checkpointSeq = true
  root : isSha256Hex statement.rootChainDigest = true
  digest : isSha256Hex statement.checkpointDigest = true

theorem not_newline_of_hex {digest : String} (h : isSha256Hex digest = true) :
    '\n' ∉ digest.toList := by
  rw [isSha256Hex, Bool.and_eq_true, List.all_eq_true] at h
  intro hmem
  exact absurd (h.2 _ hmem) (by decide)

theorem not_newline_of_problemId {id : String} (h : isProblemId id = true) :
    '\n' ∉ id.toList := by
  unfold isProblemId at h
  split at h
  · rename_i first rest hchars
    simp only [Bool.and_eq_true, Bool.or_eq_true, List.all_eq_true] at h
    rw [hchars]
    intro hmem
    simp only [List.mem_cons] at hmem
    rcases hmem with hmem | hmem | rfl | hmem
    · exact absurd hmem (by decide)
    · exact absurd hmem (by decide)
    · exact absurd h.1.1.1 (by decide)
    · exact absurd (h.2 _ hmem) (by decide)
  · cases h

theorem not_newline_of_int (n : Int) : '\n' ∉ (toString n).toList := by
  have hnat : ∀ m : Nat, '\n' ∉ Nat.toDigits 10 m := by
    intro m hmem
    exact absurd (Nat.isDigit_of_mem_toDigits (b := 10) (by decide) (by decide) hmem) (by decide)
  cases n with
  | ofNat m =>
      have hlist : (toString (Int.ofNat m)).toList = Nat.toDigits 10 m := by
        simp [toString, Int.repr, Nat.repr]
      rw [hlist]
      exact hnat m
  | negSucc m =>
      have hlist : (toString (Int.negSucc m)).toList = '-' :: Nat.toDigits 10 (m + 1) := by
        simp [toString, Int.repr, Nat.repr]
      rw [hlist, List.mem_cons, not_or]
      exact ⟨by decide, hnat (m + 1)⟩

theorem message_parts {statement : CheckpointStatement} (h : statement.WellFormed) :
    (checkpointSignatureMessage statement).toList.splitOn '\n'
      = [checkpointSignatureMessageFormat.toList, statement.problemId.toList,
        (toString statement.checkpointSeq).toList, statement.rootChainDigest.toList,
        statement.checkpointDigest.toList] := by
  have hformat : '\n' ∉ checkpointSignatureMessageFormat.toList := by decide
  have hlist : (checkpointSignatureMessage statement).toList
      = ['\n'].intercalate [checkpointSignatureMessageFormat.toList, statement.problemId.toList,
        (toString statement.checkpointSeq).toList, statement.rootChainDigest.toList,
        statement.checkpointDigest.toList] := by
    rw [checkpointSignatureMessage, String.toList_intercalate]
    rfl
  rw [hlist]
  refine List.splitOn_intercalate '\n' ?_ (List.cons_ne_nil _ _)
  simp only [List.forall_mem_cons]
  exact ⟨hformat, not_newline_of_problemId h.problem, not_newline_of_int _,
    not_newline_of_hex h.root, not_newline_of_hex h.digest, fun _ h => absurd h List.not_mem_nil⟩

theorem checkpointSignatureMessage_injective {a b : CheckpointStatement} (ha : a.WellFormed)
    (hb : b.WellFormed) (h : checkpointSignatureMessage a = checkpointSignatureMessage b) :
    a = b := by
  have hparts := message_parts ha
  rw [h, message_parts hb] at hparts
  simp only [List.cons.injEq, true_and, and_true, String.toList_inj] at hparts
  obtain ⟨hproblem, hseq, hroot, hdigest⟩ := hparts
  cases a
  cases b
  simp only at hproblem hseq hroot hdigest
  rw [hproblem, Numerals.toString_injective hseq, hroot, hdigest]

/-! ## The loop over the signatures -/

section Loop

variable {sha256Hex : String → String} {verify : String → String → String → Bool}
  {isDatetime : String → Bool} {input : BundleInput} {trusted : List (String × String)}

/-- The signature is of an exported checkpoint and verifies under a key of its
label in the bundle. -/
structure Counted (sha256Hex : String → String) (verify : String → String → String → Bool)
    (input : BundleInput) (signature : CheckpointSignature) (publicKey : String) : Prop where
  mem : signature ∈ input.bundle.signatures
  attached : isAttached sha256Hex input signature = true
  verified : verifyCheckpointSignature verify input.problemId signature publicKey = true

/-- What the loop has counted comes from signatures it has seen. -/
structure Reach.Sound (sha256Hex : String → String) (verify : String → String → String → Bool)
    (input : BundleInput) (trusted : List (String × String)) (reach : Reach) : Prop where
  order : reach.trustedThrough ≤ reach.signedThrough
  signed : reach.signedThrough = 0 ∨ ∃ signature publicKey,
    Counted sha256Hex verify input signature publicKey
      ∧ signature.checkpointSeq = reach.signedThrough
  trusted : reach.trustedThrough = 0 ∨ ∃ signature publicKey,
    Counted sha256Hex verify input signature publicKey
      ∧ signature.checkpointSeq = reach.trustedThrough
      ∧ trusted.lookup signature.keyId = some publicKey

theorem verifySignature_ok {reach after : Reach} {signature : CheckpointSignature}
    (h : verifySignature sha256Hex verify input trusted reach signature = .ok after) :
    ∃ publicKey, isAttached sha256Hex input signature = true
      ∧ verifyCheckpointSignature verify input.problemId signature publicKey = true
      ∧ after = { signedThrough := max reach.signedThrough signature.checkpointSeq
                  trustedThrough :=
                    if trusted.lookup signature.keyId = some publicKey then
                      max reach.trustedThrough signature.checkpointSeq
                    else reach.trustedThrough } := by
  unfold verifySignature at h
  split at h
  · cases h
  · rename_i key _
    split at h
    · cases h
    · rename_i hattached
      split at h
      · cases h
      · rename_i hverified
        exact ⟨key.publicKey, by simpa using hattached, by simpa using hverified,
          (Except.ok.inj h).symm⟩

theorem verifySignature_sound {reach after : Reach} {signature : CheckpointSignature}
    (hmem : signature ∈ input.bundle.signatures)
    (hsound : reach.Sound sha256Hex verify input trusted)
    (h : verifySignature sha256Hex verify input trusted reach signature = .ok after) :
    after.Sound sha256Hex verify input trusted := by
  obtain ⟨publicKey, hattached, hverified, rfl⟩ := verifySignature_ok h
  have hcounted : Counted sha256Hex verify input signature publicKey :=
    ⟨hmem, hattached, hverified⟩
  obtain ⟨horder, hsigned, htrusted⟩ := hsound
  refine ⟨?_, ?_, ?_⟩
  · dsimp only
    split_ifs
    · exact max_le_max_right _ horder
    · exact horder.trans (le_max_left _ _)
  · rcases max_choice reach.signedThrough signature.checkpointSeq with hmax | hmax
    · dsimp only
      rw [hmax]
      exact hsigned
    · exact .inr ⟨signature, publicKey, hcounted, hmax.symm⟩
  · dsimp only
    split_ifs with hpinned
    · rcases max_choice reach.trustedThrough signature.checkpointSeq with hmax | hmax
      · rw [hmax]
        exact htrusted
      · exact .inr ⟨signature, publicKey, hcounted, hmax.symm, hpinned⟩
    · exact htrusted

theorem pinKeys_lookup {pins : List ExportTrustedKey} (h : pins.foldlM pinKey [] = .ok trusted)
    {keyId publicKey : String} (hlookup : trusted.lookup keyId = some publicKey) :
    { keyId, publicKey } ∈ pins := by
  have hall : ∀ entry ∈ trusted, ExportTrustedKey.mk entry.1 entry.2 ∈ pins := by
    refine ExceptRun.run_invariant
      (I := fun trusted => ∀ entry ∈ trusted, ExportTrustedKey.mk entry.1 entry.2 ∈ pins)
      ?_ (fun _ h => absurd h List.not_mem_nil) h
    intro map pin after hpin hmap hstep
    unfold pinKey at hstep
    split at hstep
    · cases hstep
    · cases hstep
      rw [List.forall_mem_cons]
      exact ⟨hpin, hmap⟩
  obtain ⟨front, back, rfl, -⟩ := List.lookup_eq_some_iff.mp hlookup
  exact hall (keyId, publicKey) (by simp)

theorem verifyExportCheckpointBundle_ok {assurance : ExportSignatureAssurance}
    (h : verifyExportCheckpointBundle isDatetime sha256Hex verify input = .ok assurance) :
    input.bundle.isValid isDatetime = true ∧ input.bundle.problemId = input.problemId
      ∧ input.bundle.through = input.through
      ∧ ∃ trusted reach, input.trustedKeys.foldlM pinKey [] = .ok trusted
        ∧ reach.Sound sha256Hex verify input trusted ∧ assurance = assuranceOf input reach := by
  unfold verifyExportCheckpointBundle at h
  split at h
  · cases h
  · rename_i hcut
    simp only [Bool.or_eq_true, not_or, Bool.not_eq_true', Bool.not_eq_false, bne_iff_ne, ne_eq,
      not_not] at hcut
    obtain ⟨trusted, hpins, h⟩ := ExceptRun.bind_ok.mp h
    obtain ⟨reach, hloop, h⟩ := ExceptRun.bind_ok.mp h
    refine ⟨hcut.1.1, hcut.1.2, hcut.2, trusted, reach, hpins, ?_, (Except.ok.inj h).symm⟩
    exact ExceptRun.run_invariant
      (I := fun reach => reach.Sound sha256Hex verify input trusted)
      (fun reach signature after hmem hsound hstep =>
        verifySignature_sound hmem hsound hstep)
      ⟨le_rfl, .inl rfl, .inl rfl⟩ hloop

end Loop

/-! ## Checkpoints on the chain -/

/-- A checkpoint of the chain recomputed from the genesis. -/
structure CheckpointRow.OnChain (sha256Hex : String → String) (problem : String)
    (events : List ParsedEvent) (checkpoint : CheckpointRow) : Prop where
  pos : 0 < checkpoint.checkpointSeq
  le : checkpoint.checkpointSeq ≤ events.length
  root : checkpoint.rootChainDigest = recomputedRoot sha256Hex problem
    (sha256Hex (genesisPreimage problem)) 1 (events.take checkpoint.checkpointSeq)
  digest : checkpoint.checkpointDigest = sha256Hex (checkpointPreimage problem
    checkpoint.checkpointSeq checkpoint.rootChainDigest)

def CheckpointRow.statement (checkpoint : CheckpointRow) (problemId : String) :
    CheckpointStatement :=
  { problemId
    checkpointSeq := checkpoint.checkpointSeq
    rootChainDigest := checkpoint.rootChainDigest
    checkpointDigest := checkpoint.checkpointDigest }

/-- Some pinned key has a valid signature over exactly this statement. -/
def Attested (verify : String → String → String → Bool) (Signed : String → String → Prop)
    (pins : List ExportTrustedKey) (statement : CheckpointStatement) : Prop :=
  ∃ key ∈ pins, (∃ signature,
      verify key.publicKey (checkpointSignatureMessage statement) signature = true)
    ∧ Signed key.publicKey (checkpointSignatureMessage statement)
    ∧ ∀ other : CheckpointStatement, other.WellFormed →
      checkpointSignatureMessage other = checkpointSignatureMessage statement → other = statement

theorem latest_some {α : Type} {holds : α → Bool} {l : List α} {a : α}
    (h : latest holds l = some a) : a ∈ l ∧ holds a = true :=
  ⟨List.mem_reverse.mp (List.mem_of_find?_eq_some h), List.find?_some h⟩

section Authenticity

variable {sha256Hex : String → String} {verify : String → String → String → Bool}
  {isDatetime : String → Bool} {Signed : String → String → Prop} {parsed : ParsedExport}
  {pin : Option ProblemExportCheckpointPin} {bundle : ExportCheckpointBundle}
  {pins : List ExportTrustedKey}

def ParsedExport.bundleInput (parsed : ParsedExport) (bundle : ExportCheckpointBundle)
    (pins : List ExportTrustedKey) : BundleInput :=
  { bundle
    problemId := parsed.header.problem
    through := parsed.trailer.finalCursor
    events := parsed.events
    checkpoints := parsed.header.checkpoints
    trustedKeys := pins }

theorem Intact.onChain (hintact : Intact sha256Hex parsed pin none) {checkpoint : CheckpointRow}
    (hmem : checkpoint ∈ parsed.header.checkpoints) :
    checkpoint.OnChain sha256Hex parsed.header.problem parsed.events := by
  obtain ⟨event, hevent, hmarks⟩ := hintact.marks checkpoint hmem
  have hbounds := hintact.chain.seq_mem event hevent
  have hroot := hintact.chain.recomputed_take hevent
  simp only [startSeq, startRoot, Option.map_none, Option.getD_none] at hbounds hroot
  refine ⟨?_, ?_, ?_, hmarks.digest.symm⟩
  · rw [hmarks.seq]
    omega
  · rw [hmarks.seq]
    omega
  · rw [hmarks.root, hmarks.seq]
    exact hroot.symm

theorem Counted.checkpoint {signature : CheckpointSignature} {publicKey : String}
    (hcounted : Counted sha256Hex verify (parsed.bundleInput bundle pins) signature publicKey) :
    ∃ checkpoint ∈ parsed.header.checkpoints,
      signature.checkpointSeq = checkpoint.checkpointSeq
        ∧ signature.statement parsed.header.problem
          = checkpoint.statement parsed.header.problem := by
  have hattached := hcounted.attached
  simp only [isAttached, Bool.and_eq_true, Option.any_eq_true, beq_iff_eq] at hattached
  obtain ⟨⟨⟨checkpoint, hlatest, hroot, hdigest⟩, -⟩, -⟩ := hattached
  obtain ⟨hmem, hseq⟩ := latest_some hlatest
  have hseq' := beq_iff_eq.mp hseq
  refine ⟨checkpoint, hmem, hseq'.symm, ?_⟩
  rw [CheckpointSignature.statement, CheckpointRow.statement, hroot, hdigest, hseq']

theorem signature_wellFormed {input : BundleInput} {signature : CheckpointSignature}
    (hvalid : input.bundle.isValid isDatetime = true)
    (hproblem : input.bundle.problemId = input.problemId)
    (hmem : signature ∈ input.bundle.signatures) :
    (signature.statement input.problemId).WellFormed := by
  simp only [ExportCheckpointBundle.isValid, Bool.and_eq_true, List.all_eq_true] at hvalid
  have hid : isProblemId input.bundle.problemId = true := by tauto
  have hall : ∀ s ∈ input.bundle.signatures, s.isValid isDatetime = true := by tauto
  have hsignature := hall signature hmem
  simp only [CheckpointSignature.isValid, Bool.and_eq_true] at hsignature
  rw [hproblem] at hid
  exact ⟨hid, hsignature.1.1.1.1.1.1, hsignature.1.1.1.1.1.2, hsignature.1.1.1.1.2⟩

theorem Counted.attested
    (genuine : ∀ publicKey message signature,
      verify publicKey message signature = true → Signed publicKey message)
    {trusted : List (String × String)} {signature : CheckpointSignature} {publicKey : String}
    (hpins : pins.foldlM pinKey [] = .ok trusted)
    (hwell : (signature.statement parsed.header.problem).WellFormed)
    (hcounted : Counted sha256Hex verify (parsed.bundleInput bundle pins) signature publicKey)
    (hlookup : trusted.lookup signature.keyId = some publicKey) :
    Attested verify Signed pins (signature.statement parsed.header.problem) := by
  have hverified := hcounted.verified
  rw [verifyCheckpointSignature, Bool.and_eq_true] at hverified
  refine ⟨_, pinKeys_lookup hpins hlookup, ⟨_, hverified.2⟩, genuine _ _ _ hverified.2, ?_⟩
  intro other hother hmessage
  exact checkpointSignatureMessage_injective hother hwell hmessage

/-- What the verifier reports of an intact export: nothing is signed beyond
its last sequence or trusted beyond what is signed, all that is trusted lies
at or before a checkpoint of the recomputed chain which a pinned key signed,
and it is authenticated only by a pinned key over the terminal checkpoint. -/
theorem exportCheckpointBundle_sound {parseJson : String → Option JsonValue} {ndjson : String}
    {verified : Verified} {assurance : ExportSignatureAssurance}
    (genuine : ∀ publicKey message signature,
      verify publicKey message signature = true → Signed publicKey message)
    (hparse : parseExportRange parseJson ndjson false = .ok parsed)
    (hverified : verifyProblemExportChain parseJson sha256Hex ndjson pin = .ok verified)
    (hbundle : verifyExportCheckpointBundle isDatetime sha256Hex verify
      (parsed.bundleInput bundle pins) = .ok assurance) :
    (assurance.trustedThrough ≤ assurance.signedThrough
        ∧ assurance.signedThrough ≤ verified.eventCount)
      ∧ (∀ seq : Nat, 0 < seq → (seq : Int) ≤ assurance.trustedThrough →
        ∃ checkpoint ∈ parsed.header.checkpoints, seq ≤ checkpoint.checkpointSeq
          ∧ checkpoint.OnChain sha256Hex parsed.header.problem parsed.events
          ∧ Attested verify Signed pins (checkpoint.statement parsed.header.problem))
      ∧ (assurance.authenticated = true →
        verified.finalChainDigest = recomputedRoot sha256Hex parsed.header.problem
            (sha256Hex (genesisPreimage parsed.header.problem)) 1 parsed.events
          ∧ Attested verify Signed pins
            { problemId := parsed.header.problem
              checkpointSeq := verified.eventCount
              rootChainDigest := verified.finalChainDigest
              checkpointDigest := sha256Hex (checkpointPreimage parsed.header.problem
                verified.eventCount verified.finalChainDigest) }) := by
  have hchain : verifyParsed sha256Hex parsed pin none = .ok verified := by
    rw [verifyProblemExportChain, verifyExportRange, Option.isSome_none, hparse] at hverified
    exact hverified
  obtain ⟨hintact, rfl⟩ := (verifyParsed_ok (parseExportRange_ordered hparse)).mp hchain
  obtain ⟨hvalid, hproblem, -, trusted, reach, hpins, hsound, rfl⟩ :=
    verifyExportCheckpointBundle_ok hbundle
  have hcursor : parsed.trailer.finalCursor = parsed.events.length := by
    rw [hintact.cursor, startSeq]
    simp
  have hcovered : ∀ {signature : CheckpointSignature} {publicKey : String},
      Counted sha256Hex verify (parsed.bundleInput bundle pins) signature publicKey →
      ∃ checkpoint ∈ parsed.header.checkpoints,
        signature.checkpointSeq = checkpoint.checkpointSeq
        ∧ checkpoint.OnChain sha256Hex parsed.header.problem parsed.events
        ∧ signature.statement parsed.header.problem
          = checkpoint.statement parsed.header.problem := by
    intro signature publicKey hcounted
    obtain ⟨checkpoint, hmem, hseq, hstatement⟩ := hcounted.checkpoint
    exact ⟨checkpoint, hmem, hseq, hintact.onChain hmem, hstatement⟩
  have htrusted : 0 < reach.trustedThrough → ∃ checkpoint ∈ parsed.header.checkpoints,
      reach.trustedThrough = checkpoint.checkpointSeq
        ∧ checkpoint.OnChain sha256Hex parsed.header.problem parsed.events
        ∧ Attested verify Signed pins (checkpoint.statement parsed.header.problem) := by
    intro hpos
    rcases hsound.trusted with hzero | ⟨signature, publicKey, hcounted, hseq, hlookup⟩
    · omega
    · obtain ⟨checkpoint, hmem, hseq', honChain, hstatement⟩ := hcovered hcounted
      refine ⟨checkpoint, hmem, hseq.symm.trans hseq', honChain, ?_⟩
      rw [← hstatement]
      exact hcounted.attested genuine hpins
        (signature_wellFormed hvalid hproblem hcounted.mem) hlookup
  refine ⟨⟨hsound.order, ?_⟩, ?_, ?_⟩
  · show reach.signedThrough ≤ (parsed.events.length : Int)
    rcases hsound.signed with hzero | ⟨signature, publicKey, hcounted, hseq⟩
    · omega
    · obtain ⟨checkpoint, -, hseq', honChain, -⟩ := hcovered hcounted
      have hle := honChain.le
      omega
  · intro seq hpos hle
    obtain ⟨checkpoint, hmem, hseq, honChain, hattested⟩ := htrusted (by
      have hreach : (seq : Int) ≤ reach.trustedThrough := hle
      omega)
    refine ⟨checkpoint, hmem, ?_, honChain, hattested⟩
    have hreach : (seq : Int) ≤ reach.trustedThrough := hle
    omega
  · intro hauthenticated
    simp only [assuranceOf, ParsedExport.bundleInput, Bool.and_eq_true, decide_eq_true_eq,
      beq_iff_eq, hcursor] at hauthenticated
    obtain ⟨checkpoint, -, hseq, honChain, hattested⟩ := htrusted (by omega)
    have hlast : checkpoint.checkpointSeq = parsed.events.length := by omega
    have htip := hintact.chain.recomputed
    simp only [startSeq, startRoot, Option.map_none, Option.getD_none] at htip
    have hroot : checkpoint.rootChainDigest = HashChain.tip (·.chainDigest)
        (sha256Hex (genesisPreimage parsed.header.problem)) parsed.events := by
      rw [honChain.root, hlast, List.take_length]
      exact htip
    refine ⟨htip.symm, ?_⟩
    have hstatement : checkpoint.statement parsed.header.problem
        = { problemId := parsed.header.problem
            checkpointSeq := parsed.events.length
            rootChainDigest := HashChain.tip (·.chainDigest)
              (sha256Hex (genesisPreimage parsed.header.problem)) parsed.events
            checkpointDigest := sha256Hex (checkpointPreimage parsed.header.problem
              parsed.events.length (HashChain.tip (·.chainDigest)
                (sha256Hex (genesisPreimage parsed.header.problem)) parsed.events)) } := by
      rw [CheckpointRow.statement, honChain.digest, hroot, hlast]
    rw [hstatement] at hattested
    exact hattested

end Authenticity

/-! ## A signed export -/

def signedCheckpoint : KraterCheckpoint :=
  { problemId := "P-AB", checkpointSeq := 1, rootChainDigest := sampleEvent.chainDigest
    checkpointDigest := "a7422a39d8da0c454615f0d4c6431efb15faf07768d86744ebce0c4dc21668db" }

def signedInput : ProblemExportInput :=
  { sampleInput "T" [sampleEvent] with checkpoints := [signedCheckpoint] }

def signedHeader : String :=
  "\x7b\"control\":\"export_header\",\"format\":\"asimposium.problem-export.v3\",\"license\":\"CC BY 4.0\",\"problem\":\"P-AB\",\"title\":\"T\",\"generated_at\":\"2020-01-01T00:00:00Z\",\"checkpoints\":[\x7b\"checkpoint_seq\":1,\"root_chain_digest\":\"557483736817f9312131f01fcc4c6dcbd2e3fa50d1b5a70479ef03d74b6b29f8\",\"checkpoint_digest\":\"a7422a39d8da0c454615f0d4c6431efb15faf07768d86744ebce0c4dc21668db\",\"checkpoint_version\":1,\"chain_version\":2,\"checkpoint_mode\":\"unsigned-v0\",\"problem\":\"P-AB\"\x7d]\x7d"

def signedJson (line : String) : Option JsonValue :=
  if line = signedHeader then some (.object (headerRecord signedInput)) else sampleJson line

def signedRecords : Records :=
  { first := signedHeader, events := [sampleLine], last := sampleTrailer }

def signedSha (text : String) : String :=
  if text = checkpointPreimage "P-AB" 1 sampleEvent.chainDigest then
    signedCheckpoint.checkpointDigest
  else sampleSha text

def signedPin : ExportTrustedKey :=
  { keyId := "key-a"
    publicKey := "d04ab232742bb4ab3a1368bd4615e4e6d0224ab71a016baf8520a332c9778737" }

def signedBundle : ExportCheckpointBundle where
  format := "asimposium.export-checkpoints.v1"
  problemId := "P-AB"
  through := 1
  messageFormat := checkpointSignatureMessageFormat
  selection := "latest-per-configured-key"
  signedMaterial := "original-event-chain-only"
  keyTrust := "independently-pinned-keys-required"
  keys := [{ keyId := "key-a", algorithm := "Ed25519", publicKey := signedPin.publicKey }]
  signatures := [{
    checkpointSeq := 1
    rootChainDigest := sampleEvent.chainDigest
    checkpointDigest := signedCheckpoint.checkpointDigest
    keyId := "key-a"
    algorithm := "Ed25519"
    signature := "e97cdea0a203fcdce21f9175f050611d730c6a467b932249e711adcf281dce08f7ec907dfeade354c1b39885d36053c8e45166232740b09df8d3183f1478eb07"
    signedAt := "2026-11-06T00:00:00.000Z" }]

def signedVerify (publicKey message signature : String) : Bool :=
  publicKey == signedPin.publicKey
    && message == checkpointSignatureMessage (signedCheckpoint.toCheckpointRow.statement "P-AB")
    && signedBundle.signatures.any (·.signature == signature)

theorem signedSha_of_length {members : List (String × JsonScalar)} (h : members.length ≠ 5) :
    signedSha (canonicalJson members) = sampleSha (canonicalJson members) := by
  refine if_neg fun heq => h ?_
  rw [canonicalJson_injective heq]
  rfl

theorem signed_sound : Sound signedSha "P-AB"
    { seq := 0, root := signedSha (genesisPreimage "P-AB") } [sampleEvent] [signedCheckpoint] := by
  have hgenesis : signedSha (genesisPreimage "P-AB") = sampleSha (genesisPreimage "P-AB") :=
    signedSha_of_length (by decide)
  obtain ⟨-, -, -, ⟨hsound, -⟩, -⟩ := sample_sound
  have hpayload : signedSha sampleEvent.payloadJson = sampleSha sampleEvent.payloadJson := by
    have hempty : sampleEvent.payloadJson = canonicalJson [] := rfl
    rw [hempty]
    exact signedSha_of_length (by decide)
  have hevent : EventSound signedSha "P-AB" (signedSha (genesisPreimage "P-AB")) 1 sampleEvent := by
    refine ⟨rfl, hpayload.trans hsound.payload, ?_, ?_⟩
    · exact (signedSha_of_length (by simp)).trans hsound.row
    · rw [hgenesis]
      exact (signedSha_of_length (by simp)).trans hsound.chain
  refine ⟨fun event hevent => ?_, fun c hc => ?_, List.pairwise_singleton _ _, ⟨hevent, trivial⟩, ?_⟩
  · rw [List.mem_singleton.mp hevent]
    exact sample_parse
  · rw [List.mem_singleton.mp hc]
    unfold CheckpointExportable
    decide +kernel
  · intro checkpoint hcheckpoint
    rw [checkpointRows, List.map_singleton, List.mem_singleton] at hcheckpoint
    rw [hcheckpoint]
    exact ⟨sampleEvent, List.mem_singleton_self _, rfl, rfl, if_pos rfl⟩

set_option maxRecDepth 4000 in
theorem signed_carries : Carries signedJson signedRecords signedInput := by
  have hlines : ∀ line ∈ [signedHeader, sampleLine, sampleTrailer], isRecordLine line = true := by
    have hheader : isRecordLine signedHeader = true :=
      (isRecordLine_ofList _).trans (by decide)
    rw [List.forall_mem_cons]
    exact ⟨hheader, fun line hline => sample_lines line
      ((by simp : [sampleLine, sampleTrailer] ⊆ _) hline)⟩
  have hline : sampleLine ≠ signedHeader := ne_of_chars (by decide)
  have htrailer : sampleTrailer ≠ signedHeader := ne_of_chars (by decide)
  exact ⟨hlines, if_pos rfl, .cons ((if_neg hline).trans sampleJson_line) .nil,
    (if_neg htrailer).trans sampleJson_trailer⟩

theorem signed_head : HeadExportable signedInput :=
  (headExportable_congr rfl rfl rfl).mp (sample_head [sampleEvent]).1

theorem signed_verified : verifyProblemExportChain signedJson signedSha signedRecords.text none
    = .ok { eventCount := 1, finalChainDigest := sampleEvent.chainDigest } :=
  (verifyProblemExportChain_ok signed_carries).mpr ⟨signed_head, signed_sound, rfl⟩

theorem signed_parsed :
    parseExportRange signedJson signedRecords.text false = .ok signedInput.parsed := by
  refine (parseExportRange_carries signed_carries).mpr ⟨rfl,
    ⟨signed_head, signed_sound.checkpointsOk, signed_sound.ordered, signed_sound.eventsOk⟩,
    by decide, by decide, by decide, ?_⟩
  intro c hc
  rw [checkpointRows, signedInput, List.map_singleton, List.mem_singleton] at hc
  rw [hc]
  decide

theorem signed_bundle : verifyExportCheckpointBundle (fun _ => true) signedSha signedVerify
    (signedInput.parsed.bundleInput signedBundle [signedPin])
    = .ok { checkpointSignaturesValid := some true, checkpointSignatureCount := 1
            signedThrough := 1, trustedThrough := 1, signatureCoverage := .complete
            authenticated := true } := by
  decide +kernel

/-- The export of one event is authenticated by the pinned key. -/
theorem signedExport_attested :
    Attested signedVerify (fun publicKey message => ∃ signature,
        signedVerify publicKey message signature = true) [signedPin]
      { problemId := "P-AB", checkpointSeq := 1, rootChainDigest := sampleEvent.chainDigest
        checkpointDigest :=
          signedSha (checkpointPreimage "P-AB" 1 sampleEvent.chainDigest) } :=
  ((exportCheckpointBundle_sound (fun _ _ signature h => ⟨signature, h⟩) signed_parsed
    signed_verified signed_bundle).2.2 rfl).2

end Asimposium.Krater
