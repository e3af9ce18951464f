import Mathlib.Data.List.TakeWhile
import Asimposium.Retention.JournalAuthentic

/-!
# Journals are read as they were signed

The lines of a journal are clean, so the text is split where it was joined.
Every line is read as the record it prints, and refused exactly if the record
names a blank target or a time that is no date.
-/

namespace Asimposium.JournalText

open Codec (Value Number FloatFormat stringify canonicalJson parseJson Same Clean)
open Retention (RetentionControlAction RetentionTargetType)

variable {F : Type} {π : Platform F}

/-! ## Records that are read -/

theorem demand_ok {α : Type} {reason : String} {o : Option α} {a : α} :
    demand reason o = .ok a ↔ o = some a := by
  cases o <;> simp [demand]

structure Reads (π : Platform F) (members : List (Text × Value F))
    (record : RetentionControlRecord F) : Prop where
  controlId : stringMember members "controlId" = some record.controlId
  named : Text.startsWith record.controlId (text "RC-") = true
  action : stringMember members "action" = some (text (actionName record.action))
  targetId : stringMember members "targetId" = some record.targetId
  target : (Text.trim record.targetId).isEmpty = false
  targetType : stringMember members "targetType" = some (text (targetTypeName record.targetType))
  issuedAt : stringMember members "issuedAt" = some record.issuedAt
  dated : π.parsesDate record.issuedAt = true
  payload : objectMember members "payload" = some record.payload
  controlDigest : stringMember members "controlDigest" = some record.controlDigest
  hex : isHexText 64 record.controlDigest = true

theorem find_action {t : Text} {action : RetentionControlAction} :
    (allActions.find? fun action => text (actionName action) == t) = some action
      ↔ t = text (actionName action) := by
  constructor
  · intro h
    have hfound := List.find?_some h
    exact (beq_iff_eq.mp hfound).symm
  · rintro rfl
    cases action <;> decide

theorem find_targetType {t : Text} {targetType : RetentionTargetType} :
    (allTargetTypes.find? fun targetType => text (targetTypeName targetType) == t)
      = some targetType ↔ t = text (targetTypeName targetType) := by
  constructor
  · intro h
    have hfound := List.find?_some h
    exact (beq_iff_eq.mp hfound).symm
  · rintro rfl
    cases targetType <;> decide

variable {record : RetentionControlRecord F}

theorem readControl_ok {members : List (Text × Value F)} :
    readControl π members = .ok record ↔ Reads π members record := by
  simp only [readControl, ExceptRun.bind_ok, demand_ok, Option.filter_eq_some_iff,
    Option.bind_eq_some_iff, find_action, find_targetType]
  constructor
  · rintro ⟨_, ⟨hid, hnamed⟩, _, ⟨_, haction, rfl⟩, _, ⟨htarget, hblank⟩, _, ⟨_, htype, rfl⟩, _,
      ⟨hissued, hdated⟩, _, hpayload, _, ⟨hdigest, hhex⟩, h⟩
    obtain rfl := Except.ok.inj h
    exact ⟨hid, hnamed, haction, htarget, by simpa using hblank, htype, hissued, hdated, hpayload,
      hdigest, hhex⟩
  · intro h
    exact ⟨_, ⟨h.controlId, h.named⟩, _, ⟨_, h.action, rfl⟩, _, ⟨h.targetId, by simp [h.target]⟩, _,
      ⟨_, h.targetType, rfl⟩, _, ⟨h.issuedAt, h.dated⟩, _, h.payload, _,
      ⟨h.controlDigest, h.hex⟩, rfl⟩

theorem verifyRetentionControlRecord_ok {v : Value F} :
    verifyRetentionControlRecord π v = .ok record ↔ ∃ members, v = .obj members
      ∧ Reads π members record
      ∧ computeRetentionControlDigest π record.toRetentionControl = .ok record.controlDigest := by
  have hverify : ∀ members : List (Text × Value F), (do
      let record ← readControl π members
      let recomputed ← computeRetentionControlDigest π record.toRetentionControl
      if recomputed ≠ record.controlDigest then
        .error (text "controlDigest mismatch — record is tampered")
      else .ok record : Except Text (RetentionControlRecord F)) = .ok record
      ↔ Reads π members record
        ∧ computeRetentionControlDigest π record.toRetentionControl = .ok record.controlDigest := by
    intro members
    simp only [ExceptRun.bind_ok, readControl_ok]
    constructor
    · rintro ⟨read, hread, recomputed, hdigest, h⟩
      split at h
      · cases h
      · rename_i heq
        obtain rfl := Except.ok.inj h
        exact ⟨hread, by rw [hdigest, Decidable.not_not.mp heq]⟩
    · rintro ⟨hread, hdigest⟩
      exact ⟨_, hread, _, hdigest, if_neg fun h => h rfl⟩
  cases v with
  | obj members =>
      constructor
      · intro h
        exact ⟨members, rfl, (hverify members).mp h⟩
      · rintro ⟨_, heq, h⟩
        obtain rfl := Value.obj.inj heq
        exact (hverify members).mpr h
  | arr vs =>
      constructor
      · intro h
        exact absurd ((hverify []).mp h).1.controlId (by simp [stringMember])
      · rintro ⟨_, heq, _⟩
        cases heq
  | null | bool _ | num _ | str _ | foreign =>
      constructor
      · intro h
        cases h
      · rintro ⟨_, heq, _⟩
        cases heq

/-! ## Lines of created records -/

def Restorable (π : Platform F) (record : RetentionControlRecord F) : Prop :=
  (Text.trim record.targetId).isEmpty = false ∧ π.parsesDate record.issuedAt = true

theorem value_isJson (h : record.payload.IsJson) : record.value.IsJson := by
  refine ⟨?_, trivial, trivial, trivial, trivial, trivial, h, trivial, trivial⟩
  show List.Nodup [text "controlId", text "action", text "targetId", text "targetType",
    text "issuedAt", text "payload", text "controlDigest"]
  decide

def RetentionControlRecord.read (record : RetentionControlRecord F) : RetentionControlRecord F :=
  { record with payload := record.payload.unsigned }

theorem parseJson_record (lawful : π.Lawful) (h : record.payload.IsJson) :
    parseJson π.format (stringify π.format record.value) = some record.read.value := by
  rw [Codec.parseJson_stringify lawful.format (value_isJson h)]
  rfl

theorem sameRecord_read (record : RetentionControlRecord F) : SameRecord record record.read :=
  ⟨rfl, rfl, rfl, rfl, rfl, Codec.same_unsigned _, rfl⟩

theorem read_isJson (h : record.payload.IsJson) :
    record.read.payload.IsJson := (Codec.same_unsigned _).normal.1.mp h

theorem controlText_read (h : record.payload.IsJson) :
    controlText π record.read.toRetentionControl = controlText π record.toRetentionControl := by
  have hsame : Same record.toRetentionControl.canonical record.read.toRetentionControl.canonical :=
    Same.member [(text "action", .str (text (actionName record.action))),
      (text "control_id", .str record.controlId), (text "issued_at", .str record.issuedAt)]
      [(text "target_id", .str record.targetId),
        (text "target_type", .str (text (targetTypeName record.targetType)))] (text "payload")
      (Codec.same_unsigned record.payload)
  rw [controlText_eq h, controlText_eq (read_isJson h), hsame.normal.2 (canonical_isJson h)]

theorem verify_created (lawful : π.Lawful) (h : Created π record)
    {other : RetentionControlRecord F} :
    verifyRetentionControlRecord π record.read.value = .ok other
      ↔ other = record.read ∧ Restorable π record := by
  obtain ⟨hsealed, hnamed, members, hpayload⟩ := created_cases h
  have hobject : record.read.payload = .obj (Codec.unsignedMembers members) := by
    show record.payload.unsigned = _
    rw [hpayload]
    rfl
  have hmember : ∀ ms, objectMember (F := F)
      [(text "controlId", .str record.controlId),
        (text "action", .str (text (actionName record.action))),
        (text "targetId", .str record.targetId),
        (text "targetType", .str (text (targetTypeName record.targetType))),
        (text "issuedAt", .str record.issuedAt), (text "payload", .obj ms),
        (text "controlDigest", .str record.controlDigest)] "payload" = some (.obj ms) :=
    fun _ => rfl
  rw [verifyRetentionControlRecord_ok]
  constructor
  · rintro ⟨ms, heq, hreads, -⟩
    obtain rfl := Value.obj.inj heq
    obtain ⟨⟨controlId, action, targetId, targetType, issuedAt, payload⟩, controlDigest⟩ := other
    obtain rfl : record.controlId = controlId := Option.some.inj hreads.controlId
    obtain rfl : record.action = action := text_injective_actions (Option.some.inj hreads.action)
    obtain rfl : record.targetId = targetId := Option.some.inj hreads.targetId
    obtain rfl : record.targetType = targetType :=
      text_injective_targetTypes (Option.some.inj hreads.targetType)
    obtain rfl : record.issuedAt = issuedAt := Option.some.inj hreads.issuedAt
    obtain rfl : record.controlDigest = controlDigest := Option.some.inj hreads.controlDigest
    have hread := hreads.payload
    rw [hobject] at hread
    obtain rfl := Option.some.inj ((hmember _).symm.trans hread)
    refine ⟨?_, hreads.target, hreads.dated⟩
    show _ = { record with payload := record.read.payload }
    rw [hobject]
  · rintro ⟨rfl, htarget, hdated⟩
    refine ⟨_, rfl, ⟨rfl, hnamed, rfl, rfl, htarget, rfl, rfl, hdated, ?_, rfl,
      hsealed.hex lawful⟩, ?_⟩
    · rw [hobject]
      exact hmember _
    · rw [digest_ok (read_isJson hsealed.json), controlText_read hsealed.json]
      exact congrArg Except.ok hsealed.digest.symm

theorem trim_ne_nil {u : UInt16} (hu : Text.isSpace u = false) (t : Text) :
    (Text.trim (u :: t)).isEmpty = false := by
  have hdrop : (u :: t).dropWhile Text.isSpace = u :: t := by
    rw [List.dropWhile_cons, hu]
    rfl
  rw [Text.trim, hdrop, List.isEmpty_reverse, List.isEmpty_eq_false_iff, Ne,
    List.dropWhile_eq_nil_iff]
  intro hall
  have hspace := hall u (by simp)
  rw [hu] at hspace
  cases hspace

theorem readRecordLine_created (lawful : π.Lawful) (h : Created π record)
    {other : RetentionControlRecord F} (number : Nat) :
    readRecordLine π number (stringify π.format record.value) = .ok other
      ↔ other = record.read ∧ Restorable π record := by
  have hline : (Text.trim (stringify π.format record.value)).isEmpty = false :=
    trim_ne_nil (by decide) _
  rw [readRecordLine, hline, parseJson_record lawful (created_cases h).1.json]
  exact ExceptRun.mapError_ok.trans (verify_created lawful h)

theorem readRecordLines_created (lawful : π.Lawful) {records : List (RetentionControlRecord F)}
    (h : ∀ record ∈ records, Created π record) {others : List (RetentionControlRecord F)}
    (number : Nat) :
    readRecordLines π number (records.map fun record => stringify π.format record.value)
        = .ok others
      ↔ others = records.map RetentionControlRecord.read
        ∧ ∀ record ∈ records, Restorable π record := by
  induction records generalizing number others with
  | nil =>
      constructor
      · intro hread
        exact ⟨(Except.ok.inj hread).symm, fun _ hmem => absurd hmem List.not_mem_nil⟩
      · rintro ⟨rfl, -⟩
        rfl
  | cons record records ih =>
      rw [List.forall_mem_cons] at h
      simp only [List.map_cons, readRecordLines, ExceptRun.bind_ok, ExceptRun.map_ok,
        readRecordLine_created lawful h.1, ih h.2, List.forall_mem_cons]
      constructor
      · rintro ⟨_, ⟨rfl, hfirst⟩, _, ⟨rfl, hrest⟩, rfl⟩
        exact ⟨rfl, hfirst, hrest⟩
      · rintro ⟨rfl, hfirst, hrest⟩
        exact ⟨_, ⟨rfl, hfirst⟩, _, ⟨rfl, hrest⟩, rfl⟩

/-! ## Splitting -/

theorem splitJournal_join {lines : List Text} (hclean : ∀ line ∈ lines, Clean line)
    (htwo : 2 ≤ lines.length) :
    splitJournal ([unit '\n'].intercalate lines ++ [unit '\n']) = .ok lines := by
  have hbreak : ∀ line ∈ lines, unit '\n' ∉ line := fun line hline =>
    (hclean line hline).not_mem (by decide)
  have hreturn : unit '\r' ∉ [unit '\n'].intercalate lines ++ [unit '\n'] := by
    rw [List.mem_append, not_or]
    refine ⟨not_mem_intercalate (by decide) fun line hline => ?_, by decide⟩
    exact (hclean line hline).not_mem (by decide)
  have hne : lines ≠ [] := by
    rintro rfl
    cases htwo
  unfold splitJournal
  rw [if_neg (by simp), if_neg (by simpa using hreturn), if_neg (by simp)]
  dsimp only
  rw [List.dropLast_concat, List.splitOn_intercalate (unit '\n') hbreak hne,
    if_neg (by omega)]

theorem journalLines_clean (records : List (RetentionControlRecord F)) (generatedAt : Text)
    (signingKey : Option CheckpointSigningKey) :
    ∀ line ∈ journalLines π records generatedAt signingKey, Clean line := by
  intro line hline
  rcases List.mem_cons.mp hline with rfl | hline
  · exact Codec.clean_stringify _ _
  rcases List.mem_append.mp hline with hline | hline
  · obtain ⟨record, -, rfl⟩ := List.mem_map.mp hline
    exact Codec.clean_stringify _ _
  · rw [List.mem_singleton.mp hline]
    exact Codec.clean_stringify _ _

/-! ## Header and trailer -/

theorem header_isJson (lawful : π.Lawful) (n : Nat) (time : Text) :
    (headerValue π n time).IsJson := by
  refine ⟨?_, trivial, trivial, trivial, lawful.count n, trivial⟩
  show List.Nodup [text "control", text "format", text "generated_at", text "record_count"]
  decide

theorem trailer_isJson (lawful : π.Lawful) (n : Nat) (digest keyId signature : Text) :
    (trailerValue π n digest (some (keyId, signature))).IsJson := by
  refine ⟨?_, trivial, lawful.count n, trivial, trivial, trivial, trivial⟩
  show List.Nodup [text "control", text "record_count", text "final_digest", text "key_id",
    text "signature"]
  decide

def trailerMembers (π : Platform F) (n : Nat) (digest keyId signature : Text) :
    List (Text × Value F) :=
  [(text "control", .str (text trailerControl)), (text "record_count", .num (π.count n).unsigned),
    (text "final_digest", .str digest), (text "key_id", .str keyId),
    (text "signature", .str signature)]

theorem trailer_digest (n : Nat) (digest keyId signature : Text) :
    stringMember (trailerMembers π n digest keyId signature) "final_digest" = some digest := rfl

theorem trailer_key (n : Nat) (digest keyId signature : Text) :
    stringMember (trailerMembers π n digest keyId signature) "key_id" = some keyId := rfl

theorem trailer_signature (n : Nat) (digest keyId signature : Text) :
    stringMember (trailerMembers π n digest keyId signature) "signature" = some signature := rfl

theorem unsigned_unsigned (x : Number F) : x.unsigned.unsigned = x.unsigned := by
  cases x <;> rfl

theorem readFrame_journal [DecidableEq F] (n : Nat) (time digest keyId signature : Text) :
    readFrame π (headerValue π n time).unsigned
        (trailerValue π n digest (some (keyId, signature))).unsigned n
      = .ok (time, trailerMembers π n digest keyId signature) := by
  have hcount : ∀ members : List (Text × Value F),
      members.lookup (text "record_count") = some (.num (π.count n).unsigned) →
      isCount π members "record_count" n = true := by
    intro members hmember
    rw [isCount, hmember]
    exact decide_eq_true (unsigned_unsigned _)
  have htrailer : isCount π (trailerMembers π n digest keyId signature) "record_count" n = true :=
    hcount _ rfl
  show (if (!isCount π (trailerMembers π n digest keyId signature) "record_count" n
      || !isCount π _ "record_count" n) = true then _ else _) = _
  rw [htrailer, hcount]
  · rfl
  · rfl

/-! ## The signature of a trailer -/

theorem verifySignature_ok {trailer : List (Text × Value F)}
    {verifyKeys : List CheckpointVerifyKey} {message keyId : Text} :
    verifySignature π trailer verifyKeys message = .ok keyId
      ↔ stringMember trailer "key_id" = some keyId ∧ ∃ signature verifyKey,
        stringMember trailer "signature" = some signature ∧ isHexText 128 signature = true
          ∧ verifyKeys.find? (·.kid == keyId) = some verifyKey
          ∧ π.verify verifyKey.publicKeyHex message.utf8 signature = true := by
  unfold verifySignature
  split
  · rename_i keyId' signature hkey hsignature
    rw [hkey, hsignature]
    constructor
    · intro h
      split at h
      · cases h
      rename_i hhex
      split at h
      · cases h
      rename_i verifyKey hfind
      split at h
      · rename_i hverify
        obtain rfl := Except.ok.inj h
        exact ⟨rfl, signature, verifyKey, rfl, by simpa using hhex, hfind, hverify⟩
      · cases h
    · rintro ⟨hid, _, verifyKey, hsame, hhex, hfind, hverify⟩
      obtain rfl := Option.some.inj hid
      obtain rfl := Option.some.inj hsame
      rw [if_neg (by simpa using hhex), hfind]
      exact if_pos hverify
  · rename_i hmissing
    constructor
    · intro h
      cases h
    · rintro ⟨hid, signature, _, hsame, -⟩
      exact (hmissing _ _ hid hsame).elim

/-! ## Journals that are read -/

theorem finalDigest_read (records : List (RetentionControlRecord F)) :
    finalDigest π (records.map RetentionControlRecord.read) = finalDigest π records := by
  rw [finalDigest, List.foldl_map]
  rfl

section Journals

variable [DecidableEq F]

structure Accepts (π : Platform F) (ndjson : Text) (verifyKeys : List CheckpointVerifyKey)
    (lines : List Text) (header trailer : Value F) (members : List (Text × Value F))
    (records : List (RetentionControlRecord F)) (generatedAt keyId : Text) : Prop where
  split : splitJournal ndjson = .ok lines
  first : parseJson π.format (lines.headD []) = some header
  last : parseJson π.format (lines.getLastD []) = some trailer
  frame : readFrame π header trailer lines.tail.dropLast.length = .ok (generatedAt, members)
  read : readRecordLines π 1 lines.tail.dropLast = .ok records
  digest : stringMember members "final_digest" = some (finalDigest π records)
  signature : verifySignature π members verifyKeys
    (deletionJournalSignatureMessage lines.tail.dropLast.length (finalDigest π records) generatedAt)
      = .ok keyId

theorem parseAndVerify_ok {ndjson : Text} {verifyKeys : List CheckpointVerifyKey}
    {records : List (RetentionControlRecord F)} {generatedAt keyId : Text} :
    parseAndVerifyDeletionJournal π ndjson verifyKeys = .ok (records, generatedAt, keyId)
      ↔ ∃ lines header trailer members,
        Accepts π ndjson verifyKeys lines header trailer members records generatedAt keyId := by
  unfold parseAndVerifyDeletionJournal
  rw [ExceptRun.bind_ok]
  constructor
  · rintro ⟨lines, hlines, h⟩
    split at h
    · rename_i header trailer hheader htrailer
      obtain ⟨⟨time, members⟩, hframe, h⟩ := ExceptRun.bind_ok.mp h
      obtain ⟨read, hread, h⟩ := ExceptRun.bind_ok.mp h
      dsimp only at h
      split at h
      · cases h
      · rename_i hdigest
        obtain ⟨key, hkey, h⟩ := ExceptRun.bind_ok.mp h
        cases h
        exact ⟨lines, header, trailer, members, hlines, hheader, htrailer, hframe, hread,
          Decidable.not_not.mp hdigest, hkey⟩
    · cases h
  · rintro ⟨lines, header, trailer, members, h⟩
    refine ⟨lines, h.split, ?_⟩
    rw [h.first, h.last]
    refine ExceptRun.bind_ok.mpr ⟨_, h.frame, ExceptRun.bind_ok.mpr ⟨_, h.read, ?_⟩⟩
    dsimp only
    rw [if_neg (Decidable.not_not.mpr h.digest)]
    exact ExceptRun.bind_ok.mpr ⟨_, h.signature, rfl⟩

/-- A signed journal of created records is accepted exactly if they can be
restored and the signature verifies under the first key of its label. -/
theorem parseAndVerify_serialized (lawful : π.Lawful) {records : List (RetentionControlRecord F)}
    (h : ∀ record ∈ records, Created π record) {generatedAt : Text} {key : CheckpointSigningKey}
    {verifyKeys : List CheckpointVerifyKey} {others : List (RetentionControlRecord F)}
    {time keyId : Text} :
    parseAndVerifyDeletionJournal π (serializeDeletionJournal π records generatedAt (some key))
        verifyKeys = .ok (others, time, keyId)
      ↔ ((∀ record ∈ records, Restorable π record) ∧ ∃ verifyKey,
          isHexText 128 (journalSignature π records generatedAt key) = true
          ∧ verifyKeys.find? (·.kid == key.kid) = some verifyKey
          ∧ π.verify verifyKey.publicKeyHex (deletionJournalSignatureMessage records.length
              (finalDigest π records) generatedAt).utf8
              (journalSignature π records generatedAt key) = true)
        ∧ others = records.map RetentionControlRecord.read ∧ time = generatedAt
        ∧ keyId = key.kid := by
  have hsplit := splitJournal_join (journalLines_clean records generatedAt (some key) (π := π))
    (by simp [journalLines])
  have hheader := Codec.parseJson_stringify lawful.format
    (header_isJson lawful records.length generatedAt)
  have htrailer := Codec.parseJson_stringify lawful.format (trailer_isJson lawful records.length
    (finalDigest π records) key.kid (journalSignature π records generatedAt key))
  have hlast : (journalLines π records generatedAt (some key)).getLastD []
      = stringify π.format (trailerValue π records.length (finalDigest π records)
        (some (key.kid, journalSignature π records generatedAt key))) := by
    rw [journalLines, ← List.cons_append, List.getLastD_concat]
    rfl
  have hrecords : (journalLines π records generatedAt (some key)).tail.dropLast
      = records.map fun record => stringify π.format record.value := by
    rw [journalLines, List.tail_cons, List.dropLast_concat]
  have hlength : (journalLines π records generatedAt (some key)).tail.dropLast.length
      = records.length := by
    rw [hrecords, List.length_map]
  have hframe := readFrame_journal (π := π) records.length generatedAt (finalDigest π records)
    key.kid (journalSignature π records generatedAt key)
  rw [parseAndVerify_ok]
  constructor
  · rintro ⟨lines, header, trailer, members, haccepts⟩
    obtain rfl := Except.ok.inj (hsplit.symm.trans haccepts.split)
    obtain rfl := Option.some.inj (hheader.symm.trans haccepts.first)
    have htail := haccepts.last
    rw [hlast, htrailer] at htail
    obtain rfl := Option.some.inj htail
    have hread := haccepts.frame
    rw [hlength, hframe] at hread
    obtain ⟨rfl, rfl⟩ := Prod.mk.inj (Except.ok.inj hread)
    have hlines := haccepts.read
    rw [hrecords, readRecordLines_created lawful h] at hlines
    obtain ⟨rfl, hrestorable⟩ := hlines
    have hsignature := haccepts.signature
    rw [hlength, finalDigest_read, verifySignature_ok, trailer_key, trailer_signature]
      at hsignature
    obtain ⟨hkid, signature, verifyKey, hsign, hhex, hfind, hverify⟩ := hsignature
    obtain rfl := Option.some.inj hkid
    obtain rfl := Option.some.inj hsign
    exact ⟨⟨hrestorable, verifyKey, hhex, hfind, hverify⟩, rfl, rfl, rfl⟩
  · rintro ⟨⟨hrestorable, verifyKey, hhex, hfind, hverify⟩, rfl, rfl, rfl⟩
    refine ⟨_, _, _, trailerMembers π records.length (finalDigest π records) key.kid
      (journalSignature π records time key), hsplit, hheader, hlast ▸ htrailer, ?_, ?_, ?_,
      ?_⟩
    · rw [hlength]
      exact hframe
    · rw [hrecords]
      exact (readRecordLines_created lawful h 1).mpr ⟨rfl, hrestorable⟩
    · rw [finalDigest_read, trailer_digest]
    · rw [hlength, finalDigest_read, verifySignature_ok, trailer_key, trailer_signature]
      exact ⟨rfl, _, verifyKey, rfl, hhex, hfind, hverify⟩

end Journals

/-! ## Records that are accepted carry their digests -/

theorem payload_of_member {members : List (Text × Value F)} {payload : Value F}
    (h : objectMember members "payload" = some payload) :
    members.lookup (text "payload") = some payload := by
  unfold objectMember at h
  split at h
  · rename_i heq
    rw [heq]
    exact h
  · rename_i heq
    rw [heq]
    exact h
  · cases h

theorem verify_sealed {v : Value F} (h : verifyRetentionControlRecord π v.settle = .ok record) :
    Sealed π record := by
  obtain ⟨members, hmembers, hreads, hdigest⟩ := verifyRetentionControlRecord_ok.mp h
  have hpayload := Codec.mem_of_lookup (payload_of_member hreads.payload)
  obtain ⟨w, hw⟩ := (Codec.settled_members hmembers).2 _ hpayload
  obtain ⟨t, htext, -⟩ := ExceptRun.map_ok.mp hdigest
  have hcanonical := ExceptRun.mapError_ok.mp htext
  have hmember : (text "payload", record.payload) ∈ [(text "action",
      (.str (text (actionName record.action)) : Value F)),
      (text "control_id", .str record.controlId), (text "issued_at", .str record.issuedAt),
      (text "payload", record.payload), (text "target_id", .str record.targetId),
      (text "target_type", .str (text (targetTypeName record.targetType)))] := by
    simp
  obtain ⟨part, hpart⟩ := Codec.canonicalJson_members hcanonical _ hmember
  have hsettled : record.payload = w.settle := hw
  have hjson : record.payload.IsJson := by
    rw [hsettled] at hpart ⊢
    exact Codec.canonicalJson_settled w hpart
  rw [digest_ok hjson] at hdigest
  exact ⟨hjson, (Except.ok.inj hdigest).symm⟩

theorem readRecordLine_sealed {number : Nat} {line : Text}
    (h : readRecordLine π number line = .ok record) : Sealed π record := by
  unfold readRecordLine at h
  split at h
  · cases h
  split at h
  · cases h
  · rename_i value hvalue
    obtain ⟨v, -, rfl⟩ := Option.map_eq_some_iff.mp hvalue
    exact verify_sealed (ExceptRun.mapError_ok.mp h)

theorem readRecordLines_sealed {number : Nat} {lines : List Text}
    {records : List (RetentionControlRecord F)}
    (h : readRecordLines π number lines = .ok records) :
    records.length = lines.length ∧ ∀ record ∈ records, Sealed π record := by
  induction lines generalizing number records with
  | nil =>
      obtain rfl := Except.ok.inj h
      exact ⟨rfl, fun _ hmem => absurd hmem List.not_mem_nil⟩
  | cons line lines ih =>
      obtain ⟨record, hrecord, h⟩ := ExceptRun.bind_ok.mp h
      obtain ⟨rest, hrest, rfl⟩ := ExceptRun.map_ok.mp h
      obtain ⟨hlength, hsealed⟩ := ih hrest
      exact ⟨congrArg Nat.succ hlength,
        List.forall_mem_cons.mpr ⟨readRecordLine_sealed hrecord, hsealed⟩⟩

/-! ## The journal that was signed -/

/-- Signatures that verify are over statements that were signed, and the
journals among these hold created records. -/
structure Genuine (π : Platform F) (Signed : Text → Statement F → Prop) : Prop where
  signed : ∀ publicKeyHex bytes signature, π.verify publicKeyHex bytes signature = true →
    ∃ statement, Signed publicKeyHex statement ∧ bytes = (statement.message π).utf8
  created : ∀ publicKeyHex records generatedAt,
    Signed publicKeyHex (.journal records generatedAt) → ∀ record ∈ records, Created π record

/-- The texts hashed for these records, and for the journals that were
signed. -/
def hashedTexts (π : Platform F) (Signed : Text → Statement F → Prop)
    (read : List (RetentionControlRecord F)) : Set Text :=
  {t | t ∈ journalTexts π read ∨ ∃ publicKeyHex records generatedAt,
    Signed publicKeyHex (.journal records generatedAt) ∧ t ∈ journalTexts π records}

theorem accepted_signed (lawful : π.Lawful) [DecidableEq F]
    {Signed : Text → Statement F → Prop} (genuine : Genuine π Signed) {ndjson : Text}
    {verifyKeys : List CheckpointVerifyKey} {read : List (RetentionControlRecord F)}
    {generatedAt keyId : Text}
    (h : parseAndVerifyDeletionJournal π ndjson verifyKeys = .ok (read, generatedAt, keyId))
    (hbinding : Binding π (hashedTexts π Signed read)) :
    ∃ verifyKey ∈ verifyKeys, verifyKey.kid = keyId ∧ ∃ records time,
      Signed verifyKey.publicKeyHex (.journal records time)
        ∧ List.Forall₂ SameRecord records read ∧ time.utf8 = generatedAt.utf8 := by
  obtain ⟨lines, header, trailer, members, haccepts⟩ := parseAndVerify_ok.mp h
  obtain ⟨hlength, hsealed⟩ := readRecordLines_sealed haccepts.read
  obtain ⟨-, signature, verifyKey, -, -, hfind, hverify⟩ :=
    verifySignature_ok.mp haccepts.signature
  obtain ⟨statement, hsigned, hbytes⟩ := genuine.signed _ _ _ hverify
  have hkid := List.find?_some hfind
  refine ⟨verifyKey, List.mem_of_find?_eq_some hfind, beq_iff_eq.mp hkid, ?_⟩
  cases statement with
  | checkpoint fields => exact absurd hbytes (message_ne_checkpoint _ _ _ _)
  | journal records time =>
      obtain ⟨hcount, hdigest, htime⟩ := message_injective (hex_foldl lawful (lawful.hex _))
        (hex_foldl lawful (lawful.hex _)) hbytes
      refine ⟨records, time, hsigned, ?_, htime.symm⟩
      refine sameRecords_of_finalDigest lawful hbinding ?_ ?_ (hcount ▸ hlength.symm ▸ rfl)
        hdigest.symm
      · intro record hrecord
        rcases List.mem_append.mp hrecord with hrecord | hrecord
        · exact (created_cases (genuine.created _ _ _ hsigned record hrecord)).1
        · exact hsealed record hrecord
      · intro t ht
        rcases List.mem_append.mp ht with ht | ht
        · exact .inr ⟨_, _, _, hsigned, ht⟩
        · exact .inl ht

/-! ## Round trip and authenticity -/

/-- A signed journal of created records is read back exactly if the records
can be restored, and what is read of any text that is accepted is a journal
that was signed. The time is the same up to its bytes. -/
theorem deletionJournal_authentic (lawful : π.Lawful) [DecidableEq F]
    (verifyKeys : List CheckpointVerifyKey) :
    (∀ records generatedAt key verifyKey, (∀ record ∈ records, Created π record) →
      verifyKeys.find? (·.kid == key.kid) = some verifyKey →
      isHexText 128 (journalSignature π records generatedAt key) = true →
      π.verify verifyKey.publicKeyHex (deletionJournalSignatureMessage records.length
          (finalDigest π records) generatedAt).utf8
        (journalSignature π records generatedAt key) = true →
      ((∀ record ∈ records, Restorable π record) ↔ ∃ read,
        parseAndVerifyDeletionJournal π (serializeDeletionJournal π records generatedAt (some key))
            verifyKeys = .ok (read, generatedAt, key.kid)
          ∧ List.Forall₂ SameRecord records read))
      ∧ ∀ Signed : Text → Statement F → Prop, Genuine π Signed →
        ∀ ndjson read generatedAt keyId,
        parseAndVerifyDeletionJournal π ndjson verifyKeys = .ok (read, generatedAt, keyId) →
        Binding π (hashedTexts π Signed read) →
        ∃ verifyKey ∈ verifyKeys, verifyKey.kid = keyId ∧ ∃ records time,
          Signed verifyKey.publicKeyHex (.journal records time)
            ∧ List.Forall₂ SameRecord records read ∧ time.utf8 = generatedAt.utf8
            ∧ (Codec.WellFormed time → Codec.WellFormed generatedAt → time = generatedAt) := by
  constructor
  · intro records generatedAt key verifyKey hcreated hfind hhex hverify
    constructor
    · intro hrestorable
      refine ⟨records.map RetentionControlRecord.read, ?_, ?_⟩
      · exact (parseAndVerify_serialized lawful hcreated).mpr
          ⟨⟨hrestorable, verifyKey, hhex, hfind, hverify⟩, rfl, rfl, rfl⟩
      · rw [List.forall₂_map_right_iff]
        exact List.forall₂_same.mpr fun record _ => sameRecord_read record
    · rintro ⟨read, hparse, -⟩
      exact ((parseAndVerify_serialized lawful hcreated).mp hparse).1.1
  · intro Signed genuine ndjson read generatedAt keyId hparse hbinding
    obtain ⟨verifyKey, hmem, hkid, records, time, hsigned, hrecords, htime⟩ :=
      accepted_signed lawful genuine hparse hbinding
    exact ⟨verifyKey, hmem, hkid, records, time, hsigned, hrecords, htime,
      fun hwell hwell' => Codec.utf8_injective hwell hwell' htime⟩

/-! ### A platform that signs one statement -/

abbrev SampleNumber : Type := { n : Nat // 0 < n }

def sampleDigest (bytes : List Nat) : Text :=
  let digits := Text.decimal (bytes.length % 10 ^ 64)
  List.replicate (64 - digits.length) (unit '0') ++ digits

def sampleCount (n : Nat) : Number SampleNumber :=
  if h : 0 < n then .finite false ⟨n, h⟩ else .zero false

def unsignedPlatform : Platform SampleNumber where
  format := Codec.integers
  count := sampleCount
  sha256 := sampleDigest
  sign _ _ := List.replicate 128 (unit '0')
  verify _ _ _ := false
  parsesDate _ := true

def samplePlatform (statement : Statement SampleNumber) : Platform SampleNumber :=
  { unsignedPlatform with
    verify := fun _ bytes _ => bytes == (statement.message unsignedPlatform).utf8 }

theorem samplePlatform_lawful (statement : Statement SampleNumber) :
    (samplePlatform statement).Lawful where
  format := Codec.integers_lawful
  count n := by
    show (sampleCount n).isFinite = true
    unfold sampleCount
    split <;> rfl
  hex bytes := by
    have hwidth : Text.width (bytes.length % 10 ^ 64) ≤ 64 :=
      (Text.width_le_iff (by decide)).mpr (Nat.mod_lt _ (by decide))
    show isHexText 64 (sampleDigest bytes) = true
    rw [isHexText, Bool.and_eq_true, beq_iff_eq, List.all_eq_true]
    constructor
    · rw [sampleDigest, List.length_append, List.length_replicate]
      exact Nat.sub_add_cancel hwidth
    · intro u hu
      rcases List.mem_append.mp hu with hu | hu
      · rw [List.eq_of_mem_replicate hu]
        decide
      · rw [Text.decimal_digit hu]
        rfl

theorem isHexText_zeros (n : Nat) : isHexText n (List.replicate n (unit '0')) = true := by
  rw [isHexText, List.length_replicate, beq_self_eq_true, Bool.true_and, List.all_eq_true]
  intro u hu
  rw [List.eq_of_mem_replicate hu]
  decide

theorem samplePlatform_genuine {statement : Statement SampleNumber}
    (h : ∀ records time, statement = .journal records time →
      ∀ record ∈ records, Created (samplePlatform statement) record) :
    Genuine (samplePlatform statement) fun _ s => s = statement where
  signed _ bytes _ hverify := by
    refine ⟨statement, rfl, (beq_iff_eq.mp hverify).trans ?_⟩
    cases statement <;> rfl
  created _ records time hsigned record hrecord := h records time hsigned.symm record hrecord

def sampleKey : CheckpointSigningKey := ⟨text "k1", text "private"⟩

def sampleVerifyKey : CheckpointVerifyKey := ⟨text "k1", text "public"⟩

def sampleControl (target : String) : RetentionControl SampleNumber where
  controlId := text "RC-1"
  action := .revokeCredential
  targetId := text target
  targetType := .credential
  issuedAt := text "2026-01-01"
  payload := .obj []

def sampleRecord (target : String) : RetentionControlRecord SampleNumber :=
  { sampleControl target with
    controlDigest := sha256Hex unsignedPlatform (controlText unsignedPlatform (sampleControl target)) }

theorem sampleRecord_created (statement : Statement SampleNumber) (target : String) :
    Created (samplePlatform statement) (sampleRecord target) := by
  refine ⟨text "1", [], ⟨.revokeCredential, text target, .credential, none,
    some (text "2026-01-01")⟩, ?_⟩
  show (computeRetentionControlDigest _ (sampleControl target)).map _ = _
  have hjson : (sampleControl target).payload.IsJson := ⟨List.nodup_nil, trivial⟩
  rw [digest_ok hjson]
  rfl

/-- A record whose target is blank is created and refused, and of a time that
is half of a surrogate pair the journal of another time is signed. -/
theorem deletionJournal_unfaithful :
    (∃ record, Created (samplePlatform (.journal [] [0xfffd])) record ∧
        ∀ time key verifyKeys result, parseAndVerifyDeletionJournal
          (samplePlatform (.journal [] [0xfffd]))
          (serializeDeletionJournal (samplePlatform (.journal [] [0xfffd])) [record] time (some key))
          verifyKeys ≠ .ok result)
      ∧ ∃ Signed, Genuine (samplePlatform (.journal [] [0xfffd])) Signed
        ∧ (∃ ndjson, parseAndVerifyDeletionJournal (samplePlatform (.journal [] [0xfffd])) ndjson
          [sampleVerifyKey] = .ok ([], [0xd800], text "k1"))
        ∧ ∀ publicKeyHex records, ¬Signed publicKeyHex (.journal records [0xd800]) := by
  refine ⟨⟨_, sampleRecord_created _ " ", ?_⟩, _, samplePlatform_genuine ?_, ?_, ?_⟩
  · rintro time key verifyKeys ⟨read, readTime, keyId⟩ hparse
    have hrestorable := ((parseAndVerify_serialized (samplePlatform_lawful _)
      (by simpa using sampleRecord_created _ " ")).mp hparse).1.1 _ (List.mem_singleton_self _)
    exact absurd hrestorable.1 (by decide)
  · intro records time heq record hrecord
    obtain ⟨rfl, -⟩ := Statement.journal.inj heq
    exact absurd hrecord List.not_mem_nil
  · exact ⟨serializeDeletionJournal _ [] [0xd800] (some sampleKey),
      (parseAndVerify_serialized (samplePlatform_lawful _) (by simp)).mpr
        ⟨⟨by simp, sampleVerifyKey, isHexText_zeros 128, rfl, by decide⟩, rfl, rfl, rfl⟩⟩
  · intro publicKeyHex records heq
    exact absurd (Statement.journal.inj heq).2 (by decide)

def sampleStatement : Statement SampleNumber :=
  .journal [sampleRecord "P-AB"] (text "2026-01-02")

theorem sampleStatement_created (records : List (RetentionControlRecord SampleNumber))
    (time : Text) (h : sampleStatement = .journal records time) :
    ∀ record ∈ records, Created (samplePlatform sampleStatement) record := by
  obtain ⟨rfl, -⟩ := Statement.journal.inj h
  exact List.forall_mem_singleton.mpr (sampleRecord_created _ _)

theorem sampleStatement_binding :
    Binding (samplePlatform sampleStatement)
      (hashedTexts (samplePlatform sampleStatement) (fun _ s => s = sampleStatement)
        [sampleRecord "P-AB"]) := by
  have htexts : ∀ t ∈ hashedTexts (samplePlatform sampleStatement)
      (fun _ s => s = sampleStatement) [sampleRecord "P-AB"],
      t ∈ journalTexts unsignedPlatform [sampleRecord "P-AB"] := by
    rintro t (ht | ⟨_, records, time, heq, ht⟩)
    · exact ht
    · obtain ⟨rfl, -⟩ := Statement.journal.inj heq
      exact ht
  have hdistinct : ∀ s ∈ journalTexts unsignedPlatform [sampleRecord "P-AB"],
      ∀ t ∈ journalTexts unsignedPlatform [sampleRecord "P-AB"],
      sampleDigest s.utf8 = sampleDigest t.utf8 → s.utf8 = t.utf8 := by
    decide +kernel
  rintro _ ⟨s, hs, rfl⟩ _ ⟨t, ht, rfl⟩ heq
  exact hdistinct s (htexts s hs) t (htexts t ht) heq

theorem deletionJournal_sample :
    (∃ read, parseAndVerifyDeletionJournal (samplePlatform sampleStatement)
        (serializeDeletionJournal (samplePlatform sampleStatement) [sampleRecord "P-AB"]
          (text "2026-01-02") (some sampleKey)) [sampleVerifyKey]
          = .ok (read, text "2026-01-02", text "k1")
        ∧ List.Forall₂ SameRecord [sampleRecord "P-AB"] read)
      ∧ ∃ verifyKey ∈ [sampleVerifyKey], verifyKey.kid = text "k1" ∧ ∃ records time,
        sampleStatement = .journal records time
          ∧ List.Forall₂ SameRecord records [sampleRecord "P-AB"]
          ∧ time.utf8 = (text "2026-01-02").utf8 := by
  have hjournal := deletionJournal_authentic (samplePlatform_lawful sampleStatement)
    [sampleVerifyKey]
  have hcreated : ∀ record ∈ [sampleRecord "P-AB"],
      Created (samplePlatform sampleStatement) record :=
    List.forall_mem_singleton.mpr (sampleRecord_created _ _)
  have hrestorable : ∀ record ∈ [sampleRecord "P-AB"],
      Restorable (samplePlatform sampleStatement) record :=
    List.forall_mem_singleton.mpr ⟨by decide, rfl⟩
  have hverify : (samplePlatform sampleStatement).verify sampleVerifyKey.publicKeyHex
      (deletionJournalSignatureMessage 1 (finalDigest (samplePlatform sampleStatement)
        [sampleRecord "P-AB"]) (text "2026-01-02")).utf8
      (journalSignature (samplePlatform sampleStatement) [sampleRecord "P-AB"]
        (text "2026-01-02") sampleKey) = true := beq_self_eq_true _
  refine ⟨(hjournal.1 _ _ sampleKey sampleVerifyKey hcreated rfl (isHexText_zeros 128) hverify).mp
    hrestorable, ?_⟩
  have hfind : [sampleVerifyKey].find? (·.kid == sampleKey.kid) = some sampleVerifyKey := rfl
  have hparse := (parseAndVerify_serialized (samplePlatform_lawful sampleStatement) hcreated).mpr
    ⟨⟨hrestorable, sampleVerifyKey, isHexText_zeros 128, hfind, hverify⟩, rfl, rfl, rfl⟩
  obtain ⟨verifyKey, hmem, hkid, records, time, hsigned, hrecords, htime, -⟩ :=
    hjournal.2 (fun _ s => s = sampleStatement) (samplePlatform_genuine sampleStatement_created) _ _
      _ _ hparse sampleStatement_binding
  exact ⟨verifyKey, hmem, hkid, records, time, hsigned.symm, hrecords, htime⟩

end Asimposium.JournalText
