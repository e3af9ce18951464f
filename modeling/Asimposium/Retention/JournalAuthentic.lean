import Asimposium.Codec.Parsed
import Asimposium.Retention.JournalText

/-!
# What a journal's signature covers

A journal of records as they are created is read back record by record, if
each record names a target and a time. The signature is over a count, a
digest and a time. The digest binds each record's own digest in order, and a
record's digest binds its fields, so that what is read is what was signed.
-/

namespace Asimposium.JournalText

open Codec (Value Number FloatFormat stringify canonicalJson parseJson Same Clean)
open Retention (RetentionControlAction RetentionTargetType)

variable {F : Type} {π : Platform F}

structure Platform.Lawful (π : Platform F) : Prop where
  format : π.format.Lawful
  count : ∀ n, (π.count n).isFinite = true
  hex : ∀ bytes, isHexText 64 (π.sha256 bytes) = true

/-! ## Digests of records -/

def controlText (π : Platform F) (control : RetentionControl F) : Text :=
  (canonicalJson π.format control.canonical).toOption.getD []

variable {control : RetentionControl F}

theorem canonical_isJson (h : control.payload.IsJson) : control.canonical.IsJson := by
  refine ⟨?_, trivial, trivial, trivial, h, trivial, trivial, trivial⟩
  show List.Nodup [text "action", text "control_id", text "issued_at", text "payload",
    text "target_id", text "target_type"]
  decide

theorem canonicalJson_control (h : control.payload.IsJson) :
    canonicalJson π.format control.canonical = .ok (controlText π control) := by
  rw [controlText, Codec.canonicalJson_ok (canonical_isJson h)]
  rfl

theorem controlText_eq (h : control.payload.IsJson) :
    controlText π control = stringify π.format control.canonical.normal := by
  rw [controlText, Codec.canonicalJson_ok (canonical_isJson h)]
  rfl

theorem digest_ok (h : control.payload.IsJson) :
    computeRetentionControlDigest π control = .ok (sha256Hex π (controlText π control)) := by
  rw [computeRetentionControlDigest, canonicalJson_control h]
  rfl

structure Sealed (π : Platform F) (record : RetentionControlRecord F) : Prop where
  json : record.payload.IsJson
  digest : record.controlDigest = sha256Hex π (controlText π record.toRetentionControl)

/-- Made by `createRetentionControlRecord`. -/
def Created (π : Platform F) (record : RetentionControlRecord F) : Prop :=
  ∃ uuid now input, createRetentionControlRecord π uuid now input = .ok record

theorem created_cases {record : RetentionControlRecord F} (h : Created π record) :
    Sealed π record ∧ Text.startsWith record.controlId (text "RC-") = true
      ∧ ∃ members, record.payload = .obj members := by
  obtain ⟨uuid, now, input, h⟩ := h
  obtain ⟨digest, hdigest, rfl⟩ := ExceptRun.map_ok.mp h
  have hjson : (Value.obj ((input.payload.map (·.1)).getD [])).IsJson := by
    cases input.payload with
    | none => exact ⟨List.nodup_nil, trivial⟩
    | some payload => exact payload.2
  rw [digest_ok hjson] at hdigest
  refine ⟨⟨hjson, (Except.ok.inj hdigest).symm⟩, ?_, _, rfl⟩
  exact List.isPrefixOf_iff_prefix.mpr (List.prefix_append _ _)

/-- Equal but for the order of the payload's members, and the signs of its
zeros. -/
structure SameRecord (a b : RetentionControlRecord F) : Prop where
  controlId : a.controlId = b.controlId
  action : a.action = b.action
  targetId : a.targetId = b.targetId
  targetType : a.targetType = b.targetType
  issuedAt : a.issuedAt = b.issuedAt
  payload : Same a.payload b.payload
  controlDigest : a.controlDigest = b.controlDigest

theorem text_injective_actions {a b : RetentionControlAction}
    (h : text (actionName a) = text (actionName b)) : a = b := by
  revert h
  cases a <;> cases b <;> decide

theorem text_injective_targetTypes {a b : RetentionTargetType}
    (h : text (targetTypeName a) = text (targetTypeName b)) : a = b := by
  revert h
  cases a <;> cases b <;> decide

theorem same_str {s t : Text} (h : Same (.str s : Value F) (.str t)) : s = t :=
  Value.str.inj (h.normal.2 trivial)

theorem controlText_injective (lawful : π.Lawful) {a b : RetentionControl F}
    (ha : a.payload.IsJson) (hb : b.payload.IsJson) (h : controlText π a = controlText π b) :
    a.controlId = b.controlId ∧ a.action = b.action ∧ a.targetId = b.targetId
      ∧ a.targetType = b.targetType ∧ a.issuedAt = b.issuedAt ∧ Same a.payload b.payload := by
  have hsame : Same a.canonical b.canonical := by
    rw [controlText_eq ha, controlText_eq hb] at h
    exact Codec.same_of_normal_text lawful.format (canonical_isJson ha) (canonical_isJson hb) h
  have hjson := canonical_isJson ha
  obtain ⟨_, haction, hactions⟩ := hsame.lookup hjson (text "action") rfl
  obtain ⟨_, hcontrol, hcontrols⟩ := hsame.lookup hjson (text "control_id") rfl
  obtain ⟨_, hissued, hissueds⟩ := hsame.lookup hjson (text "issued_at") rfl
  obtain ⟨_, hpayload, hpayloads⟩ := hsame.lookup hjson (text "payload") rfl
  obtain ⟨_, htarget, htargets⟩ := hsame.lookup hjson (text "target_id") rfl
  obtain ⟨_, htype, htypes⟩ := hsame.lookup hjson (text "target_type") rfl
  obtain rfl := Option.some.inj haction
  obtain rfl := Option.some.inj hcontrol
  obtain rfl := Option.some.inj hissued
  obtain rfl := Option.some.inj hpayload
  obtain rfl := Option.some.inj htarget
  obtain rfl := Option.some.inj htype
  exact ⟨same_str hcontrols, text_injective_actions (same_str hactions), same_str htargets,
    text_injective_targetTypes (same_str htypes), same_str hissueds, hpayloads⟩

/-! ## The chain of digests -/

def chainTexts (π : Platform F) : Text → List (RetentionControlRecord F) → List Text
  | _, [] => []
  | digest, record :: rest =>
      (digest ++ unit ':' :: record.controlDigest) :: chainTexts π (chainDigest π digest record) rest

def journalTexts (π : Platform F) (records : List (RetentionControlRecord F)) : List Text :=
  text "genesis-deletion-journal" :: (chainTexts π (genesisDigest π) records
    ++ records.map fun record => controlText π record.toRetentionControl)

def Binding (π : Platform F) (texts : Set Text) : Prop :=
  Set.InjOn π.sha256 {bytes | ∃ t ∈ texts, bytes = t.utf8}

section Texts

variable {n : Nat} {t : Text}

theorem isHexText_unit (h : isHexText n t = true) {u : UInt16} (hu : u ∈ t) :
    Text.isDigit u = true ∨ unit 'a' ≤ u ∧ u ≤ unit 'f' := by
  rw [isHexText, Bool.and_eq_true, List.all_eq_true] at h
  have hunit := h.2 u hu
  rw [Bool.or_eq_true, Bool.and_eq_true, decide_eq_true_eq, decide_eq_true_eq] at hunit
  exact hunit

theorem isHexText_ascii (h : isHexText n t = true) : ∀ u ∈ t, Text.isAscii u = true := by
  intro u hu
  rcases isHexText_unit h hu with hdigit | hletter
  · exact Text.isAscii_of_isDigit hdigit
  · exact decide_eq_true (UInt16.le_trans hletter.2 (by decide))

theorem isHexText_not_mem (h : isHexText n t = true) {u : UInt16}
    (hdigit : Text.isDigit u = false) (hletter : ¬(unit 'a' ≤ u ∧ u ≤ unit 'f')) : u ∉ t := by
  intro hu
  rcases isHexText_unit h hu with hu | hu
  · rw [hdigit] at hu
    cases hu
  · exact hletter hu

end Texts

theorem Binding.text {texts : Set Text} (h : Binding π texts) {s t : Text} (hs : s ∈ texts)
    (ht : t ∈ texts) (hwell : Codec.WellFormed s) (hwell' : Codec.WellFormed t)
    (heq : sha256Hex π s = sha256Hex π t) : s = t :=
  Codec.utf8_injective hwell hwell' (h ⟨s, hs, rfl⟩ ⟨t, ht, rfl⟩ heq)

section Chain

variable {records records' : List (RetentionControlRecord F)}

theorem hex_foldl (lawful : π.Lawful) {digest : Text} (h : isHexText 64 digest = true) :
    isHexText 64 (records.foldl (chainDigest π) digest) = true := by
  induction records generalizing digest with
  | nil => exact h
  | cons record records ih => exact ih (lawful.hex _)

theorem chainText_wellFormed {digest digest' : Text} (h : isHexText 64 digest = true)
    (h' : isHexText 64 digest' = true) : Codec.WellFormed (digest ++ unit ':' :: digest') := by
  refine Codec.wellFormed_ascii fun u hu => ?_
  rcases List.mem_append.mp hu with hu | hu
  · exact isHexText_ascii h u hu
  · rcases List.mem_cons.mp hu with rfl | hu
    · decide
    · exact isHexText_ascii h' u hu

theorem digests_of_chain (lawful : π.Lawful) {texts : Set Text} (hbinding : Binding π texts)
    (hlength : records.length = records'.length)
    (hhex : ∀ record ∈ records ++ records', isHexText 64 record.controlDigest = true)
    {digest digest' : Text} (hdigest : isHexText 64 digest = true)
    (hdigest' : isHexText 64 digest' = true)
    (htexts : ∀ t ∈ chainTexts π digest records ++ chainTexts π digest' records', t ∈ texts)
    (h : records.foldl (chainDigest π) digest = records'.foldl (chainDigest π) digest') :
    digest = digest' ∧ records.map (·.controlDigest) = records'.map (·.controlDigest) := by
  induction records generalizing digest digest' records' with
  | nil =>
      cases records' with
      | nil => exact ⟨h, rfl⟩
      | cons _ _ => cases hlength
  | cons record rest ih =>
      cases records' with
      | nil => cases hlength
      | cons record' rest' =>
          simp only [chainTexts, List.cons_append, List.forall_mem_cons, List.forall_mem_append]
            at htexts hhex
          obtain ⟨hlink, hrest⟩ := ih (Nat.succ.inj hlength)
            (List.forall_mem_append.mpr ⟨hhex.2.1, hhex.2.2.2⟩) (lawful.hex _) (lawful.hex _)
            (List.forall_mem_append.mpr ⟨htexts.2.1, htexts.2.2.2⟩) h
          have htext := hbinding.text htexts.1 htexts.2.2.1
            (chainText_wellFormed hdigest hhex.1) (chainText_wellFormed hdigest' hhex.2.2.1) hlink
          obtain ⟨hstart, -, hrecord⟩ := (List.append_cons_inj_of_notMem
            (isHexText_not_mem hdigest (by decide) (by decide))
            (isHexText_not_mem hhex.1 (by decide) (by decide))).mp htext
          exact ⟨hstart, by rw [List.map_cons, List.map_cons, hrecord, hrest]⟩

end Chain

/-! ## Journals by their digests -/

theorem Sealed.hex (lawful : π.Lawful) {record : RetentionControlRecord F}
    (h : Sealed π record) : isHexText 64 record.controlDigest = true := by
  rw [h.digest]
  exact lawful.hex _

theorem Sealed.same (lawful : π.Lawful) {texts : Set Text} (hbinding : Binding π texts)
    {a b : RetentionControlRecord F} (ha : Sealed π a) (hb : Sealed π b)
    (hta : controlText π a.toRetentionControl ∈ texts)
    (htb : controlText π b.toRetentionControl ∈ texts)
    (h : a.controlDigest = b.controlDigest) : SameRecord a b := by
  have hwell : ∀ {record : RetentionControlRecord F}, Sealed π record →
      Codec.WellFormed (controlText π record.toRetentionControl) := by
    intro record hrecord
    rw [controlText_eq hrecord.json]
    exact (Codec.clean_stringify _ _).wellFormed
  have htext := hbinding.text hta htb (hwell ha) (hwell hb)
    (ha.digest.symm.trans (h.trans hb.digest))
  obtain ⟨hcontrol, haction, htarget, htype, hissued, hpayload⟩ :=
    controlText_injective lawful ha.json hb.json htext
  exact ⟨hcontrol, haction, htarget, htype, hissued, hpayload, h⟩

theorem sameRecords_of_finalDigest (lawful : π.Lawful) {texts : Set Text}
    (hbinding : Binding π texts) {records records' : List (RetentionControlRecord F)}
    (hsealed : ∀ record ∈ records ++ records', Sealed π record)
    (htexts : ∀ t ∈ journalTexts π records ++ journalTexts π records', t ∈ texts)
    (hlength : records.length = records'.length)
    (h : finalDigest π records = finalDigest π records') :
    List.Forall₂ SameRecord records records' := by
  simp only [journalTexts, List.cons_append, List.forall_mem_cons, List.forall_mem_append,
    List.forall_mem_map] at htexts
  obtain ⟨-, hdigests⟩ := digests_of_chain lawful hbinding hlength
    (fun record hrecord => (hsealed record hrecord).hex lawful) (lawful.hex _) (lawful.hex _)
    (List.forall_mem_append.mpr ⟨htexts.2.1.1, htexts.2.2.2.1⟩) h
  refine List.forall₂_iff_zip.mpr ⟨hlength, fun {a b} hzip => ?_⟩
  obtain ⟨i, hi, hpair⟩ := List.getElem_of_mem hzip
  rw [List.getElem_zip] at hpair
  obtain ⟨rfl, rfl⟩ := Prod.mk.inj hpair
  rw [List.length_zip, ← hlength, Nat.min_self] at hi
  have ha := List.getElem_mem hi
  have hb := List.getElem_mem (hlength ▸ hi : i < records'.length)
  refine Sealed.same lawful hbinding (hsealed _ (List.mem_append_left _ ha))
    (hsealed _ (List.mem_append_right _ hb)) (htexts.2.1.2 _ ha) (htexts.2.2.2.2 _ hb) ?_
  have hat := List.getElem_of_eq hdigests (i := i) (by rwa [List.length_map])
  rwa [List.getElem_map, List.getElem_map] at hat

/-! ## Messages -/

/-- What a key is asked to sign: journals, and the checkpoints of problems. -/
inductive Statement (F : Type) where
  | journal (records : List (RetentionControlRecord F)) (generatedAt : Text)
  | checkpoint (fields : Text)

def Statement.message (π : Platform F) : Statement F → Text
  | .journal records generatedAt =>
      deletionJournalSignatureMessage records.length (finalDigest π records) generatedAt
  | .checkpoint fields => text "asimposium.checkpoint.v1" ++ unit '\n' :: fields

theorem decimal_not_mem {n : Nat} : unit '\n' ∉ Text.decimal n := fun h =>
  absurd (Text.decimal_digit h) (by decide)

theorem decimal_ascii {n : Nat} : ∀ u ∈ Text.decimal n, Text.isAscii u = true := fun _ hu =>
  Text.isAscii_of_isDigit (Text.decimal_digit hu)

theorem message_eq (n : Nat) (digest time : Text) :
    deletionJournalSignatureMessage n digest time
      = text journalFormat ++ unit '\n' :: (Text.decimal n ++ unit '\n' :: (digest
        ++ unit '\n' :: time)) := by
  simp [deletionJournalSignatureMessage, List.intercalate, List.intersperse]

theorem message_injective {n n' : Nat} {digest digest' time time' : Text}
    (hdigest : isHexText 64 digest = true) (hdigest' : isHexText 64 digest' = true)
    (h : (deletionJournalSignatureMessage n digest time).utf8
      = (deletionJournalSignatureMessage n' digest' time').utf8) :
    n = n' ∧ digest = digest' ∧ time.utf8 = time'.utf8 := by
  rw [message_eq, message_eq] at h
  have hformat : ∀ u ∈ text journalFormat, Text.isAscii u = true := by decide
  have hhex : ∀ d, isHexText 64 d = true → unit '\n' ∉ d := fun d hd =>
    isHexText_not_mem hd (by decide) (by decide)
  obtain ⟨-, hcount⟩ := Codec.utf8_line_injective hformat hformat (by decide) (by decide) h
  obtain ⟨hn, hrest⟩ := Codec.utf8_line_injective decimal_ascii decimal_ascii decimal_not_mem
    decimal_not_mem hcount
  obtain ⟨hd, htime⟩ := Codec.utf8_line_injective (isHexText_ascii hdigest) (isHexText_ascii hdigest')
    (hhex _ hdigest) (hhex _ hdigest') hrest
  have hvalue := congrArg Codec.numeral hn
  rw [Codec.numeral_decimal, Codec.numeral_decimal] at hvalue
  exact ⟨hvalue, hd, htime⟩

theorem message_ne_checkpoint (n : Nat) (digest time fields : Text) :
    (deletionJournalSignatureMessage n digest time).utf8
      ≠ ((Statement.checkpoint fields : Statement F).message π).utf8 := by
  intro h
  rw [message_eq] at h
  have hfirst := (Codec.utf8_line_injective (by decide) (by decide) (by decide) (by decide) h).1
  exact absurd hfirst (by decide)

end Asimposium.JournalText
