import Asimposium.Search.Continuation

/-!
# The contract of directive reads

The URLs, the cursor and the response of the read of active directives, as
`contracts/directives` publishes them. The `schema` and `delivered` members
are constants and left out.
-/

namespace Asimposium.Directives

open Text (isAlphanumeric isAscii isDigit isUpper decimal ofInt utf8)
open Search (isHex64)

/-! ## URLs -/

def formByte (byte : Nat) : Text :=
  if byte = 0x20 then text "+"
  else if isAscii byte.toUInt16 && isAlphanumeric byte.toUInt16
      || (text "*-._").contains byte.toUInt16 then [byte.toUInt16]
  else
    let digit (n : Nat) : UInt16 := ((text "0123456789ABCDEF")[n % 16]?).getD 0
    [unit '%', digit (byte / 16), digit byte]

/-- One parameter as `URLSearchParams` spells it. -/
def formParameter (parameter : String × Text) : Text :=
  text parameter.1 ++ unit '=' :: (utf8 parameter.2).flatMap formByte

/-- `activeDirectivesUrl`; an empty problem is no problem. -/
def activeDirectivesUrl (problemId : Option Text) (limit : Option Int) (cursor : Option Text) :
    Text :=
  let params := ((problemId.filter (· != [])).map fun id => ("problem_id", id)).toList
    ++ (limit.map fun n => ("limit", ofInt n)).toList
    ++ (cursor.map fun c => ("cursor", c)).toList
  text "/v1/directives/active"
    ++ if params.isEmpty then [] else unit '?' :: [unit '&'].intercalate (params.map formParameter)

/-! ## Cursors -/

def cursorText (digest : Text) (snapshotSeq afterSeq : Nat) : Text :=
  [unit '.'].intercalate [text "ad1", digest, decimal snapshotSeq, decimal afterSeq]

/-- `ACTIVE_DIRECTIVE_CURSOR_PATTERN`, split at its dots: the digest and the
digits of the two numbers. -/
def cursorParts (cursor : Text) : Option (Text × Text × Text) :=
  match cursor.splitOn (unit '.') with
  | [tag, boundQuery, snapshotText, afterText] =>
      if tag = text "ad1" ∧ isHex64 boundQuery
          ∧ snapshotText.all isDigit ∧ 1 ≤ snapshotText.length ∧ snapshotText.length ≤ 16
          ∧ afterText.all isDigit ∧ afterText.head? ≠ some (unit '0')
          ∧ 1 ≤ afterText.length ∧ afterText.length ≤ 16 then
        some (boundQuery, snapshotText, afterText)
      else none
  | _ => none

/-- `ActiveDirectiveCursorSchema`. -/
def isCursor (cursor : Text) : Bool := cursor.length ≤ 103 && (cursorParts cursor).isSome

theorem cursorParts_cursorText {digest : Text} {snapshotSeq afterSeq : Nat}
    (hdigest : isHex64 digest = true)
    (h : isCursor (cursorText digest snapshotSeq afterSeq) = true) :
    cursorParts (cursorText digest snapshotSeq afterSeq)
      = some (digest, decimal snapshotSeq, decimal afterSeq) := by
  have hdots : ∀ part ∈ [text "ad1", digest, decimal snapshotSeq, decimal afterSeq],
      unit '.' ∉ part := by
    simp only [List.forall_mem_cons]
    exact ⟨by decide, Search.dot_not_mem_hex hdigest, Search.dot_not_mem_decimal _,
      Search.dot_not_mem_decimal _, nofun⟩
  have hsome := (Bool.and_eq_true_iff.mp h).2
  rw [cursorParts, cursorText, List.splitOn_intercalate _ hdots (List.cons_ne_nil _ _)] at hsome ⊢
  dsimp only at hsome ⊢
  split at hsome
  · rename_i hall
    exact if_pos hall
  · cases hsome

/-! ## Requests -/

/-- `ProblemIdSchema`. -/
def isProblemId (id : Text) : Bool :=
  match id with
  | p :: dash :: head :: rest =>
      p == unit 'P' && dash == unit '-' && (isUpper head || isDigit head)
        && rest.all (fun u => isUpper u || isDigit u || u == unit '-')
        && 1 ≤ rest.length && rest.length ≤ 30 && !Text.includes id (text "--")
  | _ => false

structure ActiveDirectiveQuery where
  problemId : Option Text
  limit : Int
  cursor : Option Text
deriving DecidableEq

/-- `ActiveDirectiveQuerySchema`, once its defaults are in. -/
def ActiveDirectiveQuery.isValid (query : ActiveDirectiveQuery) : Bool :=
  query.problemId.all isProblemId && 1 ≤ query.limit && query.limit ≤ 100
    && query.cursor.all isCursor

/-! ## Reading a URL back -/

def isPlain (u : UInt16) : Bool :=
  isAscii u && (isAlphanumeric u || u == unit '-' || u == unit '.')

variable {u : UInt16}

theorem formByte_plain (h : isPlain u = true) : formByte u.toNat = [u] := by
  have hbyte : u.toNat.toUInt16 = u := UInt16.ofNat_toNat
  obtain ⟨hascii, hspelled⟩ := Bool.and_eq_true_iff.mp h
  have hspace : u.toNat ≠ 0x20 := by
    intro hspace
    obtain rfl : u = 0x20 := UInt16.toNat_inj.mp hspace
    exact absurd h (by decide)
  rw [formByte, if_neg hspace, hbyte]
  refine if_pos ?_
  rw [hascii, Bool.true_and, Bool.or_eq_true]
  rw [Bool.or_eq_true, Bool.or_eq_true, beq_iff_eq, beq_iff_eq] at hspelled
  rcases hspelled with (halphanumeric | rfl) | rfl
  · exact .inl halphanumeric
  · exact .inr (by decide)
  · exact .inr (by decide)

theorem formParameter_plain (name : String) {t : Text} (h : ∀ u ∈ t, isPlain u = true) :
    formParameter (name, t) = text name ++ unit '=' :: t := by
  have hbytes : utf8 t = t.map UInt16.toNat := by
    have happend := Codec.utf8_ascii_append
      (fun u hu => (Bool.and_eq_true_iff.mp (h u hu)).1) []
    rwa [List.append_nil, Text.utf8, List.append_nil] at happend
  have hsame : t.flatMap (fun u => formByte u.toNat) = t := by
    rw [List.flatMap_congr fun u hu => formByte_plain (h u hu)]
    exact List.flatMap_singleton' t
  rw [formParameter, hbytes, List.flatMap_map, hsame]

theorem isPlain_alphanumeric (h : isAlphanumeric u = true) : isPlain u = true := by
  rw [isPlain, h, Bool.and_eq_true]
  refine ⟨?_, rfl⟩
  rw [isAlphanumeric, Bool.or_eq_true, Bool.or_eq_true] at h
  rcases h with (hupper | hlower) | hdigit
  · exact Framing.isAscii_of_isUpper hupper
  · exact Framing.isAscii_of_isLower hlower
  · exact Text.isAscii_of_isDigit hdigit

theorem isPlain_digit (h : isDigit u = true) : isPlain u = true :=
  isPlain_alphanumeric (by rw [isAlphanumeric, h, Bool.or_true])

theorem isPlain_hex (h : Framing.isHex u = true) : isPlain u = true := by
  rw [Framing.isHex, Bool.or_eq_true, Bool.and_eq_true, decide_eq_true_eq, decide_eq_true_eq] at h
  rcases h with hdigit | ⟨hlow, hhigh⟩
  · exact isPlain_digit hdigit
  · refine isPlain_alphanumeric ?_
    have hlower : Text.isLower u = true := by
      rw [Text.isLower, Bool.and_eq_true, decide_eq_true_eq, decide_eq_true_eq]
      exact ⟨hlow, UInt16.le_trans hhigh (by decide)⟩
    rw [isAlphanumeric, hlower, Bool.or_true, Bool.true_or]

theorem isPlain_problemId {id : Text} (h : isProblemId id = true) :
    ∀ u ∈ id, isPlain u = true := by
  have hname : ∀ u, (isUpper u || isDigit u || u == unit '-') = true → isPlain u = true := by
    intro u hu
    rw [Bool.or_eq_true, Bool.or_eq_true, beq_iff_eq] at hu
    rcases hu with (hupper | hdigit) | rfl
    · exact isPlain_alphanumeric (by rw [isAlphanumeric, hupper]; rfl)
    · exact isPlain_digit hdigit
    · decide
  unfold isProblemId at h
  split at h
  · simp only [Bool.and_eq_true, beq_iff_eq, List.all_eq_true] at h
    obtain ⟨⟨⟨⟨⟨⟨rfl, rfl⟩, hhead⟩, hrest⟩, _⟩, _⟩, _⟩ := h
    simp only [List.forall_mem_cons]
    refine ⟨by decide, by decide, hname _ (by rw [hhead]; rfl), fun u hu => hname u (hrest u hu)⟩
  · cases h

theorem isPlain_cursor {cursor : Text} (h : isCursor cursor = true) :
    ∀ u ∈ cursor, isPlain u = true := by
  have hsome := (Bool.and_eq_true_iff.mp h).2
  unfold cursorParts at hsome
  split at hsome
  · rename_i tag boundQuery snapshotText afterText hparts
    split at hsome
    · rename_i hall
      obtain ⟨rfl, hhex, hsnapshot, _, _, hafter, _⟩ := hall
      rw [isHex64, Bool.and_eq_true, List.all_eq_true] at hhex
      rw [List.all_eq_true] at hsnapshot hafter
      intro u hu
      by_contra hplain
      refine absurd hu ?_
      have hjoined : [unit '.'].intercalate (cursor.splitOn (unit '.')) = cursor :=
        List.intercalate_splitOn _
      rw [← hjoined, hparts]
      refine not_mem_intercalate ?_ ?_
      · rw [List.mem_singleton]
        rintro rfl
        exact hplain (by decide)
      · simp only [List.forall_mem_cons]
        refine ⟨?_, fun hmem => hplain ?_, fun hmem => hplain (isPlain_digit (hsnapshot u hmem)),
          fun hmem => hplain (isPlain_digit (hafter u hmem)), nofun⟩
        · exact fun hmem => hplain ((by decide : ∀ u ∈ text "ad1", isPlain u = true) u hmem)
        · exact isPlain_hex (hhex.2 u hmem)
    · cases hsome
  · cases hsome

def ActiveDirectiveQuery.url (query : ActiveDirectiveQuery) : Text :=
  activeDirectivesUrl query.problemId (some query.limit) query.cursor

def ActiveDirectiveQuery.parameters (query : ActiveDirectiveQuery) : List Text :=
  (query.problemId.map fun id => text "problem_id" ++ unit '=' :: id).toList
    ++ [text "limit" ++ unit '=' :: decimal query.limit.toNat]
    ++ (query.cursor.map fun cursor => text "cursor" ++ unit '=' :: cursor).toList

variable {query : ActiveDirectiveQuery}

theorem ActiveDirectiveQuery.valid_cases (h : query.isValid = true) :
    (∀ id ∈ query.problemId, isProblemId id = true) ∧ 1 ≤ query.limit ∧ query.limit ≤ 100
      ∧ ∀ cursor ∈ query.cursor, isCursor cursor = true := by
  simp only [isValid, Bool.and_eq_true, Option.all_eq_true, decide_eq_true_eq] at h
  exact ⟨h.1.1.1, h.1.1.2, h.1.2, h.2⟩

theorem ActiveDirectiveQuery.url_eq (h : query.isValid = true) :
    query.url = text "/v1/directives/active"
      ++ unit '?' :: [unit '&'].intercalate query.parameters := by
  obtain ⟨hproblem, hlimit, _, hcursor⟩ := valid_cases h
  have hnumber : ofInt query.limit = decimal query.limit.toNat := by
    rw [ofInt, if_neg (by omega)]
    congr 1
    omega
  have hdigits : ∀ u ∈ decimal query.limit.toNat, isPlain u = true := fun u hu =>
    isPlain_digit (Text.decimal_digit hu)
  obtain ⟨problemId, limit, cursor⟩ := query
  have hfilter : problemId.filter (· != []) = problemId := by
    cases problemId with
    | none => rfl
    | some id =>
        have hne : id ≠ [] := by
          rintro rfl
          exact absurd (hproblem [] rfl) (by decide)
        simp [Option.filter, hne]
  rw [url, activeDirectivesUrl]
  dsimp only at *
  rw [hfilter]
  rw [if_neg (by simp)]
  congr 3
  rw [parameters]
  dsimp only
  have hproblems : (problemId.map fun id => ("problem_id", id)).toList.map formParameter
      = (problemId.map fun id => text "problem_id" ++ unit '=' :: id).toList := by
    cases problemId with
    | none => rfl
    | some id => exact congrArg ([·]) (formParameter_plain _ (isPlain_problemId (hproblem id rfl)))
  have hcursors : (cursor.map fun c => ("cursor", c)).toList.map formParameter
      = (cursor.map fun c => text "cursor" ++ unit '=' :: c).toList := by
    cases cursor with
    | none => rfl
    | some c => exact congrArg ([·]) (formParameter_plain _ (isPlain_cursor (hcursor c rfl)))
  rw [List.map_append, List.map_append, hproblems, hcursors, Option.map_some, Option.toList_some,
    List.map_singleton, hnumber, formParameter_plain _ hdigits]

theorem amp_not_mem {name : String} {t : Text} (hname : unit '&' ∉ text name)
    (h : ∀ u ∈ t, isPlain u = true) : unit '&' ∉ text name ++ unit '=' :: t := by
  rw [List.mem_append, List.mem_cons, not_or, not_or]
  exact ⟨hname, by decide, fun hmem => absurd (h _ hmem) (by decide)⟩

theorem ActiveDirectiveQuery.amp_not_mem_parameters (h : query.isValid = true) :
    ∀ part ∈ query.parameters, unit '&' ∉ part := by
  obtain ⟨hproblem, _, _, hcursor⟩ := valid_cases h
  simp only [parameters, List.forall_mem_append, Option.mem_toList, List.forall_mem_singleton]
  refine ⟨⟨?_, ?_⟩, ?_⟩
  · intro part hpart
    obtain ⟨id, hid, rfl⟩ := Option.mem_map.mp hpart
    exact amp_not_mem (by decide) (isPlain_problemId (hproblem id hid))
  · exact amp_not_mem (by decide) fun u hu => isPlain_digit (Text.decimal_digit hu)
  · intro part hpart
    obtain ⟨cursor, hc, rfl⟩ := Option.mem_map.mp hpart
    exact amp_not_mem (by decide) (isPlain_cursor (hcursor cursor hc))

theorem ActiveDirectiveQuery.eq_of_url {query' : ActiveDirectiveQuery} (h : query.isValid = true)
    (h' : query'.isValid = true) (hurl : query.url = query'.url) : query = query' := by
  rw [url_eq h, url_eq h'] at hurl
  have hjoined := (List.cons.inj (List.append_cancel_left hurl)).2
  have hparameters : query.parameters = query'.parameters := by
    have hne : ∀ query : ActiveDirectiveQuery, query.parameters ≠ [] := by
      intro query
      simp [parameters]
    rw [← List.splitOn_intercalate _ (amp_not_mem_parameters h) (hne query), hjoined,
      List.splitOn_intercalate _ (amp_not_mem_parameters h') (hne query')]
  obtain ⟨_, hlimit, _, _⟩ := valid_cases h
  obtain ⟨_, hlimit', _, _⟩ := valid_cases h'
  obtain ⟨problemId, limit, cursor⟩ := query
  obtain ⟨problemId', limit', cursor'⟩ := query'
  simp only [parameters] at hparameters hlimit hlimit'
  have hrest : (text "limit" ++ unit '=' :: decimal limit.toNat)
        :: (cursor.map fun cursor => text "cursor" ++ unit '=' :: cursor).toList
      = (text "limit" ++ unit '=' :: decimal limit'.toNat)
        :: (cursor'.map fun cursor => text "cursor" ++ unit '=' :: cursor).toList →
      limit = limit' ∧ cursor = cursor' := by
    intro heq
    obtain ⟨hnumber, hcursors⟩ := List.cons.inj heq
    have hdecimal := (List.cons.inj (List.append_cancel_left hnumber)).2
    have hnat := Framing.decimal_injective hdecimal
    refine ⟨by omega, ?_⟩
    cases cursor with
    | none => cases cursor' with
      | none => rfl
      | some c' => cases hcursors
    | some c => cases cursor' with
      | none => cases hcursors
      | some c' =>
          have hspelled := (List.cons.inj hcursors).1
          rw [(List.cons.inj (List.append_cancel_left hspelled)).2]
  -- the names of the first parameters differ
  have hnames : ∀ {s t : Text}, text "problem_id" ++ s ≠ text "limit" ++ t := by
    intro s t heq
    exact absurd (List.cons.inj heq).1 (by decide)
  cases problemId with
  | none =>
      cases problemId' with
      | none =>
          obtain ⟨rfl, rfl⟩ := hrest hparameters
          rfl
      | some id' => exact absurd (List.cons.inj hparameters).1.symm hnames
  | some id =>
      cases problemId' with
      | none => exact absurd (List.cons.inj hparameters).1 hnames
      | some id' =>
          obtain ⟨hid, htail⟩ := List.cons.inj hparameters
          obtain ⟨rfl, rfl⟩ := hrest htail
          rw [(List.cons.inj (List.append_cancel_left hid)).2]

/-! ## Responses -/

inductive Verb where
  | focus
  | forbid
  | unfocus
deriving DecidableEq

structure Receipt where
  directiveId : Text
  fellowId : Text
  problemId : Option Text
  verb : Verb
  text : Option Text
  noticeId : Text
  seq : Nat
  createdAt : Int
  acknowledgedAt : Option Int
deriving DecidableEq

def Receipt.bare (receipt : Receipt) : Receipt := { receipt with acknowledgedAt := none }

structure ActiveDirectiveResponse where
  fellowId : Text
  sponsorId : Text
  problemId : Option Text
  snapshotSeq : Nat
  focus : Option Receipt
  forbids : List Receipt
  hasMore : Bool
  nextCursor : Option Text
  nextUrl : Option Text
  restartUrl : Text
  omitted : List Text
deriving DecidableEq

/-- `FellowIdSchema`. -/
def isFellowId (id : Text) : Bool := !id.contains 0 && 1 ≤ id.length && id.length ≤ 80

/-- `SponsorIdSchema`. -/
def isSponsorId (id : Text) : Bool :=
  (text "usr_").isPrefixOf id
    && (id.drop 4).all (fun u => isAlphanumeric u || u == unit '_' || u == unit '-')
    && 1 ≤ (id.drop 4).length && (id.drop 4).length ≤ 60

/-- `DirectiveIdSchema`. -/
def isDirectiveId (id : Text) : Bool :=
  (text "DIR-").isPrefixOf id && (id.drop 4).length == 32 && (id.drop 4).all Framing.isHex

/-- `z.number().int().positive()`. -/
def isPositive (n : Int) : Bool := isSafeInteger n && 0 < n

def Verb.allows (verb : Verb) (body : Option Text) : Bool :=
  match verb with
  | .unfocus => body.isNone
  | _ => body.any fun body => 1 ≤ body.length && body.length ≤ 500

/-- `ActiveDirectiveFocusSchema` and `ActiveDirectiveForbidSchema`, but for
the verbs they admit. -/
def Receipt.isValid (receipt : Receipt) : Bool :=
  isDirectiveId receipt.directiveId && isFellowId receipt.fellowId
    && receipt.problemId.all isProblemId && receipt.verb.allows receipt.text
    && 1 ≤ receipt.noticeId.length && receipt.noticeId.length ≤ 80 && isPositive receipt.seq
    && isPositive receipt.createdAt && receipt.acknowledgedAt.all isPositive

/-- `ActiveDirectiveResponseSchema`. -/
def ActiveDirectiveResponse.isValid (response : ActiveDirectiveResponse) : Bool :=
  isFellowId response.fellowId && isSponsorId response.sponsorId
    && isSafeInteger response.snapshotSeq
    && response.focus.all (fun receipt => receipt.verb != .forbid && receipt.isValid)
    && response.forbids.length ≤ 100
    && response.forbids.all (fun receipt => receipt.verb == .forbid && receipt.isValid)
    && (text "/v1/directives/active").isPrefixOf response.restartUrl
    && response.restartUrl.length ≤ 256
    && response.omitted.length ≤ 8
    && response.omitted.all (fun note => 1 ≤ note.length && note.length ≤ 500)
    && response.problemId.all isProblemId
    && if response.hasMore then
        response.nextCursor.any isCursor
          && response.nextUrl.any fun url =>
            (text "/v1/directives/active?").isPrefixOf url && url.length ≤ 512
      else response.nextCursor.isNone && response.nextUrl.isNone

end Asimposium.Directives
