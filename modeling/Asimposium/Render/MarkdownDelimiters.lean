import Asimposium.Render.Markdown
import Asimposium.Render.PackBudget
import Asimposium.Render.PlainJson

/-!
# The delimiters of the Markdown face

Every text of a face is checked on its own, and a line break closes it
unless the next line begins with the control namespace. So the face reads
as its lines do wherever the renderer begins the next line itself. There
are two places where it does not: the preamble stands behind the title,
and the body of a trusted item behind the reason it was included.
-/

namespace Asimposium

open Text Json ExceptRun

/-! ## Lines -/

def flatLines (lines : List FaceLine) : Text := lines.flatMap fun line => line.text ++ [unit '\n']

theorem flatLines_cons (line : FaceLine) (lines : List FaceLine) :
    flatLines (line :: lines) = line.text ++ unit '\n' :: flatLines lines := by
  simp [flatLines]

theorem flatLines_append (lines lines' : List FaceLine) :
    flatLines (lines ++ lines') = flatLines lines ++ flatLines lines' :=
  List.flatMap_append

theorem joinLines_eq {lines : List FaceLine} (h : lines ≠ []) :
    joinLines lines = flatLines lines := by
  induction lines with
  | nil => exact absurd rfl h
  | cons line lines ih =>
      cases lines with
      | nil => simp [joinLines, flatLines]
      | cons line' lines =>
          have hrest := ih (by simp)
          rw [flatLines_cons, ← hrest]
          simp [joinLines, List.intercalate]

theorem ownOffsets_append (offset : Nat) (lines lines' : List FaceLine) :
    ownOffsets offset (lines ++ lines')
      = ownOffsets offset lines ++ ownOffsets (offset + (flatLines lines).length) lines' := by
  induction lines generalizing offset with
  | nil => rfl
  | cons line lines ih =>
      have hoffset : offset + (flatLines (line :: lines)).length
          = offset + line.text.length + 1 + (flatLines lines).length := by
        rw [flatLines_cons, List.length_append, List.length_cons]
        omega
      rw [hoffset]
      cases line with
      | control comment =>
          rw [List.cons_append, ownOffsets, ownOffsets, ih, List.cons_append]
          rfl
      | line content =>
          rw [List.cons_append, ownOffsets, ownOffsets, ih]
          rfl

theorem ownOffsets_textLines (offset : Nat) (contents : List Text) :
    ownOffsets offset (textLines contents) = [] := by
  induction contents generalizing offset with
  | nil => rfl
  | cons content contents ih => exact ih _

/-! ## What a reader finds in lines -/

/-- A reader finds in the lines the renderer's own comments and `foreign`
others, whatever follows that begins no namespace; and the lines begin none
themselves. -/
def Reads (unicode : Unicode) (lines : List FaceLine) (foreign : Nat) : Prop :=
  ∀ rest, scanNamespace unicode 0 rest = false →
    scanNamespace unicode 0 (flatLines lines ++ rest) = false
      ∧ ∀ offset, ∃ found,
        controlCommentOffsets unicode offset (flatLines lines ++ rest)
            = found ++ controlCommentOffsets unicode (offset + (flatLines lines).length) rest
          ∧ found.length = (ownOffsets offset lines).length + foreign
          ∧ (foreign = 0 → found = ownOffsets offset lines)

theorem Reads.nil (unicode : Unicode) : Reads unicode [] 0 := by
  intro rest hrest
  exact ⟨hrest, fun offset => ⟨[], rfl, rfl, fun _ => rfl⟩⟩

theorem Reads.append {unicode : Unicode} {lines lines' : List FaceLine} {foreign foreign' : Nat}
    (h : Reads unicode lines foreign) (h' : Reads unicode lines' foreign') :
    Reads unicode (lines ++ lines') (foreign + foreign') := by
  intro rest hrest
  obtain ⟨hstart', hread'⟩ := h' rest hrest
  obtain ⟨hstart, hread⟩ := h _ hstart'
  rw [flatLines_append, List.append_assoc]
  refine ⟨hstart, fun offset => ?_⟩
  obtain ⟨found, hfound, hlength, hown⟩ := hread offset
  obtain ⟨found', hfound', hlength', hown'⟩ := hread' (offset + (flatLines lines).length)
  refine ⟨found ++ found', ?_, ?_, ?_⟩
  · rw [hfound, hfound', List.append_assoc, List.length_append, Nat.add_assoc]
  · rw [ownOffsets_append, List.length_append, List.length_append, hlength, hlength']
    omega
  · intro hzero
    rw [ownOffsets_append, hown (by omega), hown' (by omega)]

theorem reads_joined {unicode : Unicode} {contents : List Text} {z : Text}
    (hflat : flatLines (textLines contents) = z ++ [unit '\n'])
    (hstart : ∀ rest, scanNamespace unicode 0 rest = false →
      scanNamespace unicode 0 (z ++ unit '\n' :: rest) = false) :
    Reads unicode (textLines contents) (controlCommentOffsets unicode 0 z).length := by
  intro rest hrest
  rw [hflat, List.append_assoc, List.singleton_append]
  refine ⟨hstart rest hrest, fun offset => ⟨controlCommentOffsets unicode offset z, ?_, ?_, ?_⟩⟩
  · rw [controlCommentOffsets_before_newline hrest, List.length_append, List.length_singleton,
      Nat.add_assoc]
  · rw [ownOffsets_textLines, length_controlCommentOffsets, List.length_nil, Nat.zero_add]
  · intro hzero
    rw [ownOffsets_textLines]
    rw [← length_controlCommentOffsets unicode offset] at hzero
    exact List.eq_nil_of_length_eq_zero hzero

theorem reads_blank (unicode : Unicode) : Reads unicode (textLines [[]]) 0 := by
  refine @reads_joined unicode [[]] [] rfl fun rest hrest => ?_
  rw [List.nil_append, scanNamespace_space (by decide) (by decide), if_pos rfl, hrest]

def CleanLine (unicode : Unicode) (content : Text) : Prop :=
  content = [] ∨ (content.head?.any opensNothing = true
    ∧ hasAsimpControlComment unicode content = false)

theorem CleanLine.reads {unicode : Unicode} {content : Text} (h : CleanLine unicode content) :
    Reads unicode (textLines [content]) 0 := by
  rcases h with rfl | ⟨hhead, hclean⟩
  · exact reads_blank unicode
  · have hread := @reads_joined unicode [content] content (by simp [flatLines, textLines,
      FaceLine.text])
    rw [controlCommentOffsets_eq_nil.mpr hclean] at hread
    refine hread fun rest _ => ?_
    cases content with
    | nil => cases hhead
    | cons u content => exact scanNamespace_opensNothing (by simpa using hhead) _

theorem reads_textLines {unicode : Unicode} {contents : List Text}
    (h : ∀ content ∈ contents, CleanLine unicode content) :
    Reads unicode (textLines contents) 0 := by
  induction contents with
  | nil => exact .nil unicode
  | cons content contents ih =>
      rw [List.forall_mem_cons] at h
      exact h.1.reads.append (ih h.2)

theorem reads_behind {unicode : Unicode} {u : UInt16} {mark first second : Text}
    (hu : opensNothing u = true) (hmark : unit '<' ∉ u :: mark) :
    Reads unicode (textLines [u :: mark ++ first, [], second])
      (controlCommentOffsets unicode 0 (first ++ text "\n\n" ++ second)).length := by
  have hcount : (controlCommentOffsets unicode 0 (u :: mark ++ (first ++ text "\n\n" ++ second))).length
      = (controlCommentOffsets unicode 0 (first ++ text "\n\n" ++ second)).length := by
    rw [controlCommentOffsets_of_not_mem hmark, length_controlCommentOffsets]
  rw [← hcount]
  have hbreaks : text "\n\n" = [unit '\n', unit '\n'] := rfl
  refine reads_joined (by simp [flatLines, textLines, FaceLine.text, hbreaks]) fun rest _ => ?_
  exact scanNamespace_opensNothing hu _

/-! ## Control comments of the renderer -/

theorem opens_asimp (unicode : Unicode) {u : UInt16} (hu : u = unit ' ' ∨ u = unit ':')
    (rest : Text) : opensControlComment unicode (text "<!-- asimp" ++ u :: rest) = true := by
  rcases hu with rfl | rfl
  · cases rest with
    | nil => rfl
    | cons v rest => rfl
  · cases rest with
    | nil => rfl
    | cons v rest => rfl

def RendererComment (comment : Text) : Prop :=
  ∃ u tail, comment = text "<!-- asimp" ++ u :: tail ∧ (u = unit ' ' ∨ u = unit ':')
    ∧ unit '<' ∉ tail

theorem RendererComment.reads {unicode : Unicode} {comment : Text} (h : RendererComment comment) :
    Reads unicode [.control comment] 0 := by
  obtain ⟨u, tail, rfl, hu, htail⟩ := h
  have hopen : text "<!-- asimp" = unit '<' :: text "!-- asimp" := rfl
  intro rest _
  have hflat : flatLines [.control (text "<!-- asimp" ++ u :: tail)] ++ rest
      = unit '<' :: (text "!-- asimp" ++ u :: tail ++ [unit '\n'] ++ rest) := by
    simp [flatLines, FaceLine.text, hopen]
  refine ⟨hflat ▸ scanNamespace_opensNothing (by decide) _, fun offset => ⟨[offset], ?_, rfl,
    fun _ => rfl⟩⟩
  have hopens : opensControlComment unicode
      (unit '<' :: (text "!-- asimp" ++ u :: tail ++ [unit '\n'] ++ rest)) = true := by
    have := opens_asimp unicode hu (tail ++ [unit '\n'] ++ rest)
    rw [hopen] at this
    simpa using this
  have hplain : unit '<' ∉ text "!-- asimp" ++ u :: tail ++ [unit '\n'] := by
    simp only [List.mem_append, List.mem_cons, List.not_mem_nil, not_or, or_false]
    refine ⟨⟨by decide, ?_, htail⟩, by decide⟩
    rcases hu with rfl | rfl
    · decide
    · decide
  rw [hflat, controlCommentOffsets, if_pos hopens, controlCommentOffsets_of_not_mem hplain,
    List.singleton_append]
  congr 2
  simp [flatLines, FaceLine.text, hopen]
  omega

theorem rendererComment {tag : Text} {fields : List (Text × Text)} (htag : unit '<' ∉ tag)
    (hfields : ∀ field ∈ fields, unit '<' ∉ field.1 ∧ unit '<' ∉ field.2) :
    RendererComment (controlComment tag fields) := by
  have hpairs : unit '<' ∉ List.intercalate [unit ' ']
      (fields.map fun field => field.1 ++ unit '=' :: field.2) := by
    refine not_mem_intercalate (by decide) fun part hpart => ?_
    obtain ⟨field, hfield, rfl⟩ := List.mem_map.mp hpart
    obtain ⟨hkey, hvalue⟩ := hfields field hfield
    simp only [List.mem_append, List.mem_cons, not_or]
    exact ⟨hkey, by decide, hvalue⟩
  have hclose : unit '<' ∉ text " -->" := by decide
  have hopen : text "<!-- " ++ text "asimp" = text "<!-- asimp" := rfl
  have hcolon : text "<!-- " ++ text "asimp:" = text "<!-- asimp" ++ [unit ':'] := rfl
  have hspace : text " -->" = unit ' ' :: text "-->" := rfl
  unfold controlComment
  generalize List.intercalate [unit ' '] (fields.map fun field => field.1 ++ unit '=' :: field.2)
    = pairs at hpairs
  dsimp only
  split
  · split
    · exact ⟨unit ' ', text "-->", by rw [hopen, hspace], .inl rfl, by decide⟩
    · refine ⟨unit ':', tag ++ text " -->", ?_, .inr rfl, ?_⟩
      · rw [← List.append_assoc, hcolon]
        simp
      · rw [List.mem_append, not_or]
        exact ⟨htag, hclose⟩
  · split
    · refine ⟨unit ' ', pairs ++ text " -->", by simp [← hopen], .inl rfl, ?_⟩
      rw [List.mem_append, not_or]
      exact ⟨hpairs, hclose⟩
    · refine ⟨unit ':', tag ++ unit ' ' :: (pairs ++ text " -->"), ?_, .inr rfl, ?_⟩
      · rw [← List.append_assoc, hcolon]
        simp
      · simp only [List.mem_append, List.mem_cons, not_or]
        exact ⟨htag, by decide, hpairs, hclose⟩

/-! ## Clean lines -/

section CleanLines

variable {unicode : Unicode}

theorem cleanLine_of_not_mem {content : Text} (hhead : content.head?.any opensNothing = true)
    (h : unit '<' ∉ content) : CleanLine unicode content :=
  .inr ⟨hhead, hasAsimpControlComment_of_not_mem h⟩

theorem cleanLine_behind {u : UInt16} {mark content : Text} (hu : opensNothing u = true)
    (hmark : unit '<' ∉ u :: mark) (h : hasAsimpControlComment unicode content = false) :
    CleanLine unicode (u :: mark ++ content) :=
  .inr ⟨hu, by rw [hasAsimpControlComment_append unicode hmark, h]⟩

theorem cleanLine_json {ms : List (Text × Json)} {indent : Nat} (h : (Json.obj ms).Plain) :
    CleanLine unicode (stableStringify (.obj ms) indent) := by
  refine cleanLine_of_not_mem ?_ fun hmem => h (lt_mem_stableStringify hmem)
  rw [stableStringify, Json.sorted]
  generalize (Json.sortedMembers ms).insertionSort
    (fun left right => Text.le left.1 right.1) = sorted
  cases sorted with
  | nil => rw [stringify]; decide
  | cons m sorted => rw [stringify]; simp; decide

theorem reads_fenced {length : Nat} (hlength : 0 < length) {info body : Text}
    (hinfo : unit '<' ∉ info) (hbody : hasAsimpControlComment unicode body = false) :
    Reads unicode (textLines [List.replicate length (unit '`') ++ info, body]) 0 := by
  have hmark : unit '<' ∉ List.replicate length (unit '`') ++ info ++ [unit '\n'] := by
    simp only [List.mem_append, List.mem_replicate, not_or]
    exact ⟨⟨fun h => absurd h.2 (by decide), hinfo⟩, by decide⟩
  have hread := @reads_joined unicode [List.replicate length (unit '`') ++ info, body]
    (List.replicate length (unit '`') ++ info ++ [unit '\n'] ++ body)
    (by simp [flatLines, textLines, FaceLine.text])
  rw [controlCommentOffsets_of_not_mem hmark, controlCommentOffsets_eq_nil.mpr hbody] at hread
  refine hread fun rest _ => ?_
  obtain ⟨n, rfl⟩ := Nat.exists_eq_succ_of_ne_zero hlength.ne'
  exact scanNamespace_opensNothing (by decide) _

theorem fenceFor_delimiter (t : Text) :
    ∃ length, 0 < length ∧ (fenceFor t).delimiter = List.replicate length (unit '`') :=
  ⟨max 3 (longestBacktickRun t + 1), by omega, rfl⟩

theorem cleanLine_fence (t : Text) : CleanLine unicode (fenceFor t).delimiter := by
  obtain ⟨length, hlength, hfence⟩ := fenceFor_delimiter t
  obtain ⟨n, rfl⟩ := Nat.exists_eq_succ_of_ne_zero hlength.ne'
  rw [hfence]
  refine cleanLine_of_not_mem (by rw [List.replicate_succ]; rfl) fun h => ?_
  exact absurd (List.mem_replicate.mp h).2 (by decide)

end CleanLines

/-! ## The em dash -/

def emDash : Text := text "—"

/-- The em dash is its own normal form and lower case, and no mark. -/
structure Unicode.PlainDash (unicode : Unicode) : Prop where
  nfkc : unicode.nfkc emDash = emDash
  nfkd : unicode.nfkd emDash = emDash
  toLowerCase : unicode.toLowerCase emDash = emDash
  isMarkOrFormat : unicode.isMarkOrFormat emDash = false

section Dash

variable {unicode : Unicode}

theorem Unicode.PlainDash.scanNamespace (h : unicode.PlainDash) (r : Text) :
    scanNamespace unicode 0 (emDash ++ r) = false := by
  have hdash : emDash = [0x2014] := rfl
  have hpoint : (emDash.all isAscii) = false := by decide
  have hwhite : isControlCommentWhitespace emDash = false := by decide
  have hpoints : codePoints emDash = [emDash] := by decide
  have hcharacters : semanticCharacters unicode emDash = [emDash] := by
    simp [semanticCharacters, hpoint, h.nfkd, h.nfkc, h.toLowerCase, h.isMarkOrFormat, hpoints]
  have hfirst : nextSemantic 0 emDash = none := by decide
  rw [hdash, List.singleton_append, scanNamespace_cons unicode 0 fun v tail _ => by
    rw [show isHighSurrogate 0x2014 = false by decide, Bool.false_and], ← hdash]
  simp only [scanStep, hwhite, hcharacters, List.foldlM_cons, hfirst, Option.bind_eq_bind,
    Option.bind_none, Bool.false_eq_true, if_false]
  split
  · rfl
  · rfl

theorem has_before_dash (hdash : unicode.PlainDash) {z t : Text}
    (hz : hasAsimpControlComment unicode z = false)
    (ht : hasAsimpControlComment unicode t = false) :
    hasAsimpControlComment unicode (z ++ text " — " ++ t) = false := by
  have hmark : text " — " ++ t = unit ' ' :: (emDash ++ (unit ' ' :: t)) := rfl
  rw [List.append_assoc, hasAsimpControlComment_before hz, hasAsimpControlComment_append unicode
    (by decide), ht]
  · rw [hmark]
    exact .cons (by decide) _
  · intro seen hscan
    rw [hmark, scanNamespace_space (by decide) (by decide), hdash.scanNamespace] at hscan
    split at hscan
    · cases hscan
    · exact beq_iff_eq.mp hscan

theorem cleanLine_omitted (hdash : unicode.PlainDash) {entry : OmittedEntry}
    (hreason : hasAsimpControlComment unicode entry.reason = false)
    (hdetail : ∀ detail ∈ entry.detail, hasAsimpControlComment unicode detail = false) :
    CleanLine unicode (omittedLine entry) := by
  have hmark : text "- " = unit '-' :: [unit ' '] := rfl
  unfold omittedLine
  cases hcase : entry.detail with
  | none => exact cleanLine_behind (by decide) (by decide) hreason
  | some detail =>
      dsimp only
      rw [List.append_assoc, List.append_assoc, hmark]
      refine cleanLine_behind (by decide) (by decide) ?_
      rw [← List.append_assoc]
      exact has_before_dash hdash hreason (hdetail detail hcase)

theorem cleanLine_nextAction {action : NextAction}
    (hurl : hasAsimpControlComment unicode action.url = false)
    (hwhy : hasAsimpControlComment unicode action.why = false) :
    CleanLine unicode (nextActionLine action) := by
  have hmark : text "- `" = unit '-' :: text " `" := rfl
  have hclose : text "` — " = unit '`' :: text " — " := rfl
  have hmethod : unit '<' ∉ unit '-' :: (text " `" ++ action.method.spelling ++ text " ") := by
    cases action.method <;> decide
  have hline : nextActionLine action
      = unit '-' :: (text " `" ++ action.method.spelling ++ text " ")
        ++ (action.url ++ (text "` — " ++ action.why)) := by
    simp [nextActionLine, hmark]
  rw [hline]
  refine cleanLine_behind (by decide) hmethod ?_
  rw [hasAsimpControlComment_before hurl, hasAsimpControlComment_append unicode (by decide), hwhy]
  · rw [hclose]
    exact .cons (by decide) _
  · intro seen hscan
    rw [hclose, List.cons_append, scanNamespace_stop unicode (by decide)] at hscan
    cases hscan

end Dash

/-! ## The parts of the face -/

theorem textLines_append (contents contents' : List Text) :
    textLines (contents ++ contents') = textLines contents ++ textLines contents' :=
  List.map_append

theorem isSafeHeaderValue_plain {value : Text} (h : isSafeHeaderValue value = true) :
    unit '<' ∉ value := by
  cases value with
  | nil => exact List.not_mem_nil
  | cons u rest =>
      simp only [isSafeHeaderValue, Bool.and_eq_true] at h
      obtain ⟨⟨⟨hfirst, hrest⟩, -⟩, -⟩ := h
      rw [List.mem_cons, not_or]
      refine ⟨?_, fun hmem => absurd (List.all_eq_true.mp hrest _ hmem) (by decide)⟩
      rintro rfl
      exact absurd hfirst (by decide)

theorem lt_not_mem_decimal (n : Nat) : unit '<' ∉ decimal n := fun h =>
  absurd (decimal_digit h) (by decide)

theorem ItemScope.spelling_plain (scope : ItemScope) : unit '<' ∉ scope.spelling := by
  cases scope <;> decide

structure ItemPrinted (unicode : Unicode) (item : PreparedItem) : Prop where
  id : unit '<' ∉ item.id
  kind : unit '<' ∉ item.kind
  whyIncluded : hasAsimpControlComment unicode item.whyIncluded = false
  body : hasAsimpControlComment unicode item.body = false
  notice : item.untrusted = false → item.screeningNotice = none

theorem preparedItem_printed {sanitizer : Sanitizer} {item : ProjectionItem}
    (hlisted : ItemListed sanitizer item)
    (hwhy : hasAsimpControlComment sanitizer.toUnicode item.whyIncluded = false) :
    ItemPrinted sanitizer.toUnicode (preparedItem sanitizer item) where
  id := isSafeHeaderValue_plain hlisted.idSafe
  kind := isSafeHeaderValue_plain hlisted.accepted.kind
  whyIncluded := hwhy
  body := by
    unfold preparedItem
    cases huntrusted : item.untrusted with
    | true => exact neutralizeUntrustedBody_clean sanitizer item.body
    | false => exact (hlisted.accepted.raw huntrusted).1
  notice := by
    intro huntrusted
    simp only [preparedItem] at huntrusted ⊢
    rw [if_neg (by rw [huntrusted]; exact Bool.false_ne_true)]

/-- The comments a trusted body brings behind the reason it was included. -/
def joinedComments (unicode : Unicode) (item : PreparedItem) : Nat :=
  if item.untrusted then 0
  else (controlCommentOffsets unicode 0 (item.whyIncluded ++ text "\n\n" ++ item.body)).length

section Items

variable {unicode : Unicode} {item : PreparedItem}

theorem rendererComment_item (h : ItemPrinted unicode item) :
    RendererComment (itemComment item) := by
  refine rendererComment (by decide) fun field hfield => ?_
  simp only [itemFields, List.mem_append, List.mem_cons, List.not_mem_nil, or_false,
    List.mem_map] at hfield
  rcases hfield with (rfl | rfl | rfl | rfl) | ⟨tokens, -, rfl⟩
  · exact ⟨by dsimp only; decide, h.id⟩
  · exact ⟨by dsimp only; decide, h.kind⟩
  · exact ⟨by dsimp only; decide, item.scope.spelling_plain⟩
  · refine ⟨by dsimp only; decide, ?_⟩
    dsimp only
    split
    · decide
    · decide
  · exact ⟨by dsimp only; decide, lt_not_mem_ofInt tokens⟩

theorem rendererComment_itemEnd (h : ItemPrinted unicode item) :
    RendererComment (itemEndComment item) := by
  refine rendererComment (by decide) fun field hfield => ?_
  rw [List.mem_singleton.mp hfield]
  exact ⟨by dsimp only; decide, h.id⟩

theorem cleanLine_heading (h : ItemPrinted unicode item) :
    CleanLine unicode (itemHeading item) := by
  have hmark : text "### " = unit '#' :: text "## " := rfl
  have htrust : unit '<' ∉ (if item.untrusted then text "untrusted data"
      else text "server-authored") := by
    split
    · decide
    · decide
  refine cleanLine_of_not_mem (by simp [itemHeading, hmark]; decide) ?_
  simp only [itemHeading, List.mem_append, not_or]
  exact ⟨⟨⟨⟨⟨⟨⟨by decide, h.id⟩, by decide⟩, h.kind⟩, by decide⟩, item.scope.spelling_plain⟩,
    by decide⟩, htrust⟩

theorem cleanLine_blank : CleanLine unicode [] := .inl rfl

theorem cleanLine_whyIncluded (h : ItemPrinted unicode item) :
    CleanLine unicode (whyIncludedLine item) :=
  @cleanLine_behind unicode (unit '_') (text "why included:_ ") _ (by decide) (by decide)
    h.whyIncluded

theorem cleanLine_notice (notice : ScreeningPublicationNotice) :
    CleanLine unicode (screeningNoticeLine notice) := by
  have hmark : text "**Screening notice:** " = unit '*' :: text "*Screening notice:** " := rfl
  refine cleanLine_of_not_mem (by simp [screeningNoticeLine, hmark]; decide) ?_
  rw [screeningNoticeLine, List.mem_append, not_or]
  refine ⟨by decide, ?_⟩
  cases notice with
  | offScope =>
      simp only [screeningNoticeText, List.mem_append, not_or]
      exact ⟨⟨not_mem_text (by decide), not_mem_text (by decide)⟩, not_mem_text (by decide)⟩
  | screeningWarning category =>
      simp only [screeningNoticeText, List.mem_append, not_or]
      refine ⟨⟨not_mem_text (by decide), ?_⟩, not_mem_text (by decide)⟩
      cases category <;> decide

theorem reads_fencedBody (h : ItemPrinted unicode item) :
    Reads unicode (textLines (fencedBody item)) 0 := by
  obtain ⟨length, hlength, hfence⟩ := fenceFor_delimiter item.body
  have hopen := reads_fenced hlength (by decide : unit '<' ∉ text "text") h.body
  have hsummary : unit '<' ∉ neutralizedSummary item.neutralized := by
    refine not_mem_intercalate (by decide) fun part hpart => ?_
    obtain ⟨finding, -, rfl⟩ := List.mem_map.mp hpart
    simp only [List.mem_append, not_or]
    refine ⟨⟨?_, by decide⟩, lt_not_mem_decimal _⟩
    cases finding.marker <;> decide
  have hrest : ∀ content ∈ (fenceFor item.body).delimiter :: (if item.neutralized = [] then []
      else [[], text "_neutralized in this body:_ " ++ neutralizedSummary item.neutralized]),
      CleanLine unicode content := by
    refine List.forall_mem_cons.mpr ⟨cleanLine_fence item.body, ?_⟩
    split
    · exact List.forall_mem_nil _
    · refine List.forall_mem_cons.mpr ⟨cleanLine_blank, List.forall_mem_singleton.mpr ?_⟩
      exact @cleanLine_behind unicode (unit '_') (text "neutralized in this body:_ ") _
        (by decide) (by decide) (hasAsimpControlComment_of_not_mem hsummary)
  rw [← hfence] at hopen
  exact hopen.append (reads_textLines hrest)

theorem reads_renderItem (h : ItemPrinted unicode item) :
    Reads unicode (renderItem item) (joinedComments unicode item) := by
  have hbegin := @RendererComment.reads unicode _ (rendererComment_item h)
  have hend := ((reads_blank unicode).append ((rendererComment_itemEnd h).reads)).append
    (reads_blank unicode)
  have hheading : Reads unicode (textLines [itemHeading item, []]) 0 :=
    reads_textLines (List.forall_mem_cons.mpr ⟨cleanLine_heading h,
      List.forall_mem_singleton.mpr cleanLine_blank⟩)
  unfold joinedComments
  cases huntrusted : item.untrusted with
  | true =>
      have hwhy : Reads unicode (textLines [whyIncludedLine item, []]) 0 :=
        reads_textLines (List.forall_mem_cons.mpr ⟨cleanLine_whyIncluded h,
          List.forall_mem_singleton.mpr cleanLine_blank⟩)
      have hnotice : Reads unicode (textLines (item.screeningNotice.toList.flatMap fun notice =>
          [screeningNoticeLine notice, []])) 0 := by
        refine reads_textLines fun content hcontent => ?_
        obtain ⟨notice, -, hmem⟩ := List.mem_flatMap.mp hcontent
        rcases List.mem_cons.mp hmem with rfl | hmem
        · exact cleanLine_notice notice
        · rw [List.mem_singleton.mp hmem]
          exact cleanLine_blank
      have hall := ((((hbegin.append hheading).append hwhy).append hnotice).append
        (reads_fencedBody h)).append hend
      simpa [renderItem, huntrusted, textLines, blankLine] using hall
  | false =>
      -- the reason and the body are read as one text
      have hbody := @reads_behind unicode (unit '_') (text "why included:_ ") item.whyIncluded
        item.body (by decide) (by decide)
      have hall := ((hbegin.append hheading).append hbody).append hend
      have hline : unit '_' :: text "why included:_ " ++ item.whyIncluded
          = whyIncludedLine item := rfl
      rw [hline] at hall
      simpa [renderItem, huntrusted, h.notice huntrusted, textLines, blankLine] using hall

end Items

/-! ## The whole face -/

theorem reads_itemLines {unicode : Unicode} {items : List PreparedItem}
    (h : ∀ item ∈ items, ItemPrinted unicode item) :
    Reads unicode (itemLines items) (items.map (joinedComments unicode)).sum := by
  have hall : Reads unicode (items.flatMap renderItem) (items.map (joinedComments unicode)).sum := by
    induction items with
    | nil => exact .nil unicode
    | cons item items ih =>
        rw [List.forall_mem_cons] at h
        exact (reads_renderItem h.1).append (ih h.2)
  unfold itemLines
  split
  · rename_i hnone
    subst hnone
    refine reads_textLines (List.forall_mem_cons.mpr ⟨?_, List.forall_mem_singleton.mpr
      cleanLine_blank⟩)
    exact cleanLine_of_not_mem (by decide) (by decide)
  · exact hall

structure FacePrinted (renderer : Renderer) (prepared : PreparedProjection) : Prop where
  header : ∀ t ∈ [prepared.projection.schema, prepared.projection.kind,
    prepared.projection.problem, prepared.projection.profile], unit '<' ∉ t
  session : ∀ t ∈ prepared.projection.session, unit '<' ∉ t
  fingerprint : unit '<' ∉ prepared.fingerprint
  claimState : ∀ state ∈ prepared.projection.claimState, state.toJson.Plain
  promotionBudget : ∀ budget ∈ prepared.projection.promotionBudget, budget.toJson.Plain
  wellSpelled : prepared.projection.WellSpelled renderer.toUnicode
  items : ∀ item ∈ prepared.items, ItemPrinted renderer.toUnicode item

section Face

variable {renderer : Renderer} {prepared : PreparedProjection}

theorem FacePrinted.headerComment (h : FacePrinted renderer prepared) :
    RendererComment (headerComment prepared.projection) := by
  refine rendererComment (by decide) fun field hfield => ?_
  have hheader := h.header
  simp only [List.forall_mem_cons, List.not_mem_nil, false_imp_iff, implies_true, and_true]
    at hheader
  obtain ⟨hschema, hkind, hproblem, hprofile⟩ := hheader
  simp only [List.mem_cons, List.not_mem_nil, or_false] at hfield
  rcases hfield with rfl | rfl | rfl | rfl | rfl | rfl
  · exact ⟨by dsimp only; decide, by dsimp only; decide⟩
  · exact ⟨by dsimp only; decide, hschema⟩
  · exact ⟨by dsimp only; decide, hkind⟩
  · exact ⟨by dsimp only; decide, hproblem⟩
  · exact ⟨by dsimp only; decide, hprofile⟩
  · exact ⟨by dsimp only; decide, lt_not_mem_ofInt _⟩

theorem FacePrinted.trailerComment (h : FacePrinted renderer prepared) :
    RendererComment (trailerComment prepared) := by
  refine rendererComment (by decide) fun field hfield => ?_
  simp only [trailerFields, List.mem_append, List.mem_cons, List.not_mem_nil, or_false,
    List.mem_map, Option.mem_toList] at hfield
  rcases hfield with ((((rfl | rfl | rfl | rfl) | ⟨session, hsession, rfl⟩) | ⟨budget, -, rfl⟩)
    | ⟨estimate, -, rfl⟩)
  · exact ⟨by dsimp only; decide, lt_not_mem_ofInt _⟩
  · exact ⟨by dsimp only; decide, lt_not_mem_decimal _⟩
  · exact ⟨by dsimp only; decide, lt_not_mem_decimal _⟩
  · exact ⟨by dsimp only; decide, h.fingerprint⟩
  · exact ⟨by dsimp only; decide, h.session session hsession⟩
  · exact ⟨by dsimp only; decide, lt_not_mem_ofInt _⟩
  · exact ⟨by dsimp only; decide, lt_not_mem_ofInt _⟩

theorem cleanLine_literal {unicode : Unicode} {characters : List Char}
    (h : (characters.head?.any (fun c => opensNothing (unit c))
      && characters.all fun c => unit c != unit '<') = true) :
    CleanLine unicode (text (String.ofList characters)) := by
  rw [Bool.and_eq_true] at h
  refine cleanLine_of_not_mem ?_ (not_mem_text h.2)
  rw [text_ofList, List.head?_map, Option.any_map]
  exact h.1

theorem cleanLine_literals {unicode : Unicode} {first rest : List Char}
    (h : (first.head?.any (fun c => opensNothing (unit c))
      && (first ++ rest).all fun c => unit c != unit '<') = true) :
    CleanLine unicode (text (String.ofList first ++ String.ofList rest)) := by
  have hjoin : text (String.ofList first ++ String.ofList rest)
      = text (String.ofList (first ++ rest)) := by
    rw [String.ofList_append]
  rw [hjoin]
  refine cleanLine_literal ?_
  cases first with
  | nil => cases h
  | cons c first => exact h

theorem statusLines_clean {unicode : Unicode} (status : Option ProblemStatus) :
    ∀ content ∈ statusLines status, CleanLine unicode content := by
  intro content hcontent
  obtain ⟨status, -, hmem⟩ := List.mem_flatMap.mp hcontent
  rcases List.mem_cons.mp hmem with rfl | hmem
  · have hmark : text "Problem lifecycle: **" = unit 'P' :: text "roblem lifecycle: **" := rfl
    refine cleanLine_of_not_mem (by simp [hmark]; decide) ?_
    simp only [List.mem_append, not_or]
    refine ⟨⟨not_mem_text (by decide), ?_⟩, not_mem_text (by decide)⟩
    cases status <;> decide
  · rw [List.mem_singleton.mp hmem]
    exact cleanLine_blank

theorem claimStateLines_clean {unicode : Unicode} {state : Option PublicClaimState}
    (h : ∀ s ∈ state, s.toJson.Plain) :
    ∀ content ∈ claimStateLines state, CleanLine unicode content := by
  cases state with
  | none => exact List.forall_mem_nil _
  | some state =>
      simp only [claimStateLines, Option.toList_some, List.flatMap_cons, List.flatMap_nil,
        List.append_nil, List.forall_mem_cons]
      exact ⟨cleanLine_literal (by decide), cleanLine_blank, cleanLine_literal (by decide),
        cleanLine_json (h state rfl), cleanLine_literal (by decide), cleanLine_blank,
        List.forall_mem_nil _⟩

theorem promotionBudgetLines_clean {unicode : Unicode} {budget : Option RateLimitBudget}
    (h : ∀ b ∈ budget, b.toJson.Plain) :
    ∀ content ∈ promotionBudgetLines budget, CleanLine unicode content := by
  cases budget with
  | none => exact List.forall_mem_nil _
  | some budget =>
      simp only [promotionBudgetLines, Option.toList_some, List.flatMap_cons, List.flatMap_nil,
        List.append_nil, List.forall_mem_cons]
      exact ⟨cleanLine_literal (by decide), cleanLine_blank, cleanLine_literals (by decide),
        cleanLine_blank, cleanLine_literal (by decide), cleanLine_json (h budget rfl),
        cleanLine_literal (by decide), cleanLine_blank, List.forall_mem_nil _⟩

theorem reads_declaredProvenanceLines (sanitizer : Sanitizer) (provenance : SessionProvenance) :
    Reads sanitizer.toUnicode (textLines (declaredProvenanceLines sanitizer provenance)) 0 := by
  have hclean := neutralizeUntrustedBody_clean sanitizer (stableStringify provenance.toJson 2)
  unfold declaredProvenanceLines
  generalize neutralizeUntrustedBody sanitizer (stableStringify provenance.toJson 2) = neutralized
    at hclean
  obtain ⟨length, hlength, hfence⟩ := fenceFor_delimiter neutralized.text
  have hbody := reads_fenced hlength (by decide : unit '<' ∉ text "json") hclean
  rw [← hfence] at hbody
  simp only [textLines_append]
  refine @Reads.append _ _ _ 0 0 (@Reads.append _ _ _ 0 0 (@Reads.append _ _ _ 0 0
    (reads_textLines ?_) hbody) (reads_textLines ?_)) (reads_textLines ?_)
  · exact List.forall_mem_cons.mpr ⟨cleanLine_literal (by decide),
      List.forall_mem_singleton.mpr cleanLine_blank⟩
  · exact List.forall_mem_cons.mpr ⟨cleanLine_fence _, List.forall_mem_singleton.mpr
      cleanLine_blank⟩
  · split
    · exact List.forall_mem_nil _
    · exact List.forall_mem_cons.mpr ⟨cleanLine_literals (by decide),
        List.forall_mem_singleton.mpr cleanLine_blank⟩

theorem reads_provenanceLines (sanitizer : Sanitizer)
    (provenance : Option (Option SessionProvenance)) :
    Reads sanitizer.toUnicode (textLines (provenanceLines sanitizer provenance)) 0 := by
  cases provenance with
  | none => exact .nil _
  | some provenance =>
      simp only [provenanceLines, Option.toList_some, List.flatMap_cons, List.flatMap_nil,
        List.append_nil, textLines_append]
      refine @Reads.append _ _ _ 0 0 (reads_textLines ?_) ?_
      · exact List.forall_mem_cons.mpr ⟨cleanLine_literal (by decide),
          List.forall_mem_singleton.mpr cleanLine_blank⟩
      · cases provenance with
        | none =>
            exact reads_textLines (List.forall_mem_cons.mpr ⟨cleanLine_literal (by decide),
              List.forall_mem_singleton.mpr cleanLine_blank⟩)
        | some provenance => exact reads_declaredProvenanceLines sanitizer provenance

theorem FacePrinted.closingLines_clean (hdash : renderer.toUnicode.PlainDash)
    (h : FacePrinted renderer prepared) :
    ∀ content ∈ closingLines prepared.projection, CleanLine renderer.toUnicode content := by
  have hprose : ∀ {t}, ProseText renderer.toUnicode t
      → hasAsimpControlComment renderer.toUnicode t = false := fun h => h.2
  have homitted : ∀ content ∈ omittedLines prepared.projection.omitted,
      CleanLine renderer.toUnicode content := by
    unfold omittedLines
    split
    · exact List.forall_mem_singleton.mpr (cleanLine_literal (by decide))
    · rintro content hcontent
      obtain ⟨entry, hentry, rfl⟩ := List.mem_map.mp hcontent
      obtain ⟨hreason, hdetail⟩ := h.wellSpelled.omitted entry hentry
      exact cleanLine_omitted hdash (hprose hreason) fun detail hmem => hprose (hdetail detail hmem)
  have hactions : ∀ content ∈ nextActionLines prepared.projection.nextActions,
      CleanLine renderer.toUnicode content := by
    unfold nextActionLines
    split
    · exact List.forall_mem_singleton.mpr (cleanLine_literal (by decide))
    · rintro content hcontent
      obtain ⟨action, haction, rfl⟩ := List.mem_map.mp hcontent
      obtain ⟨-, hurl, hwhy⟩ := h.wellSpelled.nextActions action haction
      exact cleanLine_nextAction (hprose hurl) (hprose hwhy)
  have hdegraded : ∀ content ∈ degradedLines prepared.projection.degraded,
      CleanLine renderer.toUnicode content := by
    unfold degradedLines
    split
    · exact List.forall_mem_nil _
    · simp only [List.forall_mem_append, List.forall_mem_cons]
      refine ⟨⟨⟨cleanLine_literal (by decide), cleanLine_blank, List.forall_mem_nil _⟩, ?_⟩,
        cleanLine_blank, List.forall_mem_nil _⟩
      rintro content hcontent
      obtain ⟨note, hnote, rfl⟩ := List.mem_map.mp hcontent
      exact @cleanLine_behind _ (unit '-') [unit ' '] _ (by decide) (by decide)
        (hprose (h.wellSpelled.degraded note hnote))
  simp only [closingLines, List.forall_mem_append, List.forall_mem_cons, List.not_mem_nil,
    false_imp_iff, implies_true, and_true]
  exact ⟨⟨⟨⟨⟨⟨promotionBudgetLines_clean h.promotionBudget, cleanLine_literal (by decide),
    cleanLine_blank⟩, homitted⟩, cleanLine_blank, cleanLine_literal (by decide), cleanLine_blank⟩,
    hactions⟩, cleanLine_blank⟩, hdegraded⟩

/-- The comments that join in a face: of its title and preamble, and of its
trusted items. -/
def joinedInFace (unicode : Unicode) (prepared : PreparedProjection) : Nat :=
  (controlCommentOffsets unicode 0
      (prepared.projection.title ++ text "\n\n" ++ prepared.projection.preamble)).length
    + (prepared.items.map (joinedComments unicode)).sum

theorem FacePrinted.reads (hdash : renderer.toUnicode.PlainDash)
    (h : FacePrinted renderer prepared) :
    Reads renderer.toUnicode (markdownFaceLines renderer.toSanitizer prepared)
      (joinedInFace renderer.toUnicode prepared) := by
  have hblank := reads_blank renderer.toUnicode
  have htitle := @reads_behind renderer.toUnicode (unit '#') [unit ' '] prepared.projection.title
    prepared.projection.preamble (by decide) (by decide)
  have hstate : Reads renderer.toUnicode (textLines (statusLines prepared.projection.problemStatus
      ++ claimStateLines prepared.projection.claimState)) 0 := by
    refine reads_textLines (List.forall_mem_append.mpr ⟨statusLines_clean _, ?_⟩)
    exact claimStateLines_clean h.claimState
  have hheading : Reads renderer.toUnicode (textLines [text "## Items", []]) 0 :=
    reads_textLines (List.forall_mem_cons.mpr ⟨cleanLine_literal (by decide),
      List.forall_mem_singleton.mpr cleanLine_blank⟩)
  have hend : Reads renderer.toUnicode [.control faceEndComment] 0 :=
    (rendererComment (by decide) (List.forall_mem_nil _)).reads
  have hheader := @RendererComment.reads renderer.toUnicode _ h.headerComment
  have hprovenance := reads_provenanceLines renderer.toSanitizer prepared.projection.provenance
  have hbegin := ((hheader.append hblank).append htitle).append hblank
  have hmiddle := (hbegin.append ((hstate.append hprovenance).append hheading)).append
    (reads_itemLines h.items)
  have hall := ((hmiddle.append (h.trailerComment.reads.append hblank)).append
    (reads_textLines (h.closingLines_clean hdash))).append hend
  have hmark : unit '#' :: [unit ' '] ++ prepared.projection.title
      = text "# " ++ prepared.projection.title := rfl
  rw [hmark] at hall
  unfold joinedInFace
  simpa [markdownFaceLines, textLines, blankLine] using hall

end Face

end Asimposium
