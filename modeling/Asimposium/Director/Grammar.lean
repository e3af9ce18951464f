import Asimposium.Lib.Words
import Asimposium.Render.Text

/-!
# The director grammar

Eleven verbs, each with its own arguments: what a command may hold, how a
line is read, and how a command is written. The first arguments are words
of the line; the text of a directive and the reason for hiding a problem
are what is left of it.

The messages for a text that is too short or too long belong to the schema
library: `Zod` stands for it.
-/

namespace Asimposium.Director

/-! ## Commands -/

inductive DirectorGrammarVerb where
  | assign
  | focus
  | forbid
  | unfocus
  | pause
  | resume
  | revoke
  | transfer
  | publish
  | hide
  | cap
deriving DecidableEq

def DirectorGrammarVerb.spelling : DirectorGrammarVerb → Text
  | .assign => text "assign"
  | .focus => text "focus"
  | .forbid => text "forbid"
  | .unfocus => text "unfocus"
  | .pause => text "pause"
  | .resume => text "resume"
  | .revoke => text "revoke"
  | .transfer => text "transfer"
  | .publish => text "publish"
  | .hide => text "hide"
  | .cap => text "cap"

/-- `DIRECTOR_GRAMMAR_VERBS`. -/
def directorGrammarVerbs : List DirectorGrammarVerb :=
  [.assign, .focus, .forbid, .unfocus, .pause, .resume, .revoke, .transfer, .publish, .hide, .cap]

inductive DirectorRoleKind where
  | worker
  | critic
  | investigator
  | synthesizer
deriving DecidableEq

def DirectorRoleKind.spelling : DirectorRoleKind → Text
  | .worker => text "worker"
  | .critic => text "critic"
  | .investigator => text "investigator"
  | .synthesizer => text "synthesizer"

/-- `MAX_DIRECTIVE_TEXT_LENGTH`. -/
def maxDirectiveTextLength : Nat := 500

/-- `MAX_PROBLEM_CAP`. -/
def maxProblemCap : Int := 16

/-- `MIN_PROBLEM_CAP`. -/
def minProblemCap : Int := 1

inductive DirectorCommand where
  | assign (fellowId problemId : Text) (role : Option DirectorRoleKind)
  | focus (fellowId directive : Text)
  | forbid (fellowId directive : Text)
  | unfocus (fellowId : Text)
  | pause (fellowId : Text)
  | resume (fellowId : Text)
  | revoke (fellowId : Text)
  | transfer (fellowId targetSponsorId : Text)
  | publish (problemId : Text)
  | hide (problemId reason : Text)
  | cap (problemId : Text) (limit : Int)
deriving DecidableEq

/-! ## The schema of a command -/

inductive Issue where
  | containsNul
  | invalidProblemId
  | invalidSponsorId
  | tooSmall (minimum : Nat)
  | tooBig (maximum : Nat)
  | capTooSmall
  | capTooBig
deriving DecidableEq

structure Zod where
  tooSmall : Nat → Text
  tooBig : Nat → Text
  capTooSmall : Text
  capTooBig : Text

def Zod.message (zod : Zod) : Issue → Text
  | .containsNul => text "must not contain NUL"
  | .invalidProblemId => text "invalid problem id"
  | .invalidSponsorId => text "invalid sponsor id"
  | .tooSmall minimum => zod.tooSmall minimum
  | .tooBig maximum => zod.tooBig maximum
  | .capTooSmall => zod.capTooSmall
  | .capTooBig => zod.capTooBig

def check (holds : Bool) (issue : Issue) : List Issue := if holds then [] else [issue]

/-- `/^(?!.*--)P-[A-Z0-9][A-Z0-9-]{1,30}$/`. -/
def isProblemId : Text → Bool
  | p :: dash :: first :: rest =>
      p == unit 'P' && dash == unit '-' && (Text.isUpper first || Text.isDigit first)
        && decide (1 ≤ rest.length) && decide (rest.length ≤ 30)
        && rest.all (fun u => Text.isUpper u || Text.isDigit u || u == unit '-')
        && !Text.includes (p :: dash :: first :: rest) (text "--")
  | _ => false

/-- `/^usr_[A-Za-z0-9_-]{1,60}$/`. -/
def isSponsorId (t : Text) : Bool :=
  Text.startsWith t (text "usr_") && decide (1 ≤ (t.drop 4).length)
    && decide ((t.drop 4).length ≤ 60)
    && (t.drop 4).all (fun u => Text.isAlphanumeric u || u == unit '_' || u == unit '-')

/-- `FellowIdSchema`. -/
def fellowIdIssues (t : Text) : List Issue :=
  check (!t.contains 0) .containsNul ++ check (decide (1 ≤ t.length)) (.tooSmall 1)
    ++ check (decide (t.length ≤ 80)) (.tooBig 80)

/-- `ProblemIdSchema`. -/
def problemIdIssues (t : Text) : List Issue := check (isProblemId t) .invalidProblemId

/-- `SponsorIdSchema`. -/
def sponsorIdIssues (t : Text) : List Issue :=
  check (!t.contains 0) .containsNul ++ check (isSponsorId t) .invalidSponsorId

/-- `z.string().trim().min(1).max(maximum)`. -/
def trimmedIssues (maximum : Nat) (t : Text) : List Issue :=
  check (decide (1 ≤ t.trim.length)) (.tooSmall 1)
    ++ check (decide (t.trim.length ≤ maximum)) (.tooBig maximum)

/-- `z.number().int().min(MIN_PROBLEM_CAP).max(MAX_PROBLEM_CAP)`. -/
def limitIssues (limit : Int) : List Issue :=
  check (decide (minProblemCap ≤ limit)) .capTooSmall
    ++ check (decide (limit ≤ maxProblemCap)) .capTooBig

namespace DirectorCommand

/-- What `DirectorCommandSchema` finds wrong. -/
def issues : DirectorCommand → List Issue
  | .assign fellowId problemId _ => fellowIdIssues fellowId ++ problemIdIssues problemId
  | .focus fellowId directive | .forbid fellowId directive =>
      fellowIdIssues fellowId ++ trimmedIssues maxDirectiveTextLength directive
  | .unfocus fellowId | .pause fellowId | .resume fellowId | .revoke fellowId =>
      fellowIdIssues fellowId
  | .transfer fellowId targetSponsorId =>
      fellowIdIssues fellowId ++ sponsorIdIssues targetSponsorId
  | .publish problemId => problemIdIssues problemId
  | .hide problemId reason => problemIdIssues problemId ++ trimmedIssues 1000 reason
  | .cap problemId limit => problemIdIssues problemId ++ limitIssues limit

def Valid (command : DirectorCommand) : Prop := command.issues = []

end DirectorCommand

/-! ## The runtime -/

/-- The lower case of a code unit, where an ASCII letter can come of it. A
letter it leaves as it is has its lower case outside ASCII, and no keyword
holds that. -/
def lowerUnit (u : UInt16) : Text :=
  if Text.isUpper u then [u + 32]
  else if u = 0x212a then [unit 'k']
  else if u = 0x130 then [unit 'i', 0x307]
  else [u]

/-- `text.toLowerCase()`. -/
def toLowerCase (t : Text) : Text := t.flatMap lowerUnit

/-- `text.trimStart()`. -/
def trimStart (t : Text) : Text := t.dropWhile Text.isSpace

/-- `trimmed.split(/\s+/)`: nothing stands before the first word of a
trimmed text, or after its last. -/
def splitSpaces (trimmed : Text) : List Text := Words.words Text.isSpace trimmed

end Asimposium.Director

/-!
## Reading and writing a director command

`parseDirectorCommand` and `formatDirectorCommand`, branch by branch. Verbs
that share a branch of the source share it here.
-/

namespace Asimposium.Director

inductive FailureCode where
  | emptyCommand
  | unknownDirectorVerb
  | invalidDirectorCommand
  | directiveTextOverLimit
  | invalidProblemCap
deriving DecidableEq

structure DirectorParseFailure where
  code : FailureCode
  message : Text
  verbs : List DirectorGrammarVerb := directorGrammarVerbs
  hint : Option Text
  limit : Option Nat := none
  actual : Option Nat := none
deriving DecidableEq

def invalid (message hint : Text) : DirectorParseFailure where
  code := .invalidDirectorCommand
  message := message
  hint := some hint

def afterTwo (trimmed : Text) (tokens : List Text) : Text :=
  let firstTokenLen := (tokens[0]?.map List.length).getD 0
  let secondTokenLen := (tokens[1]?.map List.length).getD 0
  let afterFirst := trimStart (trimmed.drop firstTokenLen)
  Text.trim (afterFirst.drop secondTokenLen)

/-! ## Reading -/

end Asimposium.Director
