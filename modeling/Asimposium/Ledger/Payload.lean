import Asimposium.Js

/-!
# Public content

Every event carries the digest of its payload; a reader only trusts a
payload whose bytes still have that digest. The hash, `JSON.parse` and
the schema library are not code of this repository: a `PayloadReader`
stands for them. What it returns of a payload are the fields the ledger
code reads, each already narrowed the way the code narrows it (`none`
where the value is absent or has another type; `Parsed` where the code
also tells an absent value from one its schema refuses).
-/

namespace Asimposium

/-- `^C-[0-9]+$`. -/
def isClaimId (id : String) : Bool :=
  match id.toList with
  | 'C' :: '-' :: digit :: rest => (digit :: rest).all Char.isDigit
  | _ => false

/-- `PublicClaimTargetSchema`: `^C-[0-9]{1,45}(?:@[1-9][0-9]{0,15})?$` with
a safe version. -/
def isPublicClaimTarget (target : String) : Bool :=
  match target.toList with
  | 'C' :: '-' :: rest =>
      let digits := rest.takeWhile Char.isDigit
      1 ≤ digits.length && digits.length ≤ 45
        && (match rest.dropWhile Char.isDigit with
          | [] => true
          | '@' :: first :: more =>
              first ≠ '0' && (first :: more).all Char.isDigit && more.length ≤ 15
                && isSafeInteger (digitsValue (first :: more))
          | _ => false)
  | _ => false

inductive EventType where
  | claimCreated
  | claimRevised
  | reviewCreated
  | evidenceCreated
  | objectRetracted
  | other
deriving Repr, DecidableEq

/-- `ClaimDependencyPinSchema`: one premise as it was published. -/
structure ClaimDependencyPin where
  claimId : String
  version : Int
  contentDigest : String
  eventId : String
  payloadDigest : String
  shape : isClaimId claimId = true
deriving DecidableEq

/-- The exact target `${claim_id}@${version}`. -/
def exactVersion (claimId : String) (version : Int) : String :=
  claimId ++ "@" ++ toString version

def ClaimDependencyPin.target (pin : ClaimDependencyPin) : String :=
  exactVersion pin.claimId pin.version

inductive Parsed (α : Type) where
  | absent
  | invalid
  | valid (value : α)
deriving Repr, DecidableEq

/-- `parsed.success ? parsed.data : null`. -/
def Parsed.toOption {α : Type} : Parsed α → Option α
  | valid value => some value
  | _ => none

/-! ## Records under a schema -/

/-- `ScientificEvidenceReferenceSchema`. -/
structure ScientificEvidenceReference where
  evidenceId : String
  digest : String
deriving Repr, DecidableEq

/-- `method` of `ScientificProvenanceSchema`, the part a fold reads. -/
structure ScientificMethod where
  evidence : List ScientificEvidenceReference
deriving Repr, DecidableEq

structure ScientificProvenance where
  method : Option ScientificMethod
deriving Repr, DecidableEq

/-- `provenance.method?.evidence ?? []`. -/
def ScientificProvenance.methodEvidence (provenance : ScientificProvenance) :
    List ScientificEvidenceReference :=
  match provenance.method with
  | some method => method.evidence
  | none => []

inductive CheckResult where
  | survived
  | fired
deriving Repr, DecidableEq

/-- `GroundedFalsificationCheckSchema`. -/
structure GroundedFalsificationCheck where
  targetDigest : String
  attemptedFalsifier : String
  capableOfFailure : String
  result : CheckResult
  evidence : List ScientificEvidenceReference
deriving Repr, DecidableEq

/-- `FormalArtifactSchema`. -/
structure FormalArtifact where
  declaration : String
  source : String
  toolchain : String
  axiomReport : String
deriving Repr, DecidableEq

inductive CheckVerdict where
  | verified
  | mismatch
  | cannotVerify
deriving Repr, DecidableEq

inductive CompilationResult where
  | success
  | failure
deriving Repr, DecidableEq

inductive ComparisonResult where
  | equivalent
  | mismatch
  | unresolved
deriving Repr, DecidableEq

inductive VerificationKind where
  | refutation (result : CheckVerdict)
  | fullWriteUp (result : CheckVerdict)
  | formalArtifact (artifactDigest compilationToolchain : String)
      (compilation : CompilationResult) (comparedDeclaration comparedStatement : String)
      (comparison : ComparisonResult)
deriving Repr, DecidableEq

/-- `ScientificVerificationSchema`. -/
structure ScientificVerification where
  targetDigest : String
  evidence : ScientificEvidenceReference
  kind : VerificationKind
deriving Repr, DecidableEq

/-- `ConcessionSourceSchema`. -/
structure ConcessionSource where
  eventId : String
  digest : String
  fellowId : String
  sponsorId : String
deriving Repr, DecidableEq

/-- `AuthorConcessionPublicationSchema`. -/
structure AuthorConcessionPublication where
  targetVersion : Int
  targetDigest : String
  evidence : ScientificEvidenceReference
  claimSource : ConcessionSource
  evidenceSource : ConcessionSource
deriving Repr, DecidableEq

inductive NoveltyVerdict where
  | new
  | reformulation
  | specialCase
  | rediscovery
  | unresolved
deriving Repr, DecidableEq

/-! ## The payload -/

structure Payload where
  claimId : Option String := none
  statement : Option String := none
  falsifier : Option String := none
  kind : Option String := none
  /-- `String(payload.kind)`. -/
  kindText : String := kind.getD "undefined"
  baseVersion : Option Int := none
  /-- `ClaimDependencyPinsSchema`; a `null` is refused. -/
  dependencyPins : Parsed (List ClaimDependencyPin) := .absent
  /-- The entries of a list of relations that are strings. -/
  relatesTo : Option (List (Option String)) := none
  scientificProvenance : Parsed ScientificProvenance := .absent
  falsificationCheck : Parsed GroundedFalsificationCheck := .absent
  verification : Parsed ScientificVerification := .absent
  /-- A `null` is refused. -/
  concession : Parsed AuthorConcessionPublication := .absent
  formalArtifact : Option FormalArtifact := none
  /-- The verdict of a novelty review its schema accepts. -/
  novelty : Option NoveltyVerdict := none
  targetClaimId : Option String := none
  targetVersion : Option Int := none
  verdict : Option String := none
  capableOfFailure : Option String := none
  /-- The entries of a rubric that are strings. -/
  rubric : Option (List String) := none
  independencePolicy : Option String := none
  tier : Option String := none
  bearsOnKind : Option String := none
  bearsOnId : Option String := none
  bearsOnVersion : Option Int := none
  direction : Option String := none
  bodyMd : Option String := none
  mode : Option String := none
  computedClass : Option String := none
  /-- Neither `null` nor `undefined`. -/
  selectedHypothesis : Bool := false
  targetObject : Option String := none
  targetEventId : Option String := none
  targetKind : Option String := none
  targetDigest : Option String := none
  claimVersion : Option Int := none
deriving DecidableEq

/-- The hash of the payload bytes, in hexadecimal, and the parser. `parse`
is `none` on anything but a JSON object. -/
structure PayloadReader where
  sha256 : String → String
  parse : String → Option Payload

/-! ## Identities of targets -/

/-- `step.split("@")[0]`. -/
def identityOf (target : String) : String :=
  String.ofList (target.toList.takeWhile (· ≠ '@'))

theorem isClaimId_no_at {id : String} (h : isClaimId id = true) : '@' ∉ id.toList := by
  intro hmem
  unfold isClaimId at h
  split at h
  · rename_i digit rest hlist
    rw [hlist] at hmem
    rcases List.mem_cons.mp hmem with hc | hmem
    · exact absurd hc (by decide)
    rcases List.mem_cons.mp hmem with hc | hmem
    · exact absurd hc (by decide)
    exact absurd (List.all_eq_true.mp h '@' hmem) (by decide)
  · cases h

theorem identityOf_exactVersion {id : String} (h : isClaimId id = true) (version : Int) :
    identityOf (exactVersion id version) = id := by
  have hall : ∀ c ∈ id.toList, decide (c ≠ '@') = true := by
    intro c hc
    rw [decide_eq_true_eq]
    rintro rfl
    exact isClaimId_no_at h hc
  have hlist : (exactVersion id version).toList = id.toList ++ '@' :: (toString version).toList := by
    simp [exactVersion]
  rw [identityOf, hlist, List.takeWhile_append_of_pos hall]
  simp

end Asimposium
