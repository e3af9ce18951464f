import Asimposium.Js
import Asimposium.Lib.ExceptRun

/-!
# The deletion journal

A deletion is journaled as a retention-control record: what was done to
which target, when, and a digest over those fields. The journal leaves
the database as lines: a header with the record count, one line a
record, and a trailer with the chain digest of the records and, when a
key is configured, a signature over the count, the digest and the time.

A line is carried as the value `JSON.stringify` writes and `JSON.parse`
reads back, so the checks on the text itself (line ends, blank lines,
JSON syntax) do not appear. An instant is carried in milliseconds;
`isoString` is its spelling. The digest of a record's canonical JSON,
SHA-256 and the Ed25519 operations are the platform's.
-/

namespace Asimposium.Retention

inductive RetentionControlAction
  | suspendSponsor
  | deletePrivateDraft
  | revokeCredential
  | cancelEnrollment
  | cancelTransfer
  | deleteAccountPrivateData
  | unbindPrivateCas
  deriving DecidableEq, Repr

inductive RetentionTargetType
  | sponsor
  | problem
  | credential
  | enrollment
  | transfer
  | userPrivateData
  | casArtifact
  deriving DecidableEq, Repr

end Asimposium.Retention
