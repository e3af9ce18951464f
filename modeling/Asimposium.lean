import Asimposium.Lib.Shortlex
import Asimposium.Lib.BreadthFirst
import Asimposium.Lib.GuardedSearch
import Asimposium.Lib.ExceptRun
import Asimposium.Ledger.VersionIsolation
import Asimposium.Ledger.SupportAccounting
import Asimposium.Ledger.EarnedDisposition
import Asimposium.Ledger.SupportOrder
import Asimposium.Ledger.DependencyCeiling
import Asimposium.Ledger.CeilingGraph
import Asimposium.Ledger.CeilingExact
import Asimposium.Ledger.CeilingLaws
import Asimposium.Ledger.DependencyClosure
import Asimposium.Ledger.ClosureCircularity
import Asimposium.Ledger.WithdrawalEffects
import Asimposium.Ledger.ScientificDisposition
import Asimposium.Ledger.WithheldFold
import Asimposium.Ledger.AssessmentLaws
import Asimposium.Render.MarkdownReader
import Asimposium.Render.PackMonotone
import Asimposium.Render.PackPublic
import Asimposium.Krater.Tables
import Asimposium.Lib.HashChain
import Asimposium.Krater.ChainHead
import Asimposium.Krater.ChainRuns
import Asimposium.Herald.RoomRuns
import Asimposium.Krater.CanonicalText
import Asimposium.Krater.Export
import Asimposium.Krater.ExportLaws
import Asimposium.Krater.ExportRecords
import Asimposium.Krater.SegmentChain
import Asimposium.Krater.TamperEvidence
import Asimposium.Herald.Room
import Asimposium.Hypotheses.Lifecycle
import Asimposium.Hypotheses.Runs
import Asimposium.Hypotheses.Trails
import Asimposium.Js
import Asimposium.Krater.Commits
import Asimposium.Krater.Writers
import Asimposium.Ledger.DependencyAssessment
import Asimposium.Ledger.DispositionAbsorbing
import Asimposium.Ledger.DispositionAudit
import Asimposium.Ledger.DispositionRead
import Asimposium.Ledger.Dispositions
import Asimposium.Ledger.Payload
import Asimposium.Ledger.ScientificChecks
import Asimposium.Ledger.WithheldReadings
import Asimposium.Ledger.WithheldRows
import Asimposium.Lib.Numerals
import Asimposium.Lib.Settle
import Asimposium.Lib.Significand
import Asimposium.Lib.Worklist
import Asimposium.Render.Canonical
import Asimposium.Render.Contracts
import Asimposium.Render.ControlComments
import Asimposium.Render.Json
import Asimposium.Render.Markdown
import Asimposium.Render.MarkdownDelimiters
import Asimposium.Render.Neutralize
import Asimposium.Render.PackAgreement
import Asimposium.Render.PackAssertions
import Asimposium.Render.PackBudget
import Asimposium.Render.PackComposer
import Asimposium.Render.PackDraft
import Asimposium.Render.PackEstimate
import Asimposium.Render.PackFace
import Asimposium.Render.PackInput
import Asimposium.Render.PackPrefix
import Asimposium.Render.PackRenderable
import Asimposium.Render.PackSelection
import Asimposium.Render.PlainJson
import Asimposium.Render.Prepare
import Asimposium.Render.PrepareLaws
import Asimposium.Render.Projection
import Asimposium.Render.Sanitize
import Asimposium.Render.Text
import Asimposium.Retention.Journal
import Asimposium.Envelopes.Envelope
import Asimposium.Envelopes.Nonces
import Asimposium.Envelopes.Runs
import Asimposium.Envelopes.SingleUse
import Asimposium.Ledger.ReviewStateFacet
import Asimposium.Lib.SlidingWindow
import Asimposium.Quota.Store
import Asimposium.Quota.Runs
import Asimposium.Lib.Words
import Asimposium.Director.Grammar
import Asimposium.Director.Lines
import Asimposium.Director.RoundTrip
import Asimposium.Artifacts.Fields
import Asimposium.Artifacts.Tar
import Asimposium.Lib.Paths
import Asimposium.Artifacts.Archive
import Asimposium.Artifacts.Unambiguous
import Asimposium.Krater.Batch
import Asimposium.Lib.Kahn
import Asimposium.Citations.Locator
import Asimposium.Citations.Stable
import Asimposium.Citations.Identity
import Asimposium.Krater.ExportSignatures
import Asimposium.Krater.ExportAuthenticity
import Asimposium.Codec.Number
import Asimposium.Codec.Value
import Asimposium.Codec.Reading
import Asimposium.Codec.Canonical
import Asimposium.Codec.Utf8
import Asimposium.Retention.JournalText
import Asimposium.Codec.Parsed
import Asimposium.Retention.JournalAuthentic
import Asimposium.Retention.JournalReading
import Asimposium.Lib.Regex
import Asimposium.Screening.CredentialScan
import Asimposium.Screening.JsonStrings
import Asimposium.Screening.Spelling
import Asimposium.Screening.Locations
import Asimposium.Staging.Rows
import Asimposium.Staging.Holds
import Asimposium.Staging.Safety
import Asimposium.Lib.Grouping
import Asimposium.Screening.Aggregate
import Asimposium.Lib.UniqueKey
import Asimposium.Screening.AggregateLaws
import Asimposium.Screening.AggregateVerdict
import Asimposium.Enrollment.Authorization
import Asimposium.Enrollment.Narrowing
import Asimposium.Lib.PrefixFree
import Asimposium.Envelopes.Framing
import Asimposium.Lib.Trace
import Asimposium.Sessions.IdleSweep
import Asimposium.Sessions.IdleSafety
import Asimposium.Posture.Refusals
import Asimposium.Ledger.EventTail
import Asimposium.Lib.Paging
import Asimposium.Ledger.EventTailPages
import Asimposium.Quota.RetryAfter
import Asimposium.Search.Continuation
import Asimposium.Search.Page
import Asimposium.Search.Consistency
import Asimposium.Lib.Squeeze
import Asimposium.Split.Normalize
import Asimposium.Split.Spans
import Asimposium.Split.Spacing
import Asimposium.Lib.Radix
import Asimposium.Split.Ulid
import Asimposium.Enrollment.Codecs
import Asimposium.Directives.Omissions
import Asimposium.Render.PackOmissions
import Asimposium.Directives.ActivePage
import Asimposium.Directives.Contract
import Asimposium.Directives.Walks
import Asimposium.Directives.Complete
import Asimposium.Hypotheses.Listing
import Asimposium.Hypotheses.Damage
import Asimposium.Hypotheses.Continuation
import Asimposium.Lib.RecursiveTable
import Asimposium.Krater.PublicContent
import Asimposium.Ledger.EvidenceGrounding
import Asimposium.Ledger.GroundingExact
import Asimposium.Lib.Related
import Asimposium.Ledger.EvidenceGraph
import Asimposium.Lib.Bits32
import Asimposium.Lib.Fips180
import Asimposium.Protocol.Sha256
import Asimposium.Protocol.Sha256Exact
import Asimposium.Protocol.Utf8Exact
import Asimposium.Ledger.RetryScience
import Asimposium.Ledger.RetryPages
import Asimposium.Ledger.RetryDiscovery
import Asimposium.Enrollment.PollPacing
import Asimposium.Krater.ChainGrowth
import Asimposium.Krater.LedgerBatch
