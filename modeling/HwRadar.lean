import HwRadar.Base.Calendar
import HwRadar.Base.Run
import HwRadar.Base.Spans
import HwRadar.Base.Text
import HwRadar.Base.Stamp
import HwRadar.Apify.Settings
import HwRadar.Apify.BillingCycle
import HwRadar.Apify.Estimate
import HwRadar.Apify.Admission
import HwRadar.Apify.Rows
import HwRadar.Apify.Cycles
import HwRadar.Apify.Tally
import HwRadar.Apify.Latch
import HwRadar.Apify.Reserve
import HwRadar.Apify.Settlement
import HwRadar.Apify.Monitoring
import HwRadar.Apify.Handoff
import HwRadar.Apify.Starts
import HwRadar.Base.Tables
import HwRadar.Apify.Changes
import HwRadar.Apify.Cleanup
import HwRadar.Apify.Environment
import HwRadar.Apify.BudgetSafety
import HwRadar.Apify.StartRefusals
import HwRadar.Apify.Authority
import HwRadar.Base.Relay
import HwRadar.Apify.SingleAuthority
import HwRadar.Apify.Conservation
import HwRadar.Apify.Importing
import HwRadar.Apify.ImportOnce
import HwRadar.Apify.RunWrites
import HwRadar.Apify.WorkCompletion
import HwRadar.Apify.Tracking
import HwRadar.Ingest.Absence
import HwRadar.Ingest.Continuity
import HwRadar.Ingest.Convergence
import HwRadar.Ingest.Provenance
import HwRadar.Ingest.Deadlines
import HwRadar.Matching.Edges
import HwRadar.Matching.Resolve
import HwRadar.Base.Chain
import HwRadar.Matching.Calls
import HwRadar.Matching.Agreement
import HwRadar.Matching.Freshness
import HwRadar.Base.Decimal
import HwRadar.Eligibility.CatalogInputs
import HwRadar.Eligibility.Evaluate
import HwRadar.Eligibility.Refinement
import HwRadar.Eligibility.MatchSoundness
import HwRadar.Scheduling.Apply
import HwRadar.Scheduling.Health
import HwRadar.Retention.Redaction
import HwRadar.Retention.Refreshed
import HwRadar.Retention.Expiry
import HwRadar.Base.Upserts
import HwRadar.Refdata.Contracts
import HwRadar.Refdata.Persist
import HwRadar.Refdata.Statements
import HwRadar.Refdata.ImportContent
import HwRadar.Refdata.ImportOrder
import HwRadar.Browse.Pages
import HwRadar.Browse.Sweeps
import HwRadar.Browse.MultiScope
import HwRadar.Matching.Categories
import HwRadar.Matching.RunLadder
import HwRadar.Matching.Verdicts
import HwRadar.Matching.Polls
import HwRadar.Matching.Decisions
import HwRadar.Matching.OwnerAccepts
import HwRadar.Matching.AcceptanceHistory
import HwRadar.Matching.InvocationModes
import HwRadar.Apify.CycleTiling
import HwRadar.Apify.SettledAmounts
import HwRadar.Apify.Placement
import HwRadar.Apify.Continuation
import HwRadar.Base.Meter
import HwRadar.Base.Prepaid
import HwRadar.Apify.Counters
import HwRadar.Apify.Calls
import HwRadar.Apify.CallSafety
import HwRadar.Apify.CallBudget
import HwRadar.Scheduling.Buckets
import HwRadar.Scheduling.Pacing
import HwRadar.Apify.Contract
import HwRadar.Apify.RowAdmission
import HwRadar.Apify.Completeness
import HwRadar.Base.Keyed
import HwRadar.Eligibility.Binding
import HwRadar.Eligibility.BatchedBinding
import HwRadar.Eligibility.Requirements
import HwRadar.Eligibility.RequirementVersions
import HwRadar.Eligibility.ConcurrentSaves
import HwRadar.Apify.Collector
import HwRadar.Apify.HonestReports
import HwRadar.Matching.BrandEvidence
import HwRadar.Matching.HitOrder
import HwRadar.Matching.ReviewOnly
import HwRadar.Scheduling.Streaks
import HwRadar.Apify.RowBound
import HwRadar.Matching.Masking
import HwRadar.Matching.OfferTerms
import HwRadar.Matching.OfferConsistency
import HwRadar.Base.Words
import HwRadar.Matching.Canonical
import HwRadar.Matching.Idempotence
import HwRadar.Matching.VendorLock
import HwRadar.Base.PatternContext
import HwRadar.Matching.ReferenceSpans
import HwRadar.Matching.PhraseOpenings
import HwRadar.Matching.ClauseBoundaries
import HwRadar.Matching.JoinedText
import HwRadar.Matching.LabelProtection
import HwRadar.Heartbeat.Probe
import HwRadar.Heartbeat.Transitions
import HwRadar.Scheduling.Jobs
import HwRadar.Scheduling.Rescheduling
import HwRadar.Base.Put
import HwRadar.Eligibility.Repair
import HwRadar.Eligibility.Shortlist
import HwRadar.Base.Paging
import HwRadar.Apify.DatasetRead
import HwRadar.Apify.ImportProvider
