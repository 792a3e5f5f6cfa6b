import ControlPlane.Lib.Regex
import ControlPlane.Lib.Unicode
import ControlPlane.Lib.Json
import ControlPlane.Lib.Runtime
import ControlPlane.Evidence.Redaction
import ControlPlane.Lib.Transaction
import ControlPlane.Lib.Table
import ControlPlane.Lib.System
import ControlPlane.Domain
import ControlPlane.Lib.Calendar
import ControlPlane.Evidence.Ledger
import ControlPlane.Task.StateMachine
import ControlPlane.Lib.History
import ControlPlane.Task.Lifecycle
import ControlPlane.Lib.FencedLease
import ControlPlane.Jobs.Command
import ControlPlane.Jobs.Lease
import ControlPlane.Jobs.Progress
import ControlPlane.Jobs.Outage
import ControlPlane.Jobs.Fence
import ControlPlane.Jobs.Writes
import ControlPlane.Jobs.System
import ControlPlane.Jobs.Fencing
import ControlPlane.Lib.AtMostOnce
import ControlPlane.Jobs.Effects
import ControlPlane.Jobs.Generations
import ControlPlane.Lib.Dict
import ControlPlane.GitHub.Update
import ControlPlane.GitHub.Webhooks
import ControlPlane.GitHub.History
import ControlPlane.GitHub.Records
import ControlPlane.Readiness.Facts
import ControlPlane.Readiness.Head
import ControlPlane.Evidence.Transparency
import ControlPlane.Evidence.Rewriting
import ControlPlane.GitHub.Transparency
import ControlPlane.Readiness.Verdicts
import ControlPlane.Readiness.Layout
import ControlPlane.Readiness.Reviews
import ControlPlane.Lib.Register
import ControlPlane.Readiness.Convergence
import ControlPlane.Readiness.DraftProof
import ControlPlane.Readiness.Assessment
import ControlPlane.Readiness.Soundness
import ControlPlane.Lib.Inbox
import ControlPlane.GitHub.Intake
import ControlPlane.Hermes.Runs
import ControlPlane.Hermes.System
import ControlPlane.Hermes.Grants
import ControlPlane.Hermes.Events
import ControlPlane.Tools.Scope
import ControlPlane.Tools.Execution
import ControlPlane.Tools.System
import ControlPlane.Tools.Refused
import ControlPlane.Tools.Replay
import ControlPlane.HostAgent.Protocol
import ControlPlane.HostAgent.Journal
import ControlPlane.HostAgent.Runs
import ControlPlane.Briefing.Policy
import ControlPlane.Briefing.Reach
import ControlPlane.HostAgent.Dispatch
import ControlPlane.HostAgent.Effects
import ControlPlane.Lib.Attempts
import ControlPlane.Jobs.Budget
import ControlPlane.Jobs.Attempts
import ControlPlane.Jobs.Accounting
import ControlPlane.Readiness.Cockpit
import ControlPlane.Approvals.Request
import ControlPlane.Approvals.Decision
import ControlPlane.Approvals.Runs
import ControlPlane.Approvals.Settled
import ControlPlane.Approvals.Promotion
import ControlPlane.Approvals.Opening
import ControlPlane.Approvals.Pausing
import ControlPlane.Task.Commands
import ControlPlane.Jobs.Checkpoints
import ControlPlane.HostAgent.Gateway
import ControlPlane.Approvals.Interrupted
import ControlPlane.Approvals.Escalation
import ControlPlane.Readiness.Storage
import ControlPlane.Approvals.RetryHistory
import ControlPlane.Jobs.LateResults
import ControlPlane.Jobs.Recovery
import ControlPlane.Configuration.Boundaries
import ControlPlane.HostAgent.OpenStep
import ControlPlane.HostAgent.Preflight
import ControlPlane.Lib.Deletion
import ControlPlane.Lib.Cursor
import ControlPlane.HostAgent.Processes
import ControlPlane.HostAgent.Ownership
import ControlPlane.HostAgent.GroupTermination
import ControlPlane.Authentication.Sessions
import ControlPlane.Authentication.Tokens
import ControlPlane.Authentication.Runs
import ControlPlane.Task.EventStream
import ControlPlane.Task.EventDelivery
import ControlPlane.Lib.Dialogue
import ControlPlane.GitHub.Credentials
import ControlPlane.GitHub.Revocation
import ControlPlane.GitHub.Accounting
import ControlPlane.Validation.Results
import ControlPlane.Validation.Delivery
import ControlPlane.Retrieval.Atomicity
import ControlPlane.Retrieval.Chunks
import ControlPlane.Retrieval.Rebuild
import ControlPlane.Retrieval.Refresh
import ControlPlane.Evaluation.Contracts
import ControlPlane.Authentication.Throttle
import ControlPlane.HostAgent.Renderings
import ControlPlane.Lib.Pages
import ControlPlane.Evidence.Projections
import ControlPlane.Validation.AssertionContract
import ControlPlane.Evidence.Provenance
import ControlPlane.Lib.Backlog
import ControlPlane.Lib.Encoding
import ControlPlane.Evidence.Deletion
import ControlPlane.Evidence.Corrections
import ControlPlane.HostAgent.CandidateCommit
import ControlPlane.Validation.EvidenceCollection
import ControlPlane.Validation.FailureFingerprint
import ControlPlane.Configuration.Versions
import ControlPlane.Approvals.ReviewRepair
import ControlPlane.Jobs.BoundedEvidence
import ControlPlane.Approvals.Expiry
import ControlPlane.Lib.Interleaving
import ControlPlane.Artifacts.Store
import ControlPlane.Artifacts.Soundness
import ControlPlane.Artifacts.Durability
import ControlPlane.Lib.Placement
import ControlPlane.Policies.Store
import ControlPlane.Policies.Lineage
import ControlPlane.Policies.Rollback
import ControlPlane.Repairs.Schedule
import ControlPlane.Repairs.Inputs
import ControlPlane.Repairs.Planning
import ControlPlane.Repairs.Repeats
