import DesiredState.Api.Cluster
import DesiredState.Api.Discovery
import DesiredState.Api.Exchange
import DesiredState.Api.LiveObject
import DesiredState.Api.Target
import DesiredState.Applier
import DesiredState.Backoff
import DesiredState.CommandLine.Help
import DesiredState.CommandLine.Program
import DesiredState.CommandLine.Setting
import DesiredState.Error
import DesiredState.Json.Basic
import DesiredState.Json.Block
import DesiredState.Json.Decode
import DesiredState.Json.Difference
import DesiredState.Json.MergePatch
import DesiredState.Json.Overlay
import DesiredState.Json.Parser
import DesiredState.Json.Printer
import DesiredState.Json.Written
import DesiredState.Main
import DesiredState.Number.Basic
import DesiredState.Number.Binary64
import DesiredState.Number.Literal
import DesiredState.Number.Power
import DesiredState.Number.Shortest
import DesiredState.Number.Tracked
import DesiredState.Number.Word
import DesiredState.Object.Bookkeeping
import DesiredState.Object.Key
import DesiredState.Object.Kind
import DesiredState.Object.Manifest
import DesiredState.Object.Metadata
import DesiredState.Object.OwnerReference
import DesiredState.Object.ServedKind
import DesiredState.Object.Shape
import DesiredState.Owner
import DesiredState.Plan
import DesiredState.Proofs.Api.Courses
import DesiredState.Proofs.Api.Talk
import DesiredState.Proofs.Api.Visits
import DesiredState.Proofs.Applying.Calls
import DesiredState.Proofs.Applying.Changes
import DesiredState.Proofs.Applying.Convergence
import DesiredState.Proofs.Applying.Delivery
import DesiredState.Proofs.Applying.Drift
import DesiredState.Proofs.Applying.Effect
import DesiredState.Proofs.Applying.Made
import DesiredState.Proofs.Applying.Order
import DesiredState.Proofs.Applying.References
import DesiredState.Proofs.Applying.Repetition
import DesiredState.Proofs.Applying.Written
import DesiredState.Proofs.Arrivals
import DesiredState.Proofs.Backoff
import DesiredState.Proofs.Backoff.Doubling
import DesiredState.Proofs.Conditions
import DesiredState.Proofs.Conditions.History
import DesiredState.Proofs.Interleaving.Accounts
import DesiredState.Proofs.Interleaving.Dialogue
import DesiredState.Proofs.Interleaving.Exchanges
import DesiredState.Proofs.Interleaving.Pool
import DesiredState.Proofs.Interleaving.Retries
import DesiredState.Proofs.Interleaving.Sparing
import DesiredState.Proofs.Interleaving.StoredStatus
import DesiredState.Proofs.Interleaving.Transcripts
import DesiredState.Proofs.Interleaving.Updates
import DesiredState.Proofs.Json.Difference
import DesiredState.Proofs.Json.Difference.Balance
import DesiredState.Proofs.Json.Imposition
import DesiredState.Proofs.Json.Members
import DesiredState.Proofs.Json.MergePatch
import DesiredState.Proofs.Json.MergePatch.Paths
import DesiredState.Proofs.Json.Overlay
import DesiredState.Proofs.Json.Places
import DesiredState.Proofs.Object.Bookkeeping
import DesiredState.Proofs.Object.Bookkeeping.Projection
import DesiredState.Proofs.Object.Key
import DesiredState.Proofs.Object.Metadata
import DesiredState.Proofs.Object.OwnerReference
import DesiredState.Proofs.Object.Shape
import DesiredState.Proofs.Object.Stamps
import DesiredState.Proofs.Object.Texts
import DesiredState.Proofs.Owner
import DesiredState.Proofs.Plan
import DesiredState.Proofs.Quantity.Amount
import DesiredState.Proofs.Quantity.Overflow
import DesiredState.Proofs.Quantity.Spelling
import DesiredState.Proofs.Quantity.Steps
import DesiredState.Proofs.Readiness.Aggregate
import DesiredState.Proofs.Readiness.Generations
import DesiredState.Proofs.Readiness.Stamps
import DesiredState.Proofs.Readiness.StatefulSets
import DesiredState.Proofs.Readiness.Verdicts
import DesiredState.Proofs.Reconcile.Children
import DesiredState.Proofs.Reconcile.Completion
import DesiredState.Proofs.Reconcile.Conflicts
import DesiredState.Proofs.Reconcile.Course
import DesiredState.Proofs.Reconcile.Endings
import DesiredState.Proofs.Reconcile.Frames
import DesiredState.Proofs.Reconcile.Gathering
import DesiredState.Proofs.Reconcile.Guarantees
import DesiredState.Proofs.Reconcile.Passes
import DesiredState.Proofs.Reconcile.Phases
import DesiredState.Proofs.Reconcile.Quiescence
import DesiredState.Proofs.Reconcile.Reach
import DesiredState.Proofs.Reconcile.Reentry
import DesiredState.Proofs.Reconcile.Rest
import DesiredState.Proofs.Reconcile.Resumption
import DesiredState.Proofs.Reconcile.Rollout
import DesiredState.Proofs.Reconcile.Runs
import DesiredState.Proofs.Reconcile.Sequence
import DesiredState.Proofs.Reconcile.Soundness
import DesiredState.Proofs.Reconcile.Steps
import DesiredState.Proofs.Reconcile.Translation
import DesiredState.Proofs.Reconcile.Undisturbed
import DesiredState.Proofs.Reconcile.Withdrawal
import DesiredState.Proofs.ResourceSet
import DesiredState.Proofs.Status
import DesiredState.Proofs.Store.Failures
import DesiredState.Proofs.Store.History
import DesiredState.Proofs.Store.Memory
import DesiredState.Proofs.Store.Versions
import DesiredState.Proofs.Tenant.Convergence
import DesiredState.Proofs.Tenant.Gate
import DesiredState.Proofs.Tenant.Grants
import DesiredState.Proofs.Tenant.Wanted
import DesiredState.Quantity
import DesiredState.Readiness.PodShape
import DesiredState.Readiness.Rulebook
import DesiredState.Readiness.Rules
import DesiredState.Readiness.Shapes
import DesiredState.Reconcile.Children
import DesiredState.Reconcile.Engine
import DesiredState.Reconcile.Phase
import DesiredState.Reconcile.Reconciler
import DesiredState.ResourceSet
import DesiredState.SortedMap
import DesiredState.Status
import DesiredState.Store.Basic
import DesiredState.Store.Memory
import DesiredState.Tenant.Basic
import DesiredState.Tenant.Budget
import DesiredState.Tenant.Children
import DesiredState.Tenant.Definition
import DesiredState.Text.Base64
import DesiredState.Text.Blank
import DesiredState.Text.Plain
import DesiredState.Text.Quoted
import DesiredState.Text.Visible
import DesiredState.Time.Civil
import DesiredState.Time.Duration
import DesiredState.Time.Timestamp
