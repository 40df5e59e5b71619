import Scrum4Me.Issues.Traces
import Scrum4Me.Issues.Mirrored
import Scrum4Me.Ppe.AppliedOnce
import Scrum4Me.Guarantees.Claims
import Scrum4Me.Jobs.ClaimContract
import Scrum4Me.Jobs.Epochs
import Scrum4Me.Jobs.BulkCancels
import Scrum4Me.Tasks.OneExecutor
import Scrum4Me.Chats.Answers
import Scrum4Me.IdeaChats.Answers
import Scrum4Me.Reviews.Bounds
import Scrum4Me.Reviews.Pipeline
import Scrum4Me.Reviews.Unbroken
import Scrum4Me.Hierarchy.Agreement
import Scrum4Me.Queue.Finishing
import Scrum4Me.Queue.Leases
import Scrum4Me.Queue.ArchivedWhole
import Scrum4Me.Ppe.Fencing
import Scrum4Me.Sprints.Coverage
import Scrum4Me.Usage.Recorded
import Scrum4Me.Deploys.Blockade
import Scrum4Me.Projector.Retention
import Scrum4Me.Guarantees.Poison
import Scrum4Me.Locks.Followed
import Scrum4Me.Service.OneTick
import Scrum4Me.Service.Sessions
import Scrum4Me.Guarantees.Rotation
import Scrum4Me.Guarantees.PublishedOnce
import Scrum4Me.Guarantees.Administration
import Scrum4Me.Service.Isolation
import Scrum4Me.Dispatch.Waiting
import Scrum4Me.Guarantees.Examined
import Scrum4Me.Guarantees.Evidence
import Scrum4Me.Jobs.Executors
import Scrum4Me.Jobs.Selected
import Scrum4Me.Guarantees.CanonicalText
import Scrum4Me.Jobs.Unblocked
import Scrum4Me.Hierarchy.Sprints
import Scrum4Me.Hierarchy.Managed
import Scrum4Me.Hierarchy.FinishedSprints
import Scrum4Me.Projector.Convergence
import Scrum4Me.Projector.Finished
import Scrum4Me.Usage.Counted
import Scrum4Me.Ppe.StoredReceipts
import Scrum4Me.Release.StrictArchives
import Scrum4Me.Verify.Coverage
import Scrum4Me.Verify.Gate
import Scrum4Me.LinkedPlans.Accounts
import Scrum4Me.Hierarchy.FailedJobs
import Scrum4Me.Chats.ReportedCost
import Scrum4Me.Dispatch.Preflight
import Scrum4Me.ProductDocs.Related
