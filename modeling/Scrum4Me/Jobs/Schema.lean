import Scrum4Me.Dispatch.Schema

/-!
# Ordinary jobs

The columns of `claude_jobs` and of the tables around it, as far as claiming,
reporting and cancelling ordinary jobs reads or writes them. Identifiers are
texts, moments are milliseconds.
-/

namespace Scrum4Me
namespace Jobs

abbrev Moment := Nat

abbrev Uuid := Dispatch.Uuid

/-- `ClaudeJobStatus`. -/
inductive JobStatus
  | queued | claimed | running | done | failed | cancelled | skipped
  deriving DecidableEq

/-- `['QUEUED', 'CLAIMED', 'RUNNING'].includes(status)`. -/
def JobStatus.Active (status : JobStatus) : Prop :=
  status = .queued ∨ status = .claimed ∨ status = .running

instance (status : JobStatus) : Decidable status.Active :=
  inferInstanceAs (Decidable (_ ∨ _ ∨ _))

/-- `['CLAIMED', 'RUNNING'].includes(status)`. -/
def JobStatus.Held (status : JobStatus) : Prop :=
  status = .claimed ∨ status = .running

instance (status : JobStatus) : Decidable status.Held :=
  inferInstanceAs (Decidable (_ ∨ _))

/-- `DONE`, `FAILED`, `CANCELLED` or `SKIPPED`. -/
def JobStatus.Terminal (status : JobStatus) : Prop := ¬ status.Active

instance (status : JobStatus) : Decidable status.Terminal :=
  inferInstanceAs (Decidable (¬ _))

theorem JobStatus.Held.active {status : JobStatus} (held : status.Held) : status.Active :=
  .inr held

/-- `ClaudeJobKind`. -/
inductive JobKind
  | taskImplementation | ideaGrill | ideaMakePlan | ideaReviewPlan
  | ideaMakeSpec | ideaReviseSpec | ideaChat | planChat | sprintImplementation
  | prReview | specReview | taskReview | deploy | docsAudit | queueTask
  | queueReview | agentChat
  deriving DecidableEq

def JobKind.text : JobKind → String
  | .taskImplementation => "TASK_IMPLEMENTATION"
  | .ideaGrill => "IDEA_GRILL"
  | .ideaMakePlan => "IDEA_MAKE_PLAN"
  | .ideaReviewPlan => "IDEA_REVIEW_PLAN"
  | .ideaMakeSpec => "IDEA_MAKE_SPEC"
  | .ideaReviseSpec => "IDEA_REVISE_SPEC"
  | .ideaChat => "IDEA_CHAT"
  | .planChat => "PLAN_CHAT"
  | .sprintImplementation => "SPRINT_IMPLEMENTATION"
  | .prReview => "PR_REVIEW"
  | .specReview => "SPEC_REVIEW"
  | .taskReview => "TASK_REVIEW"
  | .deploy => "DEPLOY"
  | .docsAudit => "DOCS_AUDIT"
  | .queueTask => "QUEUE_TASK"
  | .queueReview => "QUEUE_REVIEW"
  | .agentChat => "AGENT_CHAT"

/-- `JobSource`. -/
inductive JobSource
  | system | manual | orchestrator | copilot
  deriving DecidableEq

/-- `AgentRuntime`. -/
inductive AgentRuntime
  | claude | codex | harness
  deriving DecidableEq

def AgentRuntime.text : AgentRuntime → String
  | .claude => "CLAUDE"
  | .codex => "CODEX"
  | .harness => "HARNESS"

theorem AgentRuntime.text_inj (first second : AgentRuntime) :
    first.text = second.text ↔ first = second := by
  cases first <;> cases second <;> decide

/-- `SprintRunStatus`. -/
inductive SprintRunStatus
  | queued | running | paused | done | failed | cancelled
  deriving DecidableEq

/-- `WorkerCapability`. -/
abbrev Tier := Dispatch.Tier

/-- `claude_jobs`: what makes a job claimable and for whom, who holds it, and
what came of it. -/
structure JobRow where
  id : String
  userId : String
  productId : String
  taskId : Option String
  ideaId : Option String
  sprintRunId : Option String
  sprintSequence : Option Int
  kind : JobKind
  status : JobStatus
  runtime : AgentRuntime
  source : JobSource
  requiredCapability : Option String
  workerInstanceId : Option String
  dispatchRequestId : Option Uuid
  dispatchCandidateId : Option Uuid
  createdAt : Moment
  claimedByTokenId : Option String := none
  claimedAt : Option Moment := none
  startedAt : Option Moment := none
  finishedAt : Option Moment := none
  leaseUntil : Option Moment := none
  retryCount : Nat := 0
  planSnapshot : Option String := none
  chatCutoffMessageId : Option String := none
  chatCutoffAt : Option Moment := none
  branch : Option String := none
  pushedAt : Option Moment := none
  prUrl : Option String := none
  headSha : Option String := none
  summary : Option String := none
  error : Option String := none
  resolvedAt : Option Moment := none
  deriving DecidableEq

/-- A job that `assertUnmanagedJob` lets pass. -/
def JobRow.Unmanaged (row : JobRow) : Prop :=
  row.dispatchRequestId = none ∧ row.dispatchCandidateId = none

instance (row : JobRow) : Decidable row.Unmanaged :=
  inferInstanceAs (Decidable (_ ∧ _))

structure SprintRunRow where
  id : String
  sprintId : String
  status : SprintRunStatus
  deriving DecidableEq

/-- `claude_workers`. -/
structure WorkerRow where
  userId : String
  tokenId : String
  instanceId : String
  productId : Option String
  runtime : AgentRuntime
  capabilities : List String
  lastSeenAt : Moment
  lastQuotaPct : Option Int
  tier : Option Tier
  deriving DecidableEq

structure UserRow where
  id : String
  minQuotaPct : Int
  deriving DecidableEq

end Jobs
end Scrum4Me
