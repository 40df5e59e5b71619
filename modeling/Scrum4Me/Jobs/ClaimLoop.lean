import Scrum4Me.Jobs.JobContext
import Scrum4Me.Foundation.Batches
import Scrum4Me.Foundation.HeadOfLine

/-!
# One worker and its queue

A worker claims the oldest job that it may claim, asks for the context, and claims
again. No other worker and no sweep touches the jobs.
-/

namespace Scrum4Me
namespace Jobs

open Foundation

/-- The jobs and the sprint runs. -/
structure Backlog where
  jobs : List JobRow
  runs : List SprintRunRow

/-- `ORDER BY created_at, COALESCE(sprint_sequence, 2147483647), id`. -/
def JobRow.claimKey (job : JobRow) : Moment ×ₗ Int ×ₗ String :=
  toLex (job.createdAt, toLex (job.sprintSequence.getD 2147483647, job.id))

namespace Backlog

/-- What a claim query reads; the worker is the only one. -/
def tables (backlog : Backlog) (worker : WorkerRow) (now : Moment) : WorkerTables where
  jobs := backlog.jobs
  incarnations := []
  profiles := []
  workers := [worker]
  users := []
  now := now

/-- `LEFT JOIN sprint_runs`. -/
def runOf (backlog : Backlog) (job : JobRow) : Option SprintRunRow :=
  backlog.runs.find? fun run => some run.id = job.sprintRunId

/-- The claim query selects the job. -/
def Claimable (backlog : Backlog) (worker : WorkerRow) (now : Moment) (job : JobRow) : Prop :=
  ¬ managedPollScope worker.instanceId ∧
    worker.claimQuery (backlog.tables worker now) ⟨job, backlog.runOf job, none⟩ = .holds

instance (backlog : Backlog) (worker : WorkerRow) (now : Moment) (job : JobRow) :
    Decidable (backlog.Claimable worker now job) :=
  inferInstanceAs (Decidable (_ ∧ _))

/-- The jobs that the query selects, in its order. -/
def claimable (backlog : Backlog) (worker : WorkerRow) (now : Moment) : List JobRow :=
  (oldestFirst JobRow.claimKey backlog.jobs).filter fun job =>
    backlog.Claimable worker now job

/-- A job is rewritten. -/
def update (backlog : Backlog) (job : JobRow) : Backlog :=
  { backlog with
    jobs := backlog.jobs.map fun other => if other.id = job.id then job else other }

/-- The run of a job gets another status. -/
def setRun (backlog : Backlog) (job : JobRow) (status : SprintRunStatus → SprintRunStatus) :
    Backlog :=
  { backlog with
    runs := backlog.runs.map fun run =>
      if some run.id = job.sprintRunId then { run with status := status run.status }
      else run }

end Backlog

/-- `SET status = 'RUNNING' … WHERE status = 'QUEUED'`. -/
def SprintRunStatus.begun (status : SprintRunStatus) : SprintRunStatus :=
  if status = .queued then .running else status

/-- The owner under which the worker claims. -/
def WorkerRow.owner (worker : WorkerRow) : Owner where
  tokenId := worker.tokenId
  instanceId := worker.instanceId

section Turns

variable (around : Surroundings) (worker : WorkerRow)

/-- The row that `tryClaimJob` writes. -/
def claimedRow (backlog : Backlog) (now : Moment) (job : JobRow) : JobRow :=
  (Statement.tryClaimJob job.id worker (backlog.tables worker now) (backlog.runOf job)
    (around.plan job.id) (around.cutoff job.id) now).apply job

/-- `tryClaimJob`: the first job that the query selects, `LIMIT 1`. -/
def tryClaimJob (backlog : Backlog) (now : Moment) : Backlog × Option JobRow :=
  (backlog.claimable worker now).head?.elim (backlog, none) fun job =>
    let claimed := claimedRow around worker backlog now job
    ((backlog.update claimed).setRun job SprintRunStatus.begun, some claimed)

/-- `markJobTerminallyFailed`: the run of a sprint job fails too. -/
def markJobTerminallyFailed (backlog : Backlog) (now : Moment) (job : JobRow) (reason : String) :
    Backlog :=
  let failed := backlog.update ((Statement.markJobTerminallyFailed job.id reason now).apply job)
  if job.kind = .sprintImplementation then failed.setRun job fun _ => .failed else failed

/-- What `wait_for_job` does with the answer. -/
def settle (backlog : Backlog) (now : Moment) (handled : Handled) : Backlog :=
  match handled.2 with
  | .terminal reason =>
      markJobTerminallyFailed (backlog.update handled.1) now handled.1 reason
  | _ => backlog.update handled.1

/-- One turn: `tryClaimJob`, then `getFullJobContext` for the job claimed. -/
def claimTurn (backlog : Backlog) (now : Moment) : Backlog × Option (String × Answer) :=
  let claim := tryClaimJob around worker backlog now
  claim.2.elim (claim.1, none) fun job =>
    let handled :=
      getFullJobContext around claim.1.runs worker.runtime worker.owner now job
    (settle claim.1 now handled, some (job.id, handled.2))

/-- The turns at these moments. -/
def claimTurns (backlog : Backlog) : List Moment → Backlog
  | [] => backlog
  | now :: moments => claimTurns (claimTurn around worker backlog now).1 moments

/-- What was claimed at these moments, and with which answer. -/
def claims (backlog : Backlog) : List Moment → List (String × Answer)
  | [] => []
  | now :: moments =>
      (claimTurn around worker backlog now).2.toList ++
        claims (claimTurn around worker backlog now).1 moments

end Turns

/-- A job that is claimed gets its context. -/
def Serviceable (around : Surroundings) (backlog : Backlog) (worker : WorkerRow) (job : JobRow) :
    Prop :=
  ∀ now, (getFullJobContext around backlog.runs worker.runtime worker.owner now
    (claimedRow around worker backlog now job)).2 = .context

/-! ## The jobs that come back -/

section GivenBack

variable (around : Surroundings) (job : JobRow)

/-- The kinds for which the source of the job decides. -/
def JobKind.BySource (kind : JobKind) : Prop :=
  kind ∉ [JobKind.agentChat, .prReview, .specReview, .taskReview, .deploy, .docsAudit]

instance (kind : JobKind) : Decidable kind.BySource :=
  inferInstanceAs (Decidable (_ ∉ _))

/-- The products of the idea cannot get their worktrees. -/
def IdeaWithoutWorktrees (found : Findings) : Prop :=
  ∃ idea ∈ found.idea, WorktreesFail found idea

instance (found : Findings) : Decidable (IdeaWithoutWorktrees found) :=
  inferInstanceAs (Decidable (∃ _ ∈ found.idea, _))

/-- The sprint has no run, no repository on this host or no worktree. -/
def SprintWithoutWorktree (found : Findings) (runs : List SprintRunRow) : Prop :=
  ¬ HasRun runs job ∨ found.repoRoot = .unresolved ∨
    found.repoRoot = .resolved ∧ found.sprintWorktree = false

/-- A branch that rolls the claim back. -/
def Unbuildable (runs : List SprintRunRow) : Prop :=
  let found := around.found job.id
  job.kind = .prReview ∧ ¬ ForgejoPrUrl around.hosts (job.prUrl.getD "") ∨
    job.kind = .specReview ∧ ¬ Reviewable found ∨
    job.kind = .deploy ∧ Falsy found.deployFlow ∨
    job.kind.BySource ∧ (job.source = .manual ∧ found.draft = false ∨
        (job.source = .system ∨ job.source = .copilot) ∧
          (job.kind ∈ [JobKind.ideaGrill, .ideaMakePlan, .ideaReviewPlan, .ideaMakeSpec,
              .ideaReviseSpec] ∧ IdeaWithoutWorktrees found ∨
            job.kind = .sprintImplementation ∧ SprintWithoutWorktree job found runs))

/-- The job reaches the branch of its kind. -/
def Admitted (runtime : AgentRuntime) : Prop :=
  job.Unmanaged ∧ around.resolver.refusal job.id job.kind runtime = none

instance (runtime : AgentRuntime) : Decidable (Admitted around job runtime) :=
  inferInstanceAs (Decidable (_ ∧ _))

/-- The context cannot be built, and the job is queued again each time. -/
def ComesBack (runtime : AgentRuntime) (runs : List SprintRunRow) : Prop :=
  Admitted around job runtime ∧ Unbuildable around job runs

/-- The diff of a review is there to be fetched, and cannot be. -/
def DiffUnreachable : Prop :=
  job.kind = .taskReview ∧ ¬ Falsy job.taskId ∧
    ∃ task ∈ (around.found job.id).task,
      (CanCompare (around.found job.id) task ∨ CanPr (around.found job.id)) ∧
        taskDiff (around.found job.id) task = ""

end GivenBack

end Jobs
end Scrum4Me
