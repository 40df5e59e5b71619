import Scrum4Me.Jobs.Writers
import Scrum4Me.Jobs.SprintRuns
import Scrum4Me.Foundation.Execution
import Scrum4Me.Foundation.Table

/-!
# The jobs table and the calls in flight

A tool call on ordinary jobs reads, works for a while and then writes; only its
single statements and transactions are atomic. The state holds the jobs and, for
every call between two of its steps, what it has read. Each step performs the
statements of one transaction on every job, adds the jobs that it creates, and
takes up or ends a call. Any other step may come between the steps of a call.
-/

namespace Scrum4Me
namespace Jobs

open Foundation

/-! ## Claims and calls -/

/-- A claim of a job: by which token and instance, and the how manieth of the
job it is. -/
structure Claim where
  jobId : String
  tokenId : String
  instanceId : Option String
  epoch : Nat
  deriving DecidableEq

/-- A claim that `wait_for_job` has made for a worker. -/
structure WorkerClaim where
  jobId : String
  owner : Owner
  epoch : Nat
  deriving DecidableEq

def WorkerClaim.claim (held : WorkerClaim) : Claim where
  jobId := held.jobId
  tokenId := held.owner.tokenId
  instanceId := some held.owner.instanceId
  epoch := held.epoch

/-- A job and how often it was claimed, which no column tells. -/
structure Tracked where
  row : JobRow
  epoch : Nat
  deriving DecidableEq

/-- The job is held, at this moment, under this very claim. -/
def Tracked.HeldUnder (job : Tracked) (claim : Claim) : Prop :=
  job.row.id = claim.jobId ∧ job.row.status.Held ∧
    job.row.claimedByTokenId = some claim.tokenId ∧
    job.row.workerInstanceId = claim.instanceId ∧ job.epoch = claim.epoch

instance (job : Tracked) (claim : Claim) : Decidable (job.HeldUnder claim) :=
  inferInstanceAs (Decidable (_ ∧ _))

/-- A statement on a job. Claiming counts. -/
def Tracked.apply (job : Tracked) (statement : Statement) : Tracked where
  row := statement.apply job.row
  epoch :=
    if statement.Claims ∧ statement.Selects job.row then job.epoch + 1
    else job.epoch

/-- A call between two of its steps, with what it knows. -/
inductive Call
  /-- `tryClaimJob`, its query started on a snapshot. -/
  | polling (worker : WorkerRow) (snapshot : WorkerTables)
  /-- `wait_for_job`, preparing the job that it claimed. -/
  | waiting (held : WorkerClaim)
  /-- `markJobTerminallyFailed`, after its read. -/
  | failing (held : WorkerClaim) (reason : String)
  /-- `update_job_status`, after its first read. -/
  | reporting (claim : Claim) (read : JobRow) (requested : ReportStatus)
  /-- `applyDeployTerminalUpdate`, after it selected the queued deployments. -/
  | deployFailing (claim : Claim) (report : Report) (ids : List String)
  /-- `runCascade`, after it selected the jobs of the item. -/
  | cascading (failedJobId : String) (ids : List String)
  deriving DecidableEq

structure World where
  now : Moment
  jobs : List Tracked
  calls : List Call

def World.rows (world : World) : List JobRow := world.jobs.map (·.row)

def World.ids (world : World) : List String := world.jobs.map (·.row.id)

/-! ## What a report may be -/

/-- The text without the blanks around it. -/
def trimmed (text : Option String) : List Char :=
  ((((text.getD "").toList.dropWhile Char.isWhitespace).reverse.dropWhile
    Char.isWhitespace)).reverse

/-- A word of the text: nothing of a word follows it. -/
def startsWithWord (word text : List Char) : Bool :=
  word.isPrefixOf text && ((text.drop word.length).head?.elim true fun next =>
      !(next.isAlphanum || next == '_'))

/-- `checkDeploySkipReason`. -/
def deploySkipReason (error : Option String) : Prop :=
  startsWithWord "doc_only_merge".toList (trimmed error) = true ∨
    startsWithWord "merge_sha_already_deployed".toList (trimmed error) = true

instance (error : Option String) : Decidable (deploySkipReason error) :=
  inferInstanceAs (Decidable (_ ∨ _))

/-- The reports whose write is fenced by the token of the caller. -/
def Fenced (read : JobRow) (requested : ReportStatus) : Prop :=
  read.kind = .agentChat ∨ read.kind = .docsAudit ∧ requested ≠ .running

instance (read : JobRow) (requested : ReportStatus) :
    Decidable (Fenced read requested) :=
  inferInstanceAs (Decidable (_ ∨ _))

/-- `isSystemIdeaChat`, and likewise for a conversation on a plan. -/
def systemChat (kind : JobKind) (read : JobRow) : Prop :=
  read.kind = kind ∧ read.source = .system ∧ ¬ Falsy read.ideaId

instance (kind : JobKind) (read : JobRow) : Decidable (systemChat kind read) :=
  inferInstanceAs (Decidable (_ ∧ _))

/-- The reports that come to a write. A push that fails turns a finished job
into a failed one. -/
structure Admits
    (read : JobRow) (requested : ReportStatus) (report : Report) :
    Prop where
  status : report.status = requested ∨
    requested = .done ∧ report.status = .failed ∧ ¬ Fenced read requested
  skipped : requested = .skipped →
    read.kind = .docsAudit ∧ trimmed report.error ≠ [] ∨
      read.kind = .deploy ∧ deploySkipReason report.error ∨
      read.kind = .taskImplementation ∧ 10 ≤ (trimmed report.error).length
  docsAudit : read.kind = .docsAudit → requested ≠ .running →
    read.source = .system ∨ read.source = .manual
  answered : requested = .done →
    read.kind = .agentChat ∨ systemChat .planChat read ∨
      systemChat .ideaChat read → trimmed report.summary ≠ []

instance (read : JobRow) (requested : ReportStatus) (report : Report) :
    Decidable (Admits read requested report) :=
  decidable_of_iff ((report.status = requested ∨
        requested = .done ∧ report.status = .failed ∧
          ¬ Fenced read requested) ∧
      (requested = .skipped →
        read.kind = .docsAudit ∧ trimmed report.error ≠ [] ∨
          read.kind = .deploy ∧ deploySkipReason report.error ∨
          read.kind = .taskImplementation ∧
            10 ≤ (trimmed report.error).length) ∧
      (read.kind = .docsAudit → requested ≠ .running →
        read.source = .system ∨ read.source = .manual) ∧
      (requested = .done →
        read.kind = .agentChat ∨ systemChat .planChat read ∨
          systemChat .ideaChat read → trimmed report.summary ≠ []))
    ⟨fun ⟨status, skipped, docsAudit, answered⟩ =>
      ⟨status, skipped, docsAudit, answered⟩,
      fun ⟨status, skipped, docsAudit, answered⟩ =>
        ⟨status, skipped, docsAudit, answered⟩⟩

/-! ## Steps -/

inductive Step
  | pass (duration : Nat)
  | enqueue (row : JobRow)
  | startSprintRun (opts : SprintStart) (plan : SprintPlanning)
  | poll (worker : WorkerRow) (tables : WorkerTables)
  | tryClaim (worker : WorkerRow) (snapshot : WorkerTables) (jobId : String)
      (sr : Option SprintRunRow) (planSnapshot : String)
      (cutoff : Option (String × Moment))
  | sweepFailed (userId : String)
  | sweepRequeued (userId : String)
  | refresh (held : WorkerClaim)
  | rollback (held : WorkerClaim)
  | release (held : WorkerClaim)
  | skip (held : WorkerClaim) (reason : String)
  | readFailure (held : WorkerClaim) (reason : String)
  | writeFailure (held : WorkerClaim) (reason : String)
  | readReport (jobId tokenId : String) (requested : ReportStatus)
  | writeReport (claim : Claim) (read : JobRow) (requested : ReportStatus)
      (report : Report) (followUpId : Option String)
  | failDeploy (claim : Claim) (read : JobRow) (requested : ReportStatus) (report : Report)
  | cancelDeploys (claim : Claim) (report : Report) (ids : List String)
  | selectPbi (failedJobId : String) (taskIds : List String)
  | cancelPbi (failedJobId : String) (ids : List String)
  | cancelRun (runId : String) (sparing : Option String) (taskId : String)
  | drop (call : Call)

/-- The reports of `update_job_status` that end a deployment. -/
def deployEnd (read : JobRow) (report : Report) : Prop :=
  read.kind = .deploy ∧ report.status ≠ .running

instance (read : JobRow) (report : Report) : Decidable (deployEnd read report) :=
  inferInstanceAs (Decidable (_ ∧ _))

/-- The statements of the write that ends `update_job_status`. The failure of a
deployment has steps of its own. -/
def reportStatements (claim : Claim) (read : JobRow) (report : Report) (now : Moment) :
    List Statement :=
  if read.kind = .docsAudit ∧ report.status ≠ .running then
    [.docsAuditTerminal claim.jobId claim.tokenId report now]
  else if read.kind = .agentChat then
    [.agentChatTransition claim.jobId claim.tokenId report read now]
  else if deployEnd read report then
    [.deployTerminal claim.jobId report now] ++
      if report.status = .done then
        [.resolveDeploys claim.jobId read.productId now]
      else []
  else
    [.updateJobStatus claim.jobId report read now]

namespace Step

/-- The statements of the step, in their order. -/
def statements (world : World) : Step → List Statement
  | tryClaim worker snapshot jobId sr planSnapshot cutoff =>
      [.tryClaimJob jobId worker snapshot sr planSnapshot cutoff world.now]
  | sweepFailed userId => [.staleFailed userId world.now]
  | sweepRequeued userId => [.staleRequeued userId world.now]
  | refresh held => [.refreshOwnership held.jobId held.owner world.now]
  | rollback held => [.rollbackClaim held.jobId held.owner]
  | release held => [.releaseMismatchedClaim held.jobId held.owner]
  | skip held reason =>
      [.skipAgentChatJob held.jobId held.owner reason world.now]
  | writeFailure held reason =>
      [.markJobTerminallyFailed held.jobId reason world.now]
  | writeReport claim read _ report _ =>
      reportStatements claim read report world.now
  -- The terminal update commits together with the cancellations.
  | cancelDeploys claim report ids =>
      [.deployTerminal claim.jobId report world.now,
        .cancelDeploys ids claim.jobId world.now]
  | cancelPbi _ ids => [.cancelPbi ids world.now]
  | cancelRun runId sparing taskId =>
      [.cancelRun runId sparing taskId world.now]
  | _ => []

/-- What the step makes of a job. -/
def rewrite (world : World) (step : Step) (job : Tracked) : Tracked :=
  (step.statements world).foldl Tracked.apply job

/-- The follow-up turn of a conversation on an idea. -/
def followUp (read : JobRow) (id : String) (now : Moment) : JobRow where
  id := id
  userId := read.userId
  productId := read.productId
  taskId := none
  ideaId := read.ideaId
  sprintRunId := none
  sprintSequence := none
  kind := .ideaChat
  status := .queued
  runtime := .claude
  source := .system
  requiredCapability := none
  workerInstanceId := none
  dispatchRequestId := none
  dispatchCandidateId := none
  createdAt := now

/-- The jobs that the step creates. -/
def created (world : World) : Step → List JobRow
  | enqueue row => [row]
  | startSprintRun opts plan =>
      match startSprintRunCore opts plan with
      | .ok (_, jobs) => jobs
      | .error _ => []
  | writeReport _ read _ _ followUpId =>
      (followUpId.map fun id => followUp read id world.now).toList
  | _ => []

/-- The call that the step continues or ends. -/
def own : Step → Option Call
  | tryClaim worker snapshot .. => some (.polling worker snapshot)
  | refresh held => some (.waiting held)
  | rollback held => some (.waiting held)
  | release held => some (.waiting held)
  | skip held _ => some (.waiting held)
  | readFailure held _ => some (.waiting held)
  | writeFailure held reason => some (.failing held reason)
  | writeReport claim read requested _ _ =>
      some (.reporting claim read requested)
  | failDeploy claim read requested _ => some (.reporting claim read requested)
  | cancelDeploys claim report ids => some (.deployFailing claim report ids)
  | cancelPbi failedJobId ids => some (.cascading failedJobId ids)
  | drop call => some call
  | _ => none

/-- The claim on whose behalf the step writes. -/
def behalf : Step → Option Claim
  | refresh held => some held.claim
  | rollback held => some held.claim
  | release held => some held.claim
  | skip held _ => some held.claim
  | writeFailure held _ => some held.claim
  | writeReport claim .. => some claim
  | cancelDeploys claim .. => some claim
  | _ => none

end Step

/-- The queued deployments of a product, apart from the one that failed. -/
def World.queuedDeploys (world : World) (productId jobId : String) :
    List String :=
  (world.rows.filter fun row =>
    row.productId = productId ∧ row.kind = .deploy ∧ row.status = .queued ∧
      row.id ≠ jobId).map (·.id)

/-- The active jobs on the given tasks, apart from the one that failed. -/
def World.activeJobs (world : World) (taskIds : List String) (failedJobId : String) : List String :=
  (world.rows.filter fun row =>
    row.id ≠ failedJobId ∧ row.status.Active ∧
      ∃ task ∈ row.taskId, task ∈ taskIds).map (·.id)

/-- How often the job was claimed. -/
def World.epochOf (world : World) (jobId : String) : Nat :=
  ((world.jobs.find? fun job => job.row.id = jobId).map (·.epoch)).getD 0

/-- The calls that the step leaves alone. -/
def World.others (world : World) (step : Step) : List Call :=
  match step.own with
  | some call => world.calls.erase call
  | none => world.calls

namespace Step

/-- The call that is in flight after the step, if it begins or continues one. -/
def begun (world : World) : Step → Option Call
  | poll worker tables =>
      some (.polling worker { tables with jobs := world.rows, now := world.now })
  | tryClaim worker _ jobId _ _ _ =>
      some (.waiting ⟨jobId, ⟨worker.tokenId, worker.instanceId⟩,
        world.epochOf jobId + 1⟩)
  | refresh held => some (.waiting held)
  | readFailure held reason => some (.failing held reason)
  | readReport jobId tokenId requested =>
      (world.jobs.find? fun job => job.row.id = jobId).map fun job =>
        .reporting ⟨jobId, tokenId, job.row.workerInstanceId, job.epoch⟩ job.row
          requested
  | failDeploy claim read _ report =>
      some (.deployFailing claim report (world.queuedDeploys read.productId claim.jobId))
  | selectPbi failedJobId taskIds =>
      some (.cascading failedJobId (world.activeJobs taskIds failedJobId))
  | _ => none

/-- The rows are new to the table. -/
def Fresh (world : World) (rows : List JobRow) : Prop :=
  (rows.map (·.id)).Nodup ∧ ∀ row ∈ rows, row.id ∉ world.ids

instance (world : World) (rows : List JobRow) : Decidable (Fresh world rows) :=
  inferInstanceAs (Decidable (_ ∧ _))

/-- When the step can be taken, apart from the call that it continues. -/
def Enabled (world : World) : Step → Prop
  | enqueue row =>
      row.status = .queued ∧ row.Unmanaged ∧ row.sprintRunId = none
  | startSprintRun opts plan =>
      (startSprintRunCore opts plan).isOk = true ∧
        ∀ job ∈ world.jobs, job.row.sprintRunId ≠ some opts.runId
  | poll worker _ => ¬ managedPollScope worker.instanceId
  | tryClaim worker snapshot jobId sr planSnapshot cutoff =>
      -- The row is found in the snapshot, locked and checked again.
      (∃ old ∈ snapshot.jobs, old.id = jobId ∧
        worker.claimQuery snapshot ⟨old, sr, none⟩ = .holds) ∧
      ∃ job ∈ world.jobs,
        (Statement.tryClaimJob jobId worker snapshot sr planSnapshot cutoff
          world.now).Selects job.row
  | readFailure held _ =>
      ∃ job ∈ world.jobs, job.row.id = held.jobId ∧ job.row.Unmanaged
  | readReport jobId tokenId _ =>
      ∃ job ∈ world.jobs.find? fun job => job.row.id = jobId,
        job.row.Unmanaged ∧ job.row.claimedByTokenId = some tokenId ∧
          job.row.status.Held
  | writeReport _ read requested report followUpId =>
      Admits read requested report ∧
        ¬ (deployEnd read report ∧ report.status = .failed) ∧
        (followUpId ≠ none → systemChat .ideaChat read ∧
          (report.status = .done ∨ report.status = .failed))
  | failDeploy _ read requested report =>
      Admits read requested report ∧ deployEnd read report ∧
        report.status = .failed
  | selectPbi failedJobId _ =>
      ∃ job ∈ world.jobs, job.row.id = failedJobId ∧
        job.row.kind = .taskImplementation ∧ job.row.status ≠ .skipped
  | _ => True

instance (world : World) (step : Step) : Decidable (step.Enabled world) := by
  apply @Step.casesOn (fun step => Decidable (step.Enabled world)) step <;>
    intros <;> dsimp only [Enabled] <;> infer_instance

/-- The step is enabled, its call is in flight and its jobs are new. -/
def Ready (world : World) (step : Step) : Prop :=
  step.Enabled world ∧ (∀ call ∈ step.own, call ∈ world.calls) ∧
    Fresh world (step.created world)

instance (world : World) (step : Step) : Decidable (step.Ready world) :=
  inferInstanceAs (Decidable (_ ∧ _))

/-- The moment after the step. -/
def later (world : World) : Step → Moment
  | pass duration => world.now + duration
  | _ => world.now

end Step

/-- One step; a step that is not ready changes nothing. -/
def execute (world : World) (step : Step) : World :=
  if step.Ready world then
    { now := step.later world
      jobs := world.jobs.map (step.rewrite world) ++ (step.created world).map fun row => ⟨row, 0⟩
      calls := world.others step ++ (step.begun world).toList }
  else world

end Jobs
end Scrum4Me
