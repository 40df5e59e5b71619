import Scrum4Me.Foundation.Patterns
import Scrum4Me.Hierarchy.FinishedSprints
import Scrum4Me.Jobs.ClaimLoop
import Scrum4Me.Jobs.Machine

/-!
# Calls that end jobs

What claims, sweeps, failures and reports leave, one call after another, in the tables
of jobs, runs and the hierarchy.
-/

namespace Scrum4Me
namespace Hierarchy

open Foundation
open Jobs (Admits JobRow JobStatus Moment Owner Report ReportStatus SprintRunStatus Statement
  WorkerRow WorkerTables)

/-- `isHarnessJobRow`. -/
def Guarded (job : JobRow) : Prop :=
  job.runtime = .harness ∨ job.requiredCapability = some "local_llm"

instance (job : JobRow) : Decidable (Guarded job) := inferInstanceAs (Decidable (_ ∨ _))

/-- The error starts with `QUOTA_PAUSE:`. -/
def quotaPause (error : Option String) : Bool :=
  "QUOTA_PAUSE:".toList.isPrefixOf (error.getD "").toList

/-- `/task[:\s]+([a-z0-9]+)/i` on the error. -/
def failedTask? (error : Option String) : Option String :=
  ((Pattern.sequence [.caseless "task",
      .many (fun unit => unit = 58 ∨ Text.Space unit) 1 none,
      .group (.many (fun unit => 48 ≤ unit ∧ unit ≤ 57 ∨
        97 ≤ Pattern.lower unit ∧ Pattern.lower unit ≤ 122) 1 none)]).search none
    (Text.units (error.getD ""))).map fun found =>
      String.ofList ((found.matched.groups.headD []).map Char.ofNat)

namespace Store

variable (store : Store)

def job? (id : String) : Option JobRow := store.jobs.find? (·.id = id)

/-- A statement on the jobs. -/
def write (statement : Statement) : Store :=
  { store with jobs := store.jobs.map statement.apply }

/-- The run of the job gets other columns. -/
def updateRunOf (job : JobRow) (change : RunRow → RunRow) : Store :=
  job.sprintRunId.elim store fun runId => store.updateRun runId change

/-! ## Claiming -/

/-- `LEFT JOIN sprint_runs`. -/
def sprintRun? (job : JobRow) : Option Jobs.SprintRunRow :=
  (job.sprintRunId.bind store.run?).map fun run => ⟨run.id, run.sprintId, run.status⟩

/-- The statement that claims a job for a worker. -/
def claimStatement
    (job : JobRow) (worker : WorkerRow) (tables : WorkerTables) (planSnapshot : String)
    (cutoff : Option (String × Moment)) (now : Moment) :
    Statement :=
  .tryClaimJob job.id worker { tables with jobs := store.jobs, now := now }
    (store.sprintRun? job) planSnapshot cutoff now

/-- A job is claimed, and with the first of its jobs a run begins. -/
def tryClaimJob
    (jobId : String) (worker : WorkerRow) (tables : WorkerTables) (planSnapshot : String)
    (cutoff : Option (String × Moment)) (now : Moment) :
    Store :=
  (store.job? jobId).elim store fun job =>
    let statement := store.claimStatement job worker tables planSnapshot cutoff now
    if statement.Selects job then
      (store.write statement).updateRunOf job fun run => { run with status := run.status.begun }
    else store

/-! ## Failing -/

/-- The run of a sprint job fails with it. -/
def failRunOf (job : JobRow) : Store :=
  if job.kind = .sprintImplementation then
    store.updateRunOf job fun run => { run with status := .failed }
  else store

/-- Claims that ran out: jobs fail on their third, others wait again. -/
def resetStaleClaimedJobs (userId : String) (now : Moment) : Store :=
  let failed := store.jobs.filter fun job => (Statement.staleFailed userId now).Selects job
  failed.foldl failRunOf ((store.write (.staleFailed userId now)).write (.staleRequeued userId now))

/-- A job whose repository cannot be resolved fails. -/
def markJobTerminallyFailed (jobId reason : String) (now : Moment) : Store :=
  (store.job? jobId).elim store fun job =>
    if job.Unmanaged then
      (store.write (.markJobTerminallyFailed jobId reason now)).failRunOf job
    else store

/-! ## Reporting -/

/-- The caller holds the job, and the report may be made on it. -/
def Reportable (job : JobRow) (tokenId : String) (requested : ReportStatus) (report : Report) :
    Prop :=
  job.Unmanaged ∧ job.claimedByTokenId = some tokenId ∧ job.status.Held ∧
    Admits job requested report

instance (job : JobRow) (tokenId : String) (requested : ReportStatus) (report : Report) :
    Decidable (Reportable job tokenId requested report) :=
  inferInstanceAs (Decidable (_ ∧ _ ∧ _ ∧ _))

/-- The statements on the jobs, first of all on the one reported on. -/
def reportStatements (job : JobRow) (tokenId : String) (report : Report) (now : Moment) :
    List Statement :=
  if Jobs.deployEnd job report ∧ report.status = .failed then
    let queued := store.jobs.filter fun other =>
      other.productId = job.productId ∧ other.kind = .deploy ∧ other.status = .queued ∧
        other.id ≠ job.id
    [.deployTerminal job.id report now, .cancelDeploys (queued.map (·.id)) job.id now]
  else Jobs.reportStatements ⟨job.id, tokenId, job.workerInstanceId, 0⟩ job report now

/-- The task of the job takes part in the flow of its sprint. -/
def Flows (job : JobRow) : Prop :=
  job.kind = .taskImplementation ∧ job.source ≠ .manual ∧ ¬ Guarded job

instance (job : JobRow) : Decidable (Flows job) := inferInstanceAs (Decidable (_ ∧ _ ∧ _))

/-- The task is done or has failed with its job; an error is passed over. -/
def propagateReport (job : JobRow) (report : Report) (now : Moment) : Store :=
  if Flows job ∧ (report.status = .done ∨ report.status = .failed) then
    job.taskId.elim store fun taskId =>
      (store.propagateStatusUpwards taskId
        (if report.status = .done then .done else .failed) none now).getD store
  else store

/-- A merge conflict pauses the run; whether there is one is told by the forge. -/
def pauseOnConflict (job : JobRow) (report : Report) (conflict : Bool) : Store :=
  if conflict ∧ Flows job ∧ report.status = .done then
    store.updateRunOf job fun run => { run with status := .paused }
  else store

/-- The PBI of a task. -/
def pbiOf? (taskId : String) : Option String :=
  (store.db.task? taskId).bind fun task =>
    (store.db.story? task.storyId).map StoryRow.pbiId

/-- The active jobs under the PBI of a job, apart from itself. -/
def eligible (job : JobRow) (pbiId : String) : List JobRow :=
  store.jobs.filter fun other =>
    other.id ≠ job.id ∧ other.status.Active ∧ other.taskId.bind store.pbiOf? = some pbiId

/-- `cancelPbiOnFailure`: the other jobs under the PBI are cancelled. -/
def cancelPbiOnFailure (job : JobRow) (now : Moment) : Store :=
  (job.taskId.bind store.pbiOf?).elim store fun pbiId =>
    store.write (.cancelPbi ((store.eligible job pbiId).map (·.id)) now)

def cascade (job : JobRow) (report : Report) (now : Moment) : Store :=
  if Flows job ∧ report.status = .failed then store.cancelPbiOnFailure job now else store

/-- The run is done, if no story of its sprint is left open. -/
def finalizeSprintRunOnDone (runId : String) (now : Moment) : Store :=
  (store.run? runId).elim store fun run =>
    if run.status = .done ∨ ∃ story ∈ store.db.stories, story.sprintId = some run.sprintId ∧
        story.status ≠ .done ∧ story.status ≠ .failed then store
    else store.updateRun runId fun row => { row with status := .done, finishedAt := some now }

/-- What becomes of the run of a sprint job. -/
def settleSprintJob (job : JobRow) (report : Report) (now : Moment) : Store :=
  if job.kind = .sprintImplementation then
    if report.status = .done then
      job.sprintRunId.elim store fun runId => store.finalizeSprintRunOnDone runId now
    else if report.status = .failed then
      store.updateRunOf job fun run =>
        if quotaPause report.error then { run with status := .paused }
        else
          { run with
            status := .failed
            failedTaskId := failedTask? report.error
            finishedAt := some now }
    else store
  else store

/-- `update_job_status`, of a job that the caller holds. -/
def updateJobStatus (jobId tokenId : String) (requested : ReportStatus) (report : Report)
    (conflict : Bool) (now : Moment) :
    Store :=
  (store.job? jobId).elim store fun job =>
    if Reportable job tokenId requested report then
      let written := (store.reportStatements job tokenId report now).foldl write store
      ((((written.propagateReport job report now).pauseOnConflict job report conflict).cascade
        job report now).settleSprintJob job report now)
    else store

end Store

/-- One call, from its first statement to its last. A push that fails makes a job that is
reported as done a failed one. -/
inductive JobCall
  | claim (jobId : String) (worker : WorkerRow) (tables : WorkerTables) (planSnapshot : String)
      (cutoff : Option (String × Moment)) (now : Moment)
  | giveBack (jobId : String) (owner : Owner)
  | sweep (userId : String) (now : Moment)
  | terminate (jobId reason : String) (now : Moment)
  | report (jobId tokenId : String) (requested : ReportStatus) (report : Report) (conflict : Bool)
      (now : Moment)

def Store.perform (store : Store) : JobCall → Store
  | .claim jobId worker tables planSnapshot cutoff now =>
      store.tryClaimJob jobId worker tables planSnapshot cutoff now
  | .giveBack jobId owner => store.write (.rollbackClaim jobId owner)
  | .sweep userId now => store.resetStaleClaimedJobs userId now
  | .terminate jobId reason now => store.markJobTerminallyFailed jobId reason now
  | .report jobId tokenId requested report conflict now =>
      store.updateJobStatus jobId tokenId requested report conflict now

end Hierarchy
end Scrum4Me
