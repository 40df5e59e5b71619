import Scrum4Me.Jobs.Deference

/-!
# The statements that write jobs

Every `UPDATE` on ordinary jobs is a statement: which rows it selects, what it
sets in them and, where it sets the status, to which one. A statement rewrites
each row for itself. Guards differ from writer to writer; some select a row by
nothing but its identifier.
-/

namespace Scrum4Me
namespace Jobs

open Foundation

/-! ## Reports -/

/-- The states that `update_job_status` accepts. -/
inductive ReportStatus
  | running | done | failed | skipped
  deriving DecidableEq

/-- `DB_STATUS_MAP`. -/
def ReportStatus.jobStatus : ReportStatus → JobStatus
  | .running => .running
  | .done => .done
  | .failed => .failed
  | .skipped => .skipped

/-- What `update_job_status` writes besides the moments; what is absent stays
as it is. -/
structure Report where
  status : ReportStatus
  branch : Option String := none
  pushedAt : Option Moment := none
  summary : Option String := none
  error : Option String := none
  prUrl : Option String := none
  headSha : Option String := none
  deriving DecidableEq

/-- `resolveJobTimestamps`: backfill what the read row lacked. -/
def resolveJobTimestamps
    (status : ReportStatus) (claimedAt startedAt : Option Moment) (now : Moment)
    (row : JobRow) :
    JobRow :=
  { row with
    claimedAt := if claimedAt = none then some now else row.claimedAt
    startedAt := if startedAt = none then some now else row.startedAt
    finishedAt := if status = .running then row.finishedAt else some now }

/-- `jobUpdateData`, on the row; `read` is the row as the call first saw it. -/
def jobUpdateData (report : Report) (read : JobRow) (now : Moment) (row : JobRow) :
    JobRow :=
  let stamped :=
    resolveJobTimestamps report.status read.claimedAt read.startedAt now row
  { stamped with
    status := report.status.jobStatus
    branch := report.branch.or row.branch
    pushedAt := report.pushedAt.or row.pushedAt
    summary := report.summary.or row.summary
    error := report.error.or row.error
    prUrl := report.prUrl.or row.prUrl
    headSha := report.headSha.or row.headSha }

/-- The claim columns emptied, as every requeue does. -/
def JobRow.unclaimed (row : JobRow) : JobRow :=
  { row with
    status := .queued
    claimedByTokenId := none
    claimedAt := none
    startedAt := none
    planSnapshot := none
    workerInstanceId := none
    leaseUntil := none }

/-! ## Statements -/

/-- Token and worker instance, by which most owners fence their writes. -/
structure Owner where
  tokenId : String
  instanceId : String
  deriving DecidableEq

def JobRow.OwnedBy (row : JobRow) (owner : Owner) : Prop :=
  row.claimedByTokenId = some owner.tokenId ∧
    row.workerInstanceId = some owner.instanceId

instance (row : JobRow) (owner : Owner) : Decidable (row.OwnedBy owner) :=
  inferInstanceAs (Decidable (_ ∧ _))

/-- `STALE_ERROR_MSG`. -/
def staleErrorMsg : String := "agent did not complete job within 2 attempts"

/-- The lease ran out, or the claim of a job without one is half an hour old. -/
def JobRow.Stale (row : JobRow) (now : Moment) : Prop :=
  (∃ lease ∈ row.leaseUntil, lease < now) ∨
    row.leaseUntil = none ∧ ∃ claimed ∈ row.claimedAt, claimed + 1800000 < now

instance (row : JobRow) (now : Moment) : Decidable (row.Stale now) :=
  inferInstanceAs (Decidable (_ ∨ _))

/-- The `UPDATE`s on `claude_jobs`, under the functions that issue them.
`tryClaimJob` selects by its query, which reads `tables`, and writes the row
that it has locked. -/
inductive Statement
  | tryClaimJob (jobId : String) (worker : WorkerRow) (tables : WorkerTables)
      (sr : Option SprintRunRow) (planSnapshot : String)
      (cutoff : Option (String × Moment)) (now : Moment)
  | staleFailed (userId : String) (now : Moment)
  | staleRequeued (userId : String) (now : Moment)
  | refreshOwnership (jobId : String) (owner : Owner) (now : Moment)
  | rollbackClaim (jobId : String) (owner : Owner)
  | releaseMismatchedClaim (jobId : String) (owner : Owner)
  | skipAgentChatJob (jobId : String) (owner : Owner) (reason : String) (now : Moment)
  | markJobTerminallyFailed (jobId reason : String) (now : Moment)
  | updateJobStatus (jobId : String) (report : Report) (read : JobRow) (now : Moment)
  | deployTerminal (jobId : String) (report : Report) (now : Moment)
  | resolveDeploys (jobId productId : String) (now : Moment)
  | docsAuditTerminal (jobId tokenId : String) (report : Report) (now : Moment)
  | agentChatTransition (jobId tokenId : String) (report : Report) (read : JobRow) (now : Moment)
  | cancelDeploys (ids : List String) (jobId : String) (now : Moment)
  | cancelPbi (ids : List String) (now : Moment)
  | cancelRun (runId : String) (sparing : Option String) (taskId : String) (now : Moment)

namespace Statement

/-- The `WHERE` of the statement. -/
def Selects : Statement → JobRow → Prop
  | tryClaimJob jobId worker tables sr _ _ _, row =>
      row.id = jobId ∧ worker.claimQuery tables ⟨row, sr, none⟩ = .holds
  | staleFailed userId now, row =>
      row.userId = userId ∧ row.dispatchRequestId = none ∧ row.status.Held ∧
        2 ≤ row.retryCount ∧ row.Stale now
  | staleRequeued userId now, row =>
      row.userId = userId ∧ row.dispatchRequestId = none ∧ row.status.Held ∧
        row.retryCount < 2 ∧ row.Stale now
  | refreshOwnership jobId owner _, row =>
      row.id = jobId ∧ row.dispatchRequestId = none ∧ row.OwnedBy owner ∧
        row.status.Held
  | rollbackClaim jobId owner, row =>
      row.id = jobId ∧ row.dispatchRequestId = none ∧ row.OwnedBy owner ∧
        row.status.Held
  | releaseMismatchedClaim jobId owner, row =>
      row.id = jobId ∧ row.status = .claimed ∧ row.OwnedBy owner
  | skipAgentChatJob jobId owner _ _, row =>
      row.id = jobId ∧ row.status = .claimed ∧ row.OwnedBy owner
  -- These select a job by its identifier alone.
  | markJobTerminallyFailed jobId _ _, row => row.id = jobId
  | updateJobStatus jobId _ _ _, row => row.id = jobId
  | deployTerminal jobId _ _, row => row.id = jobId
  | resolveDeploys jobId productId _, row =>
      row.productId = productId ∧ row.kind = .deploy ∧ row.status = .failed ∧
        row.resolvedAt = none ∧ row.id ≠ jobId
  -- These are fenced by the token, not by the instance.
  | docsAuditTerminal jobId tokenId _ _, row =>
      row.id = jobId ∧ row.kind = .docsAudit ∧
        row.claimedByTokenId = some tokenId ∧ row.status.Held
  | agentChatTransition jobId tokenId report _ _, row =>
      row.id = jobId ∧ row.claimedByTokenId = some tokenId ∧
        if report.status = .running then row.status = .claimed
        else row.status.Held
  | cancelDeploys ids _ _, row => row.id ∈ ids
  | cancelPbi ids _, row => row.id ∈ ids
  | cancelRun runId sparing _ _, row =>
      row.sprintRunId = some runId ∧ row.status.Active ∧ sparing ≠ some row.id

instance (statement : Statement) (row : JobRow) :
    Decidable (statement.Selects row) := by
  apply @Statement.casesOn (fun statement => Decidable (statement.Selects row)) statement <;>
    intros <;> dsimp only [Selects] <;> infer_instance

/-- The `SET` of the statement. -/
def set : Statement → JobRow → JobRow
  | tryClaimJob _ worker _ _ planSnapshot cutoff now, row =>
      let last := if row.kind = .ideaChat ∧ ¬ Falsy row.ideaId then cutoff
        else none
      { row with
        status := .claimed
        claimedByTokenId := some worker.tokenId
        claimedAt := some now
        startedAt := some now
        planSnapshot := some planSnapshot
        workerInstanceId := some worker.instanceId
        leaseUntil := some (now + 300000)
        chatCutoffMessageId := (last.map (·.1)).or row.chatCutoffMessageId
        chatCutoffAt := (last.map (·.2)).or row.chatCutoffAt }
  | staleFailed _ now, row =>
      { row with
        status := .failed, finishedAt := some now, error := some staleErrorMsg }
  | staleRequeued _ _, row =>
      { row.unclaimed with retryCount := row.retryCount + 1 }
  | refreshOwnership _ _ now, row =>
      { row with leaseUntil := some (now + 120000) }
  | rollbackClaim _ _, row => row.unclaimed
  | releaseMismatchedClaim _ _, row => row.unclaimed
  | skipAgentChatJob _ _ reason now, row =>
      { row with
        status := .skipped, finishedAt := some now, error := some reason }
  | markJobTerminallyFailed _ reason now, row =>
      { row with
        status := .failed
        finishedAt := some now
        error := some (String.ofList (reason.toList.take 2000)) }
  | updateJobStatus _ report read now, row => jobUpdateData report read now row
  | deployTerminal _ report now, row =>
      { row with
        status := report.status.jobStatus
        summary := report.summary.or row.summary
        error := report.error.or row.error
        finishedAt := some now }
  | resolveDeploys _ _ now, row => { row with resolvedAt := some now }
  | docsAuditTerminal _ _ report now, row =>
      { row with
        status := report.status.jobStatus
        summary := report.summary.or row.summary
        error := if report.status = .skipped then report.error.or row.error
          else row.error
        finishedAt := some now }
  | agentChatTransition _ _ report read now, row =>
      jobUpdateData report read now row
  | cancelDeploys _ jobId now, row =>
      { row with
        status := .cancelled
        finishedAt := some now
        error := some ("superseded: deploy voor product faalde (job " ++ jobId ++ ")") }
  | cancelPbi _ now, row =>
      { row with
        status := .cancelled
        finishedAt := some now
        error := some "cancelled_by_pbi_failure" }
  | cancelRun _ _ taskId now, row =>
      { row with
        status := .cancelled
        finishedAt := some now
        error := some ("Cancelled: task " ++ taskId ++ " failed in same sprint run") }

/-- The status that the statement gives the rows it selects. -/
def target : Statement → Option JobStatus
  | tryClaimJob .. => some .claimed
  | staleFailed .. => some .failed
  | staleRequeued .. => some .queued
  | refreshOwnership .. => none
  | rollbackClaim .. => some .queued
  | releaseMismatchedClaim .. => some .queued
  | skipAgentChatJob .. => some .skipped
  | markJobTerminallyFailed .. => some .failed
  | updateJobStatus _ report _ _ => some report.status.jobStatus
  | deployTerminal _ report _ => some report.status.jobStatus
  | resolveDeploys .. => none
  | docsAuditTerminal _ _ report _ => some report.status.jobStatus
  | agentChatTransition _ _ report _ _ => some report.status.jobStatus
  | cancelDeploys .. => some .cancelled
  | cancelPbi .. => some .cancelled
  | cancelRun .. => some .cancelled

/-- The statement on one row. -/
def apply (statement : Statement) (row : JobRow) : JobRow :=
  if statement.Selects row then statement.set row else row

/-- The statement takes the rows it selects from whoever holds them. -/
def Ends (statement : Statement) : Prop :=
  ∃ status ∈ statement.target, ¬ status.Held

instance (statement : Statement) : Decidable statement.Ends :=
  inferInstanceAs (Decidable (∃ _ ∈ statement.target, _))

variable {statement : Statement} {row : JobRow}

theorem set_status : (statement.set row).status = statement.target.getD row.status := by
  cases statement <;> rfl

theorem apply_of_selects (selected : statement.Selects row) :
    statement.apply row = statement.set row :=
  if_pos selected

theorem apply_of_not_selects (missed : ¬ statement.Selects row) : statement.apply row = row :=
  if_neg missed

/-- What no statement writes. -/
theorem apply_static :
    (statement.apply row).id = row.id ∧ (statement.apply row).kind = row.kind ∧
      (statement.apply row).productId = row.productId ∧ (statement.apply row).taskId = row.taskId ∧
      (statement.apply row).sprintRunId = row.sprintRunId ∧
      (statement.apply row).sprintSequence = row.sprintSequence := by
  unfold apply
  split
  · cases statement <;> exact ⟨rfl, rfl, rfl, rfl, rfl, rfl⟩
  · exact ⟨rfl, rfl, rfl, rfl, rfl, rfl⟩

@[simp] theorem apply_id : (statement.apply row).id = row.id :=
  apply_static.1

/-- The statement begins a claim. -/
def Claims : Statement → Prop
  | tryClaimJob .. => True
  | _ => False

instance (statement : Statement) : Decidable statement.Claims := by
  apply @Statement.casesOn (fun statement => Decidable (statement.Claims)) statement <;>
    intros <;> dsimp only [Claims] <;> infer_instance

/-- The query of a worker accepts queued, unmanaged jobs. -/
theorem claimQuery_holds {worker : WorkerRow} {tables : WorkerTables} {candidate : ClaimRow}
    (accepted : worker.claimQuery tables candidate = .holds) :
    candidate.cj.status = .queued ∧ candidate.cj.dispatchRequestId = none ∧
      Condition.sprint tables.jobs candidate.cj = .holds := by
  simp only [WorkerRow.claimQuery, Truth.all_cons, Truth.all_nil,
    Truth.and_holds, and_true, whereFragment_iff] at accepted
  obtain ⟨⟨_, _, _, queued, unmanaged, _⟩, _, siblings⟩ := accepted
  exact ⟨queued, unmanaged, siblings⟩

theorem Claims.queued (claims : statement.Claims) (selected : statement.Selects row) :
    row.status = .queued := by
  cases statement with
  | tryClaimJob => exact (claimQuery_holds selected.2).1
  | _ => exact claims.elim

/-- A statement that neither begins nor ends a claim leaves the owner. -/
theorem set_owner (kept : ¬ statement.Ends) (sameClaim : ¬ statement.Claims) :
    (statement.set row).claimedByTokenId = row.claimedByTokenId ∧
      (statement.set row).workerInstanceId = row.workerInstanceId := by
  cases statement with
  | tryClaimJob => exact absurd trivial sameClaim
  | staleRequeued => exact absurd ⟨_, rfl, by decide⟩ kept
  | rollbackClaim => exact absurd ⟨_, rfl, by decide⟩ kept
  | releaseMismatchedClaim => exact absurd ⟨_, rfl, by decide⟩ kept
  | _ => exact ⟨rfl, rfl⟩

end Statement

end Jobs
end Scrum4Me
