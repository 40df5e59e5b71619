import Scrum4Me.Guarantees.Executors
import Scrum4Me.Jobs.SprintRuns
import Scrum4Me.Jobs.Writers

/-!
# Work for a task

What the ways of putting a task to work check before they do it. The ordinary
dispatch, the managed intake and the managed reservation lock the row of the
task and look for active jobs; starting a sprint does neither.
-/

namespace Scrum4Me
namespace Tasks

open Foundation Jobs

/-- What a transaction reads of the task that it has locked, and of the rows
around it. -/
structure LockedTask where
  productId : String
  /-- The product of the story. -/
  storyProductId : String
  status : TaskStatus
  repoUrl : Option String
  dispatchRequestId : Option Uuid
  deriving DecidableEq

/-- The repositories of a managed request: of its product, of the repository it
names, and as accepted with it. -/
structure TaskRepositories where
  product : Option (Option String)
  repository : Option (Option String)
  accepted : Option String
  deriving DecidableEq

structure TaskRead where
  task : Option LockedTask
  /-- A `sprint_task_executions` row of the task is pending or running. -/
  executing : Bool
  repositories : TaskRepositories
  deriving DecidableEq

def statusText : TaskStatus → String
  | .toDo => "TO_DO"
  | .inProgress => "IN_PROGRESS"
  | .review => "REVIEW"
  | .done => "DONE"
  | .failed => "FAILED"
  | .excluded => "EXCLUDED"

/-! ## The ordinary dispatch -/

structure TaskDispatch where
  taskId : String
  productId : String
  userId : String
  deriving DecidableEq

/-- `TASK_BUSY`. -/
def taskBusy : String := "Er loopt al een actieve job voor deze task"

/-- The checks of `dispatchTaskImplementation`; `existing` is the active job
that it found. -/
def dispatchTaskImplementation
    (opts : TaskDispatch) (read : Option LockedTask) (existing : Option String) :
    Except String Unit := do
  let notFound := "Task " ++ opts.taskId ++ " not found in this product"
  let task ← require read notFound
  ensure (task.storyProductId = opts.productId) notFound
  ensure (task.dispatchRequestId = none) (taskBusy ++ " (managed dispatch " ++
      toString (task.dispatchRequestId.getD 0) ++ ").")
  ensure (task.status = .toDo) ("Task heeft status " ++ statusText task.status ++
      "; alleen TO_DO is dispatchbaar.")
  ensure (existing = none) (taskBusy ++ " (" ++ existing.getD "" ++ ").")

/-- The job that it creates: for the harness where the product chose it, else
with the snapshot. -/
def TaskDispatch.job (opts : TaskDispatch) (id : String) (now : Moment) (harness : Bool)
    (requiredCapability : Option String) :
    JobRow where
  id := id
  userId := opts.userId
  productId := opts.productId
  taskId := some opts.taskId
  ideaId := none
  sprintRunId := none
  sprintSequence := none
  kind := .taskImplementation
  status := .queued
  runtime := if harness then .harness else .claude
  source := .copilot
  requiredCapability := if harness then none else requiredCapability
  workerInstanceId := none
  dispatchRequestId := none
  dispatchCandidateId := none
  createdAt := now

/-! ## The managed transactions -/

/-- The checks of `snapshotTask`; `active` says that the task has an active
job. -/
def snapshotTask (input : Dispatch.DispatchInput) (read : TaskRead) (active : Bool) :
    Except Dispatch.DispatchErrorCode Unit :=
  if input.action ≠ .taskImplementation then
    .ok ()
  else do
    let task ← require read.task .forbidden
    ensure (task.productId = input.productId) .forbidden
    ensure (task.status = .toDo ∧ active = false ∧ read.executing = false)
      .stateConflict
    let url ← require (read.repositories.repository.bind id) .forbidden
    ensure (url ≠ "" ∧
      task.repoUrl.or (read.repositories.product.bind id) = some url) .forbidden

/-- `lockManagedTask`; `active` says that the task has an active job of another
request, or of none. -/
def lockManagedTask (request : Dispatch.RequestRow) (read : TaskRead) (active : Bool) :
    Except Dispatch.DispatchErrorCode Unit :=
  if request.input.action ≠ .taskImplementation then
    .ok ()
  else do
    let task ← require read.task .forbidden
    ensure (task.productId = request.productId) .forbidden
    ensure ((task.dispatchRequestId = none ∨
        task.dispatchRequestId = some request.id) ∧
      task.status = .toDo ∧ active = false ∧ read.executing = false)
      .stateConflict
    let url ← require (read.repositories.repository.bind id) .forbidden
    ensure (url ≠ "" ∧
      task.repoUrl.or (read.repositories.product.bind id) = some url ∧
        read.repositories.accepted = some url) .forbidden

section Checks

variable {opts : TaskDispatch} {read : TaskRead} {existing : Option String}
  {request : Dispatch.RequestRow} {active : Bool}

/-- The ordinary dispatch goes on only without an active job. -/
theorem dispatchTaskImplementation_ok {task : Option LockedTask}
    (passed : dispatchTaskImplementation opts task existing = .ok ()) :
    existing = none := by
  simp only [dispatchTaskImplementation, bind_eq_ok, require_eq_ok, ensure_eq_ok] at passed
  obtain ⟨_, _, _, _, _, _, _, _, idle⟩ := passed
  exact idle

/-- The reservation of a task goes on only without an active job of others. -/
theorem lockManagedTask_ok (task : request.input.action = .taskImplementation)
    (passed : lockManagedTask request read active = .ok ()) :
    active = false := by
  simp only [lockManagedTask, ne_eq, task, not_true_eq_false, if_false,
    bind_eq_ok, require_eq_ok, ensure_eq_ok] at passed
  obtain ⟨_, _, _, _, _, ⟨_, _, idle, _⟩, _⟩ := passed
  exact idle

end Checks

end Tasks
end Scrum4Me
