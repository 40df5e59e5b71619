import Scrum4Me.Tasks.Intake

/-!
# The tasks and their jobs

The dispatch store, the ordinary jobs and the sprint runs together, with the
transactions that put a task to work taken apart into their statements: lock the
task, look for active jobs, write. The lock of a task is held until its
transaction ends. A sprint start reads the runs of the sprint and writes later,
without any lock in between.
-/

namespace Scrum4Me
namespace Tasks

open Foundation Jobs

/-! ## Transactions in flight -/

/-- A transaction that locks a task. -/
inductive Intake
  /-- `dispatchTaskImplementation`. -/
  | dispatch (opts : TaskDispatch)
  /-- `submitDispatch`, of a task. -/
  | submit (input : Dispatch.DispatchInput)
  /-- `reserveRequest`, for a request of a task. -/
  | reserve (requestId : Uuid) (taskId : String)
  deriving DecidableEq

def Intake.taskId : Intake → String
  | dispatch opts => opts.taskId
  | submit input => input.taskId.getD ""
  | reserve _ taskId => taskId

/-- The transaction creates a job. -/
def Intake.Creates : Intake → Prop
  | submit _ => False
  | _ => True

instance (intake : Intake) : Decidable intake.Creates := by
  unfold Intake.Creates
  split <;> infer_instance

/-- A transaction that holds the lock of its task, before or after its
checks. -/
structure Flight where
  intake : Intake
  checked : Bool
  deriving DecidableEq

/-- `startSprintRunCore` after its read of the runs. -/
structure Starting where
  sprintId : String
  productId : String
  userId : String
  runs : List SprintRunRow
  deriving DecidableEq

structure World where
  store : Dispatch.Store
  /-- The jobs that are not managed. -/
  jobs : List JobRow
  runs : List SprintRunRow
  flights : List Flight
  starting : List Starting

def World.empty : World where
  store := .empty
  jobs := []
  runs := []
  flights := []
  starting := []

/-! ## Executors -/

/-- The job implements the task now. -/
def Executes (row : JobRow) (task : String) : Prop :=
  row.kind = .taskImplementation ∧ row.taskId = some task ∧ row.status.Active

instance (row : JobRow) (task : String) : Decidable (Executes row task) :=
  inferInstanceAs (Decidable (_ ∧ _))

/-- How many jobs implement the task now: ordinary, sprint and managed ones. -/
def World.executors (world : World) (task : String) : Nat :=
  world.jobs.countP (fun row => Executes row task) +
    world.store.allJobs.countP fun row => row.Executes task

/-- The active jobs of the task. -/
def World.activeJobs (world : World) (taskId : String) : List String :=
  (world.jobs.filter fun row =>
      row.taskId = some taskId ∧ row.status.Active).map (·.id) ++
    (world.store.allJobs.filter fun row =>
      row.taskId = some taskId ∧ row.status.Active).map fun row =>
        toString row.id

/-- The task has an active job that is not of the request. -/
def World.ActiveElsewhere (world : World) (requestId : Uuid) (taskId : String) :
    Prop :=
  (∃ row ∈ world.jobs, row.taskId = some taskId ∧ row.status.Active) ∨
    ∃ rows ∈ world.store.requests, rows.request.id ≠ requestId ∧
      ∃ row ∈ rows.jobs, row.taskId = some taskId ∧ row.status.Active

instance (world : World) (requestId : Uuid) (taskId : String) :
    Decidable (world.ActiveElsewhere requestId taskId) :=
  inferInstanceAs (Decidable (_ ∨ _))

/-! ## Steps -/

inductive Step
  | lock (intake : Intake)
  | check (intake : Intake) (read : TaskRead)
  /-- `dispatchTaskImplementation` creates the job and commits. -/
  | createJob (opts : TaskDispatch) (id : String) (now : Moment) (harness : Bool)
      (requiredCapability : Option String)
  /-- `submitDispatch` commits. -/
  | submit (input : Dispatch.DispatchInput) (env : Dispatch.Env)
      (actor : Dispatch.Actor) (key : String)
  /-- `reserveRequest` commits. -/
  | reserve (requestId : Uuid) (taskId : String) (env : Dispatch.Env)
  | rollback (flight : Flight)
  | readRuns (sprintId productId userId : String)
  | startSprintRun (start : Starting) (opts : SprintStart) (plan : SprintPlanning)
  | rollbackStart (start : Starting)
  /-- Any other job is created. -/
  | enqueue (row : JobRow)
  /-- A job is claimed, reported or swept. -/
  | write (statement : Statement)
  | setRun (runId : String) (status : SprintRunStatus)
  /-- Any other transaction of the dispatch service. -/
  | dispatch (input : Dispatch.Input)

namespace Step

/-- The checks of the transaction, on the task as it reads it and on the jobs as
they are. -/
def Passes (world : World) (read : TaskRead) : Intake → Prop
  | .dispatch opts =>
      (dispatchTaskImplementation opts read.task (world.activeJobs opts.taskId).head?).isOk = true
  | .submit input =>
      (snapshotTask input read (!(world.activeJobs (input.taskId.getD "")).isEmpty)).isOk = true
  | .reserve requestId taskId =>
      ∃ rows ∈ world.store.request? requestId,
        rows.request.identity.task = some taskId ∧ (lockManagedTask rows.request read
            (decide (world.ActiveElsewhere requestId taskId))).isOk = true

instance (world : World) (read : TaskRead) (intake : Intake) :
    Decidable (Passes world read intake) := by
  unfold Passes
  split <;> infer_instance

/-- A dispatch transaction that puts no task to work: a submission of something
else, a reservation without a task or one that is refused the task, or any
other. -/
def LeavesTasks (world : World) (input : Dispatch.Input) : Prop :=
  match input.action with
  | .submit _ submitted _ => submitted.action ≠ .taskImplementation
  | .reserve requestId =>
      ∀ rows ∈ world.store.request? requestId,
        rows.request.identity.task = none ∨ (input.env.lockManagedTask rows.request).isOk = false
  | _ => True

instance (world : World) (input : Dispatch.Input) :
    Decidable (LeavesTasks world input) := by
  unfold LeavesTasks
  split <;> infer_instance

/-- When the step can be taken. -/
def Ready (world : World) : Step → Prop
  | lock intake =>
      -- `FOR UPDATE` waits for the transaction that holds the row.
      ∀ flight ∈ world.flights, flight.intake.taskId ≠ intake.taskId
  | check intake read =>
      ⟨intake, false⟩ ∈ world.flights ∧ Passes world read intake
  | createJob opts .. => ⟨.dispatch opts, true⟩ ∈ world.flights
  | submit input env .. =>
      ⟨.submit input, true⟩ ∈ world.flights ∧ (env.snapshotTask input).isOk = true
  | reserve requestId taskId env =>
      ⟨.reserve requestId taskId, true⟩ ∈ world.flights ∧
        ∃ rows ∈ world.store.request? requestId,
          rows.request.identity.task = some taskId ∧ (env.lockManagedTask rows.request).isOk = true
  | rollback flight => flight ∈ world.flights
  | readRuns .. => True
  | startSprintRun start opts plan =>
      start ∈ world.starting ∧ opts.sprintId = start.sprintId ∧
        opts.productId = start.productId ∧ opts.userId = start.userId ∧
        plan.runs = start.runs ∧
        (startSprintRunCore opts plan).isOk = true ∧
        opts.runId ∉ world.runs.map (·.id) ∧
        -- Each task is read with one story.
        ((orderedTasks plan.stories).map (·.2.id)).Nodup
  | rollbackStart start => start ∈ world.starting
  | enqueue row => row.kind ≠ .taskImplementation
  | write statement =>
      -- A job is reported as running by the worker that holds it.
      statement.target = some .running →
        ∀ row ∈ world.jobs, statement.Selects row → row.status.Held
  | setRun .. => True
  | dispatch input => LeavesTasks world input

instance (world : World) (step : Step) : Decidable (step.Ready world) := by
  apply @Step.casesOn (fun step => Decidable (step.Ready world)) step <;>
    intros <;> dsimp only [Ready] <;> infer_instance

/-- What the step writes. -/
def apply (world : World) : Step → World
  | lock intake => { world with flights := world.flights ++ [⟨intake, false⟩] }
  | check intake _ =>
      { world with
        flights := world.flights.erase ⟨intake, false⟩ ++ [⟨intake, true⟩] }
  | createJob opts id now harness requiredCapability =>
      { world with
        jobs := world.jobs ++ [opts.job id now harness requiredCapability]
        flights := world.flights.erase ⟨.dispatch opts, true⟩ }
  | submit input env actor key =>
      { world with
        store := Dispatch.execute world.store ⟨env, .submit actor input key⟩
        flights := world.flights.erase ⟨.submit input, true⟩ }
  | reserve requestId taskId env =>
      { world with
        store := Dispatch.execute world.store ⟨env, .reserve requestId⟩
        flights := world.flights.erase ⟨.reserve requestId taskId, true⟩ }
  | rollback flight => { world with flights := world.flights.erase flight }
  | readRuns sprintId productId userId =>
      { world with
        starting :=
          world.starting ++ [⟨sprintId, productId, userId, world.runs⟩] }
  | startSprintRun start opts plan =>
      match startSprintRunCore opts plan with
      | .ok (run, jobs) =>
          { world with
            jobs := world.jobs ++ jobs
            runs := world.runs ++ [run]
            starting := world.starting.erase start }
      | .error _ => world
  | rollbackStart start =>
      { world with starting := world.starting.erase start }
  | enqueue row => { world with jobs := world.jobs ++ [row] }
  | write statement => { world with jobs := world.jobs.map statement.apply }
  | setRun runId status =>
      { world with
        runs := updateWhere (fun run => run.id = runId)
          (fun run => { run with status := status }) world.runs }
  | dispatch input =>
      { world with store := Dispatch.execute world.store input }

end Step

/-- One step; a step that is not ready changes nothing. -/
def execute (world : World) (step : Step) : World :=
  if step.Ready world then step.apply world else world

end Tasks
end Scrum4Me
