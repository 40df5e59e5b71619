import Scrum4Me.Foundation.Execution
import Scrum4Me.Foundation.Table
import Scrum4Me.Jobs.Writers

/-!
# The deploy line of a product

Deploys are enqueued and ended under the lock of their product: a failure cancels what is
queued, and while it is not resolved nothing is enqueued automatically. Claims, rollbacks
and the sweep write deploy jobs without that lock.
-/

namespace Scrum4Me
namespace Deploys

open Foundation Jobs

/-! ## Rows -/

structure ProductRow where
  id : String
  autoDeploy : Bool
  deployFlow : Option String
  deriving DecidableEq

/-- `claude_jobs`, with the key of an automatic deploy. -/
structure DeployJob where
  row : JobRow
  orchestrationKey : Option String
  deriving DecidableEq

/-- The digits that a text begins with. -/
def leadingDigits (text : List Char) : List Char := text.takeWhile Char.isDigit

/-- `/([^/]+)\/([^/]+)\/pulls?\/(\d+)/`: owner, repository and number. -/
def pullReference : List (List Char) → Option (List Char × List Char × List Char)
  | owner :: repo :: pulls :: number :: rest =>
      if owner ≠ [] ∧ repo ≠ [] ∧ (pulls = "pull".toList ∨ pulls = "pulls".toList) ∧
          leadingDigits number ≠ [] then
        some (owner, repo, leadingDigits number)
      else pullReference (repo :: pulls :: number :: rest)
  | _ => none

def buildDeployOrchestrationKey (prUrl headSha : String) : String :=
  let ref := (pullReference (prUrl.toList.splitOn '/')).elim prUrl fun found =>
    String.ofList (found.1 ++ '/' :: found.2.1 ++ '#' :: found.2.2)
  "auto:deploy:" ++ ref ++ "@" ++ headSha

structure EnqueueInput where
  parentJobId : String
  userId : String
  prUrl : String
  headSha : String
  deriving DecidableEq

/-! ## Under the lock -/

/-- Who holds the lock of the product, and how far it is. -/
inductive Locked
  /-- `maybeEnqueueDeployJob`; `eligible` when it may create. -/
  | enqueue (input : EnqueueInput) (eligible : Bool)
  /-- `dispatchDeploy`; `free` when it may create. -/
  | dispatch (userId : String) (free : Bool)
  /-- `applyDeployTerminalUpdate`, with the queue that a failure has read. -/
  | terminal (jobId : String) (report : Report) (queued : Option (List String))
  deriving DecidableEq

structure World where
  product : ProductRow
  jobs : List DeployJob
  holder : Option Locked
  deriving DecidableEq

/-- A deploy of the product. -/
def DeployJob.Of (product : ProductRow) (job : DeployJob) : Prop :=
  job.row.productId = product.id ∧ job.row.kind = .deploy

instance (product : ProductRow) (job : DeployJob) : Decidable (job.Of product) :=
  inferInstanceAs (Decidable (_ ∧ _))

/-- It failed, and nobody resolved that. -/
def DeployJob.Unresolved (job : DeployJob) : Prop :=
  job.row.status = .failed ∧ job.row.resolvedAt = none

instance (job : DeployJob) : Decidable job.Unresolved :=
  inferInstanceAs (Decidable (_ ∧ _))

/-- It was enqueued automatically. -/
def DeployJob.Automatic (job : DeployJob) : Prop := job.orchestrationKey ≠ none

instance (job : DeployJob) : Decidable job.Automatic :=
  inferInstanceAs (Decidable (_ ≠ _))

/-- A new deploy job. -/
def newDeploy (productId id userId : String) (source : JobSource) (now : Moment) : JobRow where
  id := id
  userId := userId
  productId := productId
  taskId := none
  ideaId := none
  sprintRunId := none
  sprintSequence := none
  kind := .deploy
  status := .queued
  runtime := .claude
  source := source
  requiredCapability := some "deploy"
  workerInstanceId := none
  dispatchRequestId := none
  dispatchCandidateId := none
  createdAt := now

namespace World

variable (world : World)

/-- A failure of the product is not resolved. -/
def Blocked : Prop := ∃ job ∈ world.jobs, job.Of world.product ∧ job.Unresolved

instance : Decidable world.Blocked := inferInstanceAs (Decidable (∃ _ ∈ _, _))

/-- An automatic deploy of the product is queued. -/
def Waiting : Prop :=
  ∃ job ∈ world.jobs, job.Of world.product ∧ job.Automatic ∧ job.row.status = .queued

instance : Decidable world.Waiting := inferInstanceAs (Decidable (∃ _ ∈ _, _))

/-- `readDeployEligibility`. -/
def Eligible : Prop :=
  world.product.autoDeploy = true ∧ world.product.deployFlow ≠ none ∧ ¬ world.Blocked

instance : Decidable world.Eligible := inferInstanceAs (Decidable (_ ∧ _ ∧ _))

def unlocked : World := { world with holder := none }

/-- One statement on all jobs. -/
def write (statement : Statement) : World :=
  { world with
    jobs := world.jobs.map fun job => { job with row := statement.apply job.row } }

def insert (job : DeployJob) : World := { world with jobs := world.jobs ++ [job] }

/-- The queue that a failure cancels; the job that failed is no part of it. -/
def queue (jobId : String) : List String :=
  (world.jobs.filter fun job =>
    job.Of world.product ∧ job.row.status = .queued ∧ job.row.id ≠ jobId).map (·.row.id)

/-- The next read of the holder. -/
def read : Locked → World
  | .enqueue input _ =>
      if world.Eligible then { world with holder := some (.enqueue input true) }
      else world.unlocked
  | .dispatch userId _ =>
      if world.product.deployFlow ≠ none ∧
          ∀ job ∈ world.jobs, job.Of world.product → ¬ job.row.status.Active then
        { world with holder := some (.dispatch userId true) }
      else world.unlocked
  | .terminal jobId report _ =>
      { world with holder := some (.terminal jobId report (some (world.queue jobId))) }

/-- The writes of the holder and its commit. -/
def finish (id : String) (now : Moment) : Locked → World
  | .enqueue input eligible =>
      if eligible = true ∧ ∀ job ∈ world.jobs, job.orchestrationKey ≠
          some (buildDeployOrchestrationKey input.prUrl input.headSha) then
        (world.insert
          { row :=
              { newDeploy world.product.id id input.userId .system now with
                prUrl := some input.prUrl
                headSha := some input.headSha }
            orchestrationKey :=
              some (buildDeployOrchestrationKey input.prUrl input.headSha) }).unlocked
      else world.unlocked
  | .dispatch userId free =>
      if free = true then
        (world.insert ⟨newDeploy world.product.id id userId .manual now, none⟩).unlocked
      else world.unlocked
  | .terminal jobId report queued =>
      match report.status with
      | .failed =>
          -- A failure that has not read the queue yet cannot commit.
          queued.elim world fun ids =>
            ((world.write (.deployTerminal jobId report now)).write
              (.cancelDeploys ids jobId now)).unlocked
      | .done =>
          ((world.write (.deployTerminal jobId report now)).write
            (.resolveDeploys jobId world.product.id now)).unlocked
      | _ => (world.write (.deployTerminal jobId report now)).unlocked

end World

/-! ## Without the lock -/

/-- Claims, the sweep, the lease, what gives a claim back, and the report of a start. -/
def Unlocked : Statement → Prop
  | .tryClaimJob .. => True
  | .staleFailed .. => True
  | .staleRequeued .. => True
  | .refreshOwnership .. => True
  | .rollbackClaim .. => True
  | .releaseMismatchedClaim .. => True
  | .updateJobStatus _ report _ _ => report.status = .running
  | _ => False

instance (statement : Statement) : Decidable (Unlocked statement) := by
  apply @Statement.casesOn (fun statement => Decidable (Unlocked statement)) statement <;>
    intros <;> dsimp only [Unlocked] <;> infer_instance

/-- A write that does not take the lock. -/
inductive Writer
  | issue (statement : Statement)
  /-- `rollbackClaim` without an owner. -/
  | rollbackUnowned (jobId : String)

namespace Writer

def Selects : Writer → JobRow → Prop
  | issue statement, row => statement.Selects row
  | rollbackUnowned jobId, row => row.id = jobId ∧ row.dispatchRequestId = none

instance (writer : Writer) (row : JobRow) : Decidable (writer.Selects row) := by
  apply @Writer.casesOn (fun writer => Decidable (writer.Selects row)) writer <;>
    intros <;> dsimp only [Selects] <;> infer_instance

def set : Writer → JobRow → JobRow
  | issue statement, row => statement.set row
  | rollbackUnowned _, row => row.unclaimed

def target : Writer → Option JobStatus
  | issue statement => statement.target
  | rollbackUnowned _ => some .queued

def Free : Writer → Prop
  | issue statement => Unlocked statement
  | rollbackUnowned _ => True

instance (writer : Writer) : Decidable writer.Free := by
  apply @Writer.casesOn (fun writer => Decidable writer.Free) writer <;>
    intros <;> dsimp only [Free] <;> infer_instance

def apply (writer : Writer) (row : JobRow) : JobRow :=
  if writer.Selects row then writer.set row else row

/-- The write is a claim. -/
def Claims : Writer → Prop
  | issue statement => statement.Claims
  | rollbackUnowned _ => False

instance (writer : Writer) : Decidable writer.Claims := by
  apply @Writer.casesOn (fun writer => Decidable writer.Claims) writer <;>
    intros <;> dsimp only [Claims] <;> infer_instance

end Writer

/-! ## Steps -/

/-- The configuration changes; a call takes the lock, reads, commits or is lost; a write
goes past the lock. -/
inductive Step
  | configure (autoDeploy : Bool) (deployFlow : Option String)
  | lock (call : Locked)
  | read
  | finish (id : String) (now : Moment)
  | lose
  | write (writer : Writer)

/-- A call that takes the lock has read nothing yet. -/
def Locked.Fresh : Locked → Prop
  | .enqueue _ eligible => eligible = false
  | .dispatch _ free => free = false
  | .terminal _ report queued => report.status ≠ .running ∧ queued = none

instance (call : Locked) : Decidable call.Fresh := by
  apply @Locked.casesOn (fun call => Decidable call.Fresh) call <;>
    intros <;> dsimp only [Locked.Fresh] <;> infer_instance

def Step.Enabled (world : World) : Step → Prop
  | .lock call => world.holder = none ∧ call.Fresh
  | .write writer => writer.Free
  | _ => True

instance (world : World) (step : Step) : Decidable (step.Enabled world) := by
  apply @Step.casesOn (fun step => Decidable (step.Enabled world)) step <;>
    intros <;> dsimp only [Step.Enabled] <;> infer_instance

def execute (world : World) : Step → World
  | .configure autoDeploy deployFlow =>
      { world with
        product := { world.product with autoDeploy := autoDeploy, deployFlow := deployFlow } }
  | .lock call => { world with holder := some call }
  | .read => world.holder.elim world world.read
  | .finish id now => world.holder.elim world (world.finish id now)
  | .lose => world.unlocked
  | .write writer =>
      { world with jobs := world.jobs.map fun job => { job with row := writer.apply job.row } }

/-- A product without jobs. -/
def World.initial (product : ProductRow) : World := ⟨product, [], none⟩

end Deploys
end Scrum4Me
