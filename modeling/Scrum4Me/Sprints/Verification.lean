import Scrum4Me.Foundation.Execution
import Scrum4Me.Foundation.Newest
import Scrum4Me.Foundation.Table
import Scrum4Me.Foundation.Transaction
import Scrum4Me.Jobs.Machine

/-!
# Verifying the tasks of a sprint

The job of a sprint works on its task executions one after the other. Each is verified
from the head of the one before it that was done, `update_task_execution` records where
an execution ended, and the job may only end when `checkSprintVerifyGate` allows it.
-/

namespace Scrum4Me
namespace Sprints

open Foundation Jobs

/-! ## Rows -/

/-- A commit on the branch of the job, by the number of commits up to it. -/
abbrev Sha := Nat

inductive ExecutionStatus
  | pending | running | done | failed | skipped
  deriving DecidableEq

inductive VerifyResult
  | aligned | partialMatch | empty | divergent
  deriving DecidableEq

def VerifyResult.text : VerifyResult → String
  | .aligned => "ALIGNED"
  | .partialMatch => "PARTIAL"
  | .empty => "EMPTY"
  | .divergent => "DIVERGENT"

inductive VerifyRequired
  | aligned | alignedOrPartial | any
  deriving DecidableEq

/-- `sprint_task_executions`, with the code and the title of the task. -/
structure TaskExecution where
  id : String
  order : Nat
  taskCode : String
  taskTitle : String
  status : ExecutionStatus
  baseSha : Option Sha
  headSha : Option Sha
  planSnapshot : String
  verifyRequiredSnapshot : VerifyRequired
  verifyOnlySnapshot : Bool
  verifyResult : Option VerifyResult
  verifySummary : Option String
  skipReason : Option String
  startedAt : Option String
  finishedAt : Option String
  deriving DecidableEq

/-- What the tools read of the job. -/
structure SprintJob where
  claimedByTokenId : Option String
  status : JobStatus
  kind : JobKind
  /-- The job, or a task of it, belongs to a dispatch. -/
  managed : Bool
  baseSha : Sha
  deriving DecidableEq

/-- The job with its executions, and HEAD of its worktree. -/
structure Rows where
  job : SprintJob
  executions : List TaskExecution
  head : Sha
  deriving DecidableEq

/-- A task as the claim freezes it. -/
structure TaskSnapshot where
  executionId : String
  code : String
  title : String
  implementationPlan : Option String
  verifyRequired : VerifyRequired
  verifyOnly : Bool
  deriving DecidableEq

/-- The execution that the claim creates for the task at this place. -/
def TaskSnapshot.execution (task : TaskSnapshot) (baseSha : Sha) (index : Nat) :
    TaskExecution where
  id := task.executionId
  order := index
  taskCode := task.code
  taskTitle := task.title
  status := .pending
  baseSha := if index = 0 then some baseSha else none
  headSha := none
  planSnapshot := task.implementationPlan.getD ""
  verifyRequiredSnapshot := task.verifyRequired
  verifyOnlySnapshot := task.verifyOnly
  verifyResult := none
  verifySummary := none
  skipReason := none
  startedAt := none
  finishedAt := none

def statusText : JobStatus → String
  | .queued => "QUEUED"
  | .claimed => "CLAIMED"
  | .running => "RUNNING"
  | .done => "DONE"
  | .failed => "FAILED"
  | .cancelled => "CANCELLED"
  | .skipped => "SKIPPED"

/-! ## `update_task_execution` -/

structure Update where
  executionId : String
  status : ExecutionStatus
  baseSha : Option Sha
  headSha : Option Sha
  skipReason : Option String
  deriving DecidableEq

/-- The row after a call that resolved this head. -/
def TaskExecution.update (execution : TaskExecution) (call : Update) (effectiveHeadSha : Option Sha)
    (now : String) : TaskExecution :=
  { execution with
    status := call.status
    baseSha := call.baseSha.or execution.baseSha
    headSha := effectiveHeadSha.or execution.headSha
    skipReason := call.skipReason.or execution.skipReason
    startedAt := if call.status = .running then some now else execution.startedAt
    finishedAt :=
      if call.status = .done ∨ call.status = .failed ∨ call.status = .skipped then some now
      else execution.finishedAt }

namespace Rows

variable (rows : Rows)

def execution? (executionId : String) : Option TaskExecution :=
  rows.executions.find? (·.id = executionId)

/-- What `rev-parse HEAD` answers in the worktree. -/
def resolveWorktreeHead (resolves : Bool) : Option Sha :=
  if resolves = true then some rows.head else none

/-- The head that a call writes. -/
def effectiveHead (call : Update) (resolves : Bool) : Option Sha :=
  if call.status = .done ∧ call.headSha = none then rows.resolveWorktreeHead resolves
  else call.headSha

def updateTaskExecution (tokenId : String) (call : Update) (resolves : Bool)
    (now : String) : Except String (Rows × Unit) := do
  let execution ← require (rows.execution? call.executionId)
    ("SprintTaskExecution " ++ call.executionId ++ " not found")
  ensure (rows.job.managed = false) "DISPATCH_MANAGED_ROW"
  ensure (rows.job.kind = .sprintImplementation)
    ("Execution " ++ call.executionId ++ " hangs at job kind " ++ rows.job.kind.text ++
      ", expected SPRINT_IMPLEMENTATION")
  ensure (rows.job.claimedByTokenId = some tokenId)
    ("Forbidden: token does not own SPRINT_IMPLEMENTATION job for execution " ++
      call.executionId)
  ensure (rows.job.status = .claimed ∨ rows.job.status = .running)
    ("Sprint job is in terminal state " ++ statusText rows.job.status)
  pure ({ rows with
    executions := updateWhere (·.id = execution.id)
      (·.update call (rows.effectiveHead call resolves) now) rows.executions }, ())

/-! ## `verify_sprint_task` -/

/-- The nearest execution before it that is done with a head. -/
def previousDone (execution : TaskExecution) : Option TaskExecution :=
  (newestFirst TaskExecution.order (rows.executions.filter fun other =>
      other.order < execution.order ∧ other.status = .done ∧ other.headSha ≠ none)).head?

/-- What an execution is verified against. -/
def verifyBase (execution : TaskExecution) : Option Sha :=
  execution.baseSha.or ((rows.previousDone execution).bind (·.headSha))

/-- The base is stored before the diff is made. -/
def storeBase (executionId : String) (baseSha : Sha) : Rows :=
  { rows with
    executions := updateWhere (·.id = executionId)
      (fun execution => { execution with baseSha := some baseSha }) rows.executions }

def storeResult (executionId : String) (result : VerifyResult) (summary : Option String) : Rows :=
  { rows with
    executions := updateWhere (·.id = executionId) (fun execution =>
        { execution with
          verifyResult := some result
          verifySummary := summary.or execution.verifySummary })
      rows.executions }

end Rows

/-- A diff that a call made: `base...HEAD`. -/
structure Verification where
  executionId : String
  base : Sha
  head : Sha
  deriving DecidableEq

/-- A commit lies in the range of the diff. -/
def Verification.Holds (verification : Verification) (commit : Sha) : Prop :=
  verification.base < commit ∧ commit ≤ verification.head

instance (verification : Verification) (commit : Sha) :
    Decidable (verification.Holds commit) :=
  inferInstanceAs (Decidable (_ ∧ _))

/-- `verify_sprint_task`: the rows after the call, with the diff that it made. `diff` is
the answer of git, and `classify` is `classifyDiffAgainstPlan`. -/
def Rows.verifySprintTask (classify : String → String → VerifyResult) (rows : Rows)
    (tokenId executionId : String) (summary : Option String)
    (diff : Option String) : Rows × Except String Verification :=
  match rows.execution? executionId with
  | none => (rows, .error ("SprintTaskExecution " ++ executionId ++ " not found"))
  | some execution =>
      if rows.job.kind ≠ .sprintImplementation then
        (rows, .error ("Execution " ++ executionId ++ " hangs at job kind " ++
          rows.job.kind.text ++ ", expected SPRINT_IMPLEMENTATION"))
      else if rows.job.claimedByTokenId ≠ some tokenId then
        (rows, .error ("Forbidden: token does not own SPRINT_IMPLEMENTATION job for " ++
          "execution " ++ executionId))
      else
        match rows.verifyBase execution with
        | none =>
            (rows, .error ("MISSING_BASE_SHA: execution " ++ executionId ++
              " has no base_sha and no previous DONE-execution with head_sha. " ++
              "Did you skip update_task_execution(DONE) on a prior task?"))
        | some baseSha =>
            let filled := rows.storeBase executionId baseSha
            match diff with
            | none => (filled, .error "git diff failed in worktree")
            | some diff =>
                (filled.storeResult executionId (classify diff execution.planSnapshot)
                  summary,
                  .ok ⟨executionId, baseSha, rows.head⟩)

/-! ## `checkSprintVerifyGate` -/

def summaryMinLength : Nat := 20

def checkVerifyGate (verifyResult : Option VerifyResult) (verifyOnly : Bool)
    (verifyRequired : VerifyRequired)
    (summary : Option String) : Except String Unit :=
  match verifyResult with
  | none => .error "Roep eerst verify_task_against_plan aan voordat je DONE markeert."
  | some .empty =>
      if verifyOnly = true then .ok ()
      else
        .error ("Plan-vs-implementatie verify gaf EMPTY. Geen wijzigingen gedetecteerd. " ++
          "Markeer de task als verify_only of pas de implementatie aan.")
  | some .aligned => .ok ()
  | some result =>
      match verifyRequired with
      | .any => .ok ()
      | .aligned =>
          .error ("Plan vereist ALIGNED maar verify gaf " ++ result.text ++ ". " ++
            "Pas de implementatie aan zodat alle plan-paden zijn afgedekt, " ++
            "of stel verify_required in op ALIGNED_OR_PARTIAL/ANY.")
      | .alignedOrPartial =>
          if (trimmed summary).length < summaryMinLength then
            .error ("Verify gaf " ++ result.text ++ ". Geef een summary (≥20 chars) die " ++
              "uitlegt waarom de implementatie afwijkt van het plan, of stel " ++
              "verify_required in op ANY.")
          else .ok ()

def TaskExecution.label (execution : TaskExecution) : String :=
  execution.taskCode ++ ": " ++ execution.taskTitle

/-- Why the execution keeps the job from ending. -/
def TaskExecution.blocker (execution : TaskExecution) : Option String :=
  match execution.status with
  | .pending => some ("[PENDING] " ++ execution.label ++ " — onafgemaakt werk")
  | .running => some ("[RUNNING] " ++ execution.label ++ " — onafgemaakt werk")
  | .failed => some ("[FAILED] " ++ execution.label)
  | .skipped =>
      if execution.verifyRequiredSnapshot ≠ .any then
        some ("[SKIPPED] " ++ execution.label ++
          " — alleen toegestaan bij verify_required=ANY")
      else none
  | .done =>
      match checkVerifyGate execution.verifyResult execution.verifyOnlySnapshot
          execution.verifyRequiredSnapshot execution.verifySummary with
      | .ok () => none
      | .error error => some ("[DONE-gate] " ++ execution.label ++ ": " ++ error)

def Rows.checkSprintVerifyGate (rows : Rows) : Except String Unit :=
  if rows.executions = [] then
    .error ("Sprint-job heeft geen SprintTaskExecution-rows. " ++
      "Dit duidt op een claim-bug; reclaim de sprint.")
  else
    let blockers :=
      (rows.executions.insertionSort fun first second => first.order ≤ second.order).filterMap
        TaskExecution.blocker
    if blockers = [] then .ok ()
    else
      .error ("Sprint kan niet DONE — " ++ toString blockers.length ++
        " task(s) blokkeren:\n" ++
        "\n".intercalate (blockers.map fun blocker => "  - " ++ blocker))

/-! ## The worker -/

/-- The rows, the execution that the worker is at, and the calls that it made. -/
structure World extends Rows where
  tokenId : String
  working : Nat
  /-- Whether `verify_sprint_task` was called for it. -/
  verified : Bool
  updates : List Update
  verifications : List Verification
  deriving DecidableEq

/-- The claim of a sprint job, on a worktree with this HEAD. -/
def World.claimed (tokenId : String) (tasks : List TaskSnapshot) (head : Sha) : World where
  job :=
    { claimedByTokenId := some tokenId
      status := .claimed
      kind := .sprintImplementation
      managed := false
      baseSha := head }
  executions := tasks.mapIdx fun index task => task.execution head index
  head := head
  tokenId := tokenId
  working := 0
  verified := false
  updates := []
  verifications := []

/-- The worker commits, has its execution verified, ends it, or makes an update again. -/
inductive Step
  | commit
  | verify (executionId : String) (summary : Option String) (diff : Option String)
  | finish (call : Update) (resolves : Bool) (now : String)
  | again (call : Update) (resolves : Bool) (now : String)
  deriving DecidableEq

/-- The worker is at this execution. -/
def World.At (world : World) (executionId : String) : Prop :=
  ∃ execution ∈ world.executions,
    execution.id = executionId ∧ execution.order = world.working

instance (world : World) (executionId : String) : Decidable (world.At executionId) :=
  inferInstanceAs (Decidable (∃ _ ∈ _, _))

/-- The order in which a worker works: commits, one verification, the end. It passes no
base and no head. -/
def Step.Follows (world : World) : Step → Prop
  | .commit => world.verified = false
  | .verify executionId _ _ => world.At executionId ∧ world.verified = false
  | .finish call _ _ =>
      world.At call.executionId ∧
        (call.status = .done ∧ world.verified = true ∨ call.status = .failed ∨
          call.status = .skipped) ∧
        call.baseSha = none ∧ call.headSha = none
  | .again call _ _ => call ∈ world.updates

instance (world : World) (step : Step) : Decidable (step.Follows world) := by
  apply @Step.casesOn (fun step => Decidable (step.Follows world)) step <;>
    intros <;> dsimp only [Step.Follows] <;> infer_instance

section Execute

variable (classify : String → String → VerifyResult)

def World.verify (world : World) (executionId : String) (summary diff : Option String) : World :=
  let result := world.verifySprintTask classify world.tokenId executionId summary diff
  { world with
    toRows := result.1
    verified := true
    verifications := world.verifications ++ result.2.toOption.toList }

def World.update (world : World) (call : Update) (resolves : Bool) (now : String) : World :=
  { world with
    toRows := commit (world.updateTaskExecution world.tokenId call resolves now)
      world.toRows }

def execute (world : World) : Step → World
  | .commit => { world with head := world.head + 1 }
  | .verify executionId summary diff => world.verify classify executionId summary diff
  | .finish call resolves now =>
      { world.update call resolves now with
        working := world.working + 1
        verified := false
        updates := world.updates ++ [call] }
  | .again call resolves now => world.update call resolves now

end Execute

end Sprints
end Scrum4Me
