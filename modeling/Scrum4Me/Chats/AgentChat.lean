import Scrum4Me.Chats.CostReports

/-!
# Conversations with an agent

A job answers one message of a chat. `applyAgentChatTransition` writes the status
of the job, its report of cost and the answer in one transaction, whose first
statement locks the row of the job and whose last read locks the chat. Other
transactions may come between its statements, except where a lock makes them
wait; what it wrote appears when it commits.
-/

namespace Scrum4Me
namespace Chats

open Foundation Jobs

/-! ## The call -/

/-- The input of `applyAgentChatTransition`. `read` is the row as the call first
saw it, at any earlier moment. -/
structure Transition where
  jobId : String
  tokenId : String
  status : ReportStatus
  summary : Option String
  error : Option String
  read : JobRow
  costReport : Option CostReport
  now : Moment
  /-- Cost is reported at the end. -/
  settled : costReport ≠ none → status ≠ .running
  deriving DecidableEq

/-- What the transition writes to the job. -/
def Transition.report (transition : Transition) : Report where
  status := transition.status
  summary := transition.summary
  error := transition.error

/-- The guarded update of the job. -/
def Transition.statement (transition : Transition) : Statement :=
  .agentChatTransition transition.jobId transition.tokenId transition.report
    transition.read transition.now

/-- `status === 'done' && summary`. -/
def Transition.Answers (transition : Transition) : Prop :=
  transition.status = .done ∧ ¬ Falsy transition.summary

instance (transition : Transition) : Decidable transition.Answers :=
  inferInstanceAs (Decidable (_ ∧ _))

/-- The arguments of `update_job_status` that a chat uses. -/
structure ReportArguments where
  jobId : String
  status : ReportStatus
  summary : Option String
  error : Option String
  cost : Option CostReportInput
  deriving DecidableEq

/-- The status in an error. -/
def statusText : JobStatus → String
  | .queued => "queued"
  | .claimed => "claimed"
  | .running => "running"
  | .done => "done"
  | .failed => "failed"
  | .cancelled => "cancelled"
  | .skipped => "skipped"

/-- `JOB_CANCELLED_ERROR`. -/
def jobCancelledError : String :=
  "JOB_CANCELLED: This job was cancelled by the PBI fail-cascade. " ++
    "Discard your local changes and call wait_for_job for the next item."

def permissionDenied : String :=
  "PERMISSION_DENIED: This job was not claimed by your token"

def notFound (jobId : String) : String := "Job " ++ jobId ++ " not found"

def alreadyTerminal (status : JobStatus) : String :=
  "Job is already in terminal state: " ++ statusText status

/-- The report of cost, when there is one, with its check. -/
def costOf (isHarnessJobKind : JobKind → Bool) (job : JobRow) (requestedModel : Option String)
    (arguments : ReportArguments) :
    Except String
      { cost : Option CostReport // cost ≠ none → arguments.status ≠ .running } :=
  match arguments.cost with
  | none => .ok ⟨none, fun present => absurd rfl present⟩
  | some cost =>
      match checked : checkCostReport isHarnessJobKind job requestedModel
        arguments.status cost with
      | .ok report =>
          .ok ⟨some report, fun _ => status_ne_running_of_checkCostReport checked⟩
      | .error error => .error error

/-- `update_job_status` on a job of a chat, up to its transaction. -/
def updateJobStatus (isHarnessJobKind : JobKind → Bool) (read : Option JobRow)
    (requestedModel : Option String) (tokenId : String) (arguments : ReportArguments)
    (now : Moment) :
    Except String Transition := do
  let job ← require read (notFound arguments.jobId)
  ensure job.Unmanaged "DISPATCH_MANAGED_ROW"
  ensure (job.claimedByTokenId = some tokenId) permissionDenied
  ensure (job.status ≠ .cancelled) jobCancelledError
  ensure job.status.Held (alreadyTerminal job.status)
  let costReport ← costOf isHarnessJobKind job requestedModel arguments
  ensure (arguments.status ≠ .skipped)
    ("'skipped' is alleen toegestaan voor TASK_IMPLEMENTATION of DEPLOY (kind=" ++
      job.kind.text ++ ")")
  ensure (arguments.status = .done → trimmed arguments.summary ≠ [])
    "AGENT_CHAT done vereist een non-empty summary; die wordt het antwoord in de chat."
  return {
    jobId := arguments.jobId
    tokenId := tokenId
    status := arguments.status
    summary := arguments.summary
    error := arguments.error
    read := job
    costReport := costReport.1
    now := now
    settled := costReport.2 }

/-! ## Tables -/

/-- `agent_chats`. -/
structure ChatRow where
  id : String
  updatedAt : Moment
  deriving DecidableEq

/-- `agent_chat_jobs`: the chat of a job, as long as the chat exists. -/
structure ChatJobRow where
  jobId : String
  chatId : Option String
  deriving DecidableEq

/-- `AgentChatRole`. -/
inductive ChatRole
  | user | assistant
  deriving DecidableEq

/-- `agent_chat_messages`. -/
structure ChatMessageRow where
  chatId : String
  role : ChatRole
  content : String
  jobId : Option String
  deriving DecidableEq

/-- `job_cost_reports`. -/
structure JobCostReportRow where
  jobId : String
  report : CostReport
  reportedAt : Moment
  deriving DecidableEq

/-- How far a transaction is that updated the row of its job. -/
inductive Stage
  | updated
  /-- `link?.chat_id` was read. -/
  | linked (chatId : Option String)
  /-- The chat was locked `FOR KEY SHARE`, if there was one. -/
  | shared (chatId : Option String)
  deriving DecidableEq

/-- The chat that the transaction has read. -/
def Stage.chatId? : Stage → Option String
  | .updated => none
  | .linked chatId => chatId
  | .shared chatId => chatId

/-- The chat that the transaction has locked. -/
def Stage.sharedChat? : Stage → Option String
  | .shared chatId => chatId
  | _ => none

/-- An `applyAgentChatTransition` that holds the row of its job. -/
structure Opened where
  transition : Transition
  stage : Stage
  deriving DecidableEq

/-- Nothing is left to do but to commit. -/
def Opened.Finished (opened : Opened) : Prop :=
  match opened.stage with
  | .updated => ¬ opened.transition.Answers
  | .linked _ => False
  | .shared _ => True

instance (opened : Opened) : Decidable opened.Finished := by
  unfold Opened.Finished
  cases opened.stage <;> infer_instance

/-- The answer that the transaction creates. -/
def Opened.answer (opened : Opened) : Option ChatMessageRow :=
  if opened.transition.Answers then
    opened.stage.sharedChat?.map fun chatId =>
      { chatId := chatId
        role := .assistant
        content := opened.transition.summary.getD ""
        jobId := some opened.transition.jobId }
  else none

/-- The row of cost that the transaction creates, or rewrites. -/
def Opened.cost (opened : Opened) : Option JobCostReportRow :=
  opened.transition.costReport.map fun report =>
    { jobId := opened.transition.jobId
      report := report
      reportedAt := opened.transition.now }

/-- `jobCostReport.upsert`. -/
def upsert (costs : List JobCostReportRow) (row : JobCostReportRow) :
    List JobCostReportRow :=
  if row.jobId ∈ costs.map (·.jobId) then
    updateWhere (fun cost => cost.jobId = row.jobId) (fun _ => row) costs
  else costs ++ [row]

structure World where
  jobs : List JobRow
  chats : List ChatRow
  links : List ChatJobRow
  messages : List ChatMessageRow
  costs : List JobCostReportRow
  opened : List Opened
  deriving DecidableEq

namespace World

variable (world : World)

def job? (jobId : String) : Option JobRow :=
  world.jobs.find? fun job => job.id = jobId

def chatIds : List String := world.chats.map (·.id)

/-- `link?.chat_id`. -/
def chatId? (jobId : String) : Option String :=
  (world.links.find? fun link => link.jobId = jobId).bind (·.chatId)

/-- The answers to a job. -/
def answers (jobId : String) : List ChatMessageRow :=
  world.messages.filter fun message =>
    message.role = .assistant ∧ message.jobId = some jobId

/-- The cost of a job. -/
def costsOf (jobId : String) : List JobCostReportRow :=
  world.costs.filter fun cost => cost.jobId = jobId

/-- The rows of jobs that open transactions hold. -/
def locked : List String := world.opened.map (·.transition.jobId)

/-- The chats that open transactions hold. -/
def sharedChats : List String := world.opened.filterMap (·.stage.sharedChat?)

/-- The identifiers of chats that any row or call knows. -/
def knownChats : List String :=
  world.chatIds ++ world.links.filterMap (·.chatId) ++
    world.messages.map (·.chatId) ++ world.opened.filterMap (·.stage.chatId?)

/-- The identifiers of jobs that any row knows. -/
def knownJobs : List String :=
  world.jobs.map (·.id) ++ world.links.map (·.jobId) ++
    world.messages.filterMap (·.jobId) ++ world.costs.map (·.jobId)

/-- The empty database. -/
def empty : World where
  jobs := []
  chats := []
  links := []
  messages := []
  costs := []
  opened := []

end World

/-! ## Steps -/

/-- The statements on jobs that any worker may issue for a chat: claims, the
sweep, the lease, everything that gives a claim back, and `skipAgentChatJob`. -/
def Plain : Statement → Prop
  | .tryClaimJob .. => True
  | .staleFailed .. => True
  | .staleRequeued .. => True
  | .refreshOwnership .. => True
  | .rollbackClaim .. => True
  | .releaseMismatchedClaim .. => True
  | .skipAgentChatJob .. => True
  | _ => False

instance (statement : Statement) : Decidable (Plain statement) := by
  apply @Statement.casesOn (fun statement => Decidable (Plain statement)) statement <;>
    intros <;> dsimp only [Plain] <;> infer_instance

/-- One transaction, or one statement of `applyAgentChatTransition`. Chats, the
questions of users, the end of a chat and the cancellation of a job come from
elsewhere. -/
inductive Step
  | createChat (row : ChatRow)
  | ask (job : JobRow) (chatId content : String)
  | deleteChat (id : String)
  | cancel (cancelled : JobRow)
  | plain (statement : Statement)
  | updateMany (transition : Transition)
  | readLink (opened : Opened)
  | keyShare (opened : Opened)
  | commit (opened : Opened)
  | rollback (opened : Opened)

/-- A statement on jobs waits for the rows that it selects. -/
def Unlocked (world : World) (statement : Statement) : Prop :=
  ∀ job ∈ world.jobs, statement.Selects job → job.id ∉ world.locked

instance (world : World) (statement : Statement) :
    Decidable (Unlocked world statement) :=
  inferInstanceAs (Decidable (∀ _ ∈ _, _))

namespace Step

/-- The step can be taken in this state. -/
def Enabled (world : World) : Step → Prop
  | createChat row => row.id ∉ world.knownChats
  | ask job chatId _ =>
      job.status = .queued ∧ job.id ∉ world.knownJobs ∧
        chatId ∈ world.chatIds
  -- The lock on a chat keeps it from being deleted.
  | deleteChat id => id ∉ world.sharedChats
  | cancel cancelled =>
      cancelled.status = .cancelled ∧ cancelled.id ∉ world.locked ∧
        ∃ job ∈ world.jobs, job.id = cancelled.id ∧ job.status.Active
  | plain statement => Plain statement ∧ Unlocked world statement
  | updateMany transition => Unlocked world transition.statement
  | readLink opened =>
      opened ∈ world.opened ∧ opened.stage = .updated ∧
        opened.transition.Answers
  | keyShare opened =>
      opened ∈ world.opened ∧ opened.stage = .linked opened.stage.chatId?
  | commit opened => opened ∈ world.opened ∧ opened.Finished
  | rollback opened => opened ∈ world.opened

instance (world : World) (step : Step) : Decidable (step.Enabled world) := by
  apply @Step.casesOn (fun step => Decidable (step.Enabled world)) step <;>
    intros <;> dsimp only [Enabled] <;> infer_instance

end Step

/-- The chat is gone: its messages with it, its links empty. -/
def World.withoutChat (world : World) (id : String) : World :=
  { world with
    chats := world.chats.filter fun chat => chat.id ≠ id
    messages := world.messages.filter fun message => message.chatId ≠ id
    links := updateWhere (fun link => link.chatId = some id)
      (fun link => { link with chatId := none }) world.links }

/-- The transaction goes on. -/
def World.advance (world : World) (opened : Opened) (stage : Stage) : World :=
  { world with
    opened := world.opened.erase opened ++ [{ opened with stage := stage }] }

/-- What the transaction wrote becomes visible. -/
def World.committed (world : World) (opened : Opened) : World :=
  { world with
    jobs := world.jobs.map opened.transition.statement.apply
    costs := opened.cost.elim world.costs (upsert world.costs)
    messages := world.messages ++ opened.answer.toList
    chats := updateWhere (fun chat => some chat.id ∈ opened.answer.map (·.chatId))
      (fun chat => { chat with updatedAt := opened.transition.now }) world.chats
    opened := world.opened.erase opened }

/-- The step, when it can be taken. -/
def perform (world : World) : Step → World
  | .createChat row => { world with chats := world.chats ++ [row] }
  | .ask job chatId content =>
      { world with
        jobs := world.jobs ++ [job]
        links := world.links ++ [⟨job.id, some chatId⟩]
        messages := world.messages ++ [⟨chatId, .user, content, some job.id⟩] }
  | .deleteChat id => world.withoutChat id
  | .cancel cancelled =>
      { world with
        jobs := updateWhere (fun job => job.id = cancelled.id) (fun _ => cancelled) world.jobs }
  | .plain statement =>
      { world with jobs := world.jobs.map statement.apply }
  | .updateMany transition =>
      -- Without a row the transaction reads again and ends.
      if ∃ job ∈ world.jobs, transition.statement.Selects job then
        { world with opened := world.opened ++ [⟨transition, .updated⟩] }
      else world
  | .readLink opened =>
      world.advance opened (.linked (world.chatId? opened.transition.jobId))
  | .keyShare opened =>
      world.advance opened (.shared (opened.stage.chatId?.filter (· ∈ world.chatIds)))
  | .commit opened => world.committed opened
  | .rollback opened =>
      { world with opened := world.opened.erase opened }

def execute (world : World) (step : Step) : World :=
  if step.Enabled world then perform world step else world

/-- `AgentChatTransitionResult`. -/
inductive TransitionResult
  | ok (updated : JobRow) (wrote : Bool)
  | error (message : String)
  deriving DecidableEq

/-- The answer of a transition that updated no row. -/
def reread (world : World) (transition : Transition) : TransitionResult :=
  match world.job? transition.jobId with
  | none => .error (notFound transition.jobId)
  | some current =>
      if current.claimedByTokenId ≠ some transition.tokenId then
        .error permissionDenied
      else if current.status = .cancelled then .error jobCancelledError
      else if transition.status = .running ∧ current.status = .running then
        .ok current false
      else .error (alreadyTerminal current.status)

end Chats
end Scrum4Me
