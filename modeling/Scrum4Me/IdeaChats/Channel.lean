import Scrum4Me.Foundation.Newest
import Scrum4Me.Jobs.Machine

/-!
# The channel of an idea

Users write into the channel of an idea and jobs answer there, one at a time. A
claim stores as cutoff the last message that its turn knows, the payload names
the messages of users that are still to be answered, and the end of a turn
queues the next one when messages came after its cutoff. All of that happens
under the lock of the idea, so each transaction is one step.
-/

namespace Scrum4Me
namespace IdeaChats

open Foundation Jobs

/-! ## Tables -/

/-- `ideas`. -/
structure IdeaRow where
  id : String
  productId : Option String
  deriving DecidableEq

/-- `IdeaChatRole`. -/
inductive IdeaChatRole
  | user | assistant
  deriving DecidableEq

/-- `idea_chat_messages`. -/
structure IdeaChatMessageRow where
  id : String
  ideaId : String
  role : IdeaChatRole
  content : String
  jobId : Option String
  createdAt : Moment
  deriving DecidableEq

/-- `idea_logs`, of the type `JOB_EVENT`. -/
structure IdeaLogRow where
  ideaId : String
  content : String
  jobId : String
  deriving DecidableEq

/-- A job, and the `pending_user_message_ids` of the payload that its current
claim, or its last one, was given. -/
structure Turn where
  row : JobRow
  payload : Option (List String)
  deriving DecidableEq

structure World where
  ideas : List IdeaRow
  messages : List IdeaChatMessageRow
  turns : List Turn
  logs : List IdeaLogRow
  deriving DecidableEq

/-! ## Cutoffs -/

/-- `chat_cutoff_at ?? created_at`. -/
def cutoffAt (row : JobRow) : Moment := row.chatCutoffAt.getD row.createdAt

/-- `chat_cutoff_message_id ?? ''`. -/
def cutoffId (row : JobRow) : String := row.chatCutoffMessageId.getD ""

namespace IdeaChatMessageRow

/-- The order of the channel. -/
def key (message : IdeaChatMessageRow) : Moment ×ₗ String :=
  toLex (message.createdAt, message.id)

/-- The message is at or before the cutoff of the job. -/
def AtOrBefore (message : IdeaChatMessageRow) (row : JobRow) : Prop :=
  message.createdAt < cutoffAt row ∨
    message.createdAt = cutoffAt row ∧ message.id ≤ cutoffId row

/-- The message is after the cutoff of the job. -/
def After (message : IdeaChatMessageRow) (row : JobRow) : Prop :=
  cutoffAt row < message.createdAt ∨
    message.createdAt = cutoffAt row ∧ cutoffId row < message.id

instance (message : IdeaChatMessageRow) (row : JobRow) :
    Decidable (message.AtOrBefore row) :=
  inferInstanceAs (Decidable (_ ∨ _))

instance (message : IdeaChatMessageRow) (row : JobRow) :
    Decidable (message.After row) :=
  inferInstanceAs (Decidable (_ ∨ _))

theorem after_iff {message : IdeaChatMessageRow} {row : JobRow} :
    message.After row ↔ ¬ message.AtOrBefore row := by
  unfold After AtOrBefore
  rw [not_or, not_and, not_lt]
  constructor
  · rintro (later | ⟨same, later⟩)
    · exact ⟨later.le, fun same => absurd same later.ne'⟩
    · exact ⟨same.ge, fun _ => not_le.2 later⟩
  · rintro ⟨later, tie⟩
    rcases later.lt_or_eq with strictly | same
    · exact .inl strictly
    · exact .inr ⟨same.symm, not_le.1 (tie same.symm)⟩

end IdeaChatMessageRow

/-- The job is a turn on this idea. -/
def Turn.On (turn : Turn) (ideaId : String) : Prop :=
  turn.row.kind = .ideaChat ∧ turn.row.ideaId = some ideaId

instance (turn : Turn) (ideaId : String) : Decidable (turn.On ideaId) :=
  inferInstanceAs (Decidable (_ ∧ _))

namespace World

variable (world : World)

/-- The last message of the channel, which a claim takes as its cutoff. -/
def lastMessage (ideaId : String) : Option IdeaChatMessageRow :=
  (newestFirst IdeaChatMessageRow.key
    (world.messages.filter fun message => message.ideaId = ideaId)).head?

/-- The cutoff that `tryClaimJob` writes. -/
def cutoff (ideaId : Option String) : Option (String × Moment) :=
  (ideaId.bind world.lastMessage).map fun message => (message.id, message.createdAt)

/-! ## The payload -/

/-- The newest fifty messages up to the cutoff of the job. -/
def history (row : JobRow) : List IdeaChatMessageRow :=
  (newestFirst IdeaChatMessageRow.key (world.messages.filter fun message =>
    some message.ideaId = row.ideaId ∧ message.AtOrBefore row)).take 50

/-- The order in which jobs finished; an absent moment comes first in a
descending query. -/
def finishKey (turn : Turn) : WithTop Moment ×ₗ String :=
  toLex (turn.row.finishedAt, turn.row.id)

/-- `lastDone`. -/
def lastDone (row : JobRow) : Option Turn :=
  (newestFirst finishKey (world.turns.filter fun turn =>
    turn.row.kind = .ideaChat ∧ turn.row.ideaId = row.ideaId ∧
      turn.row.status = .done ∧ turn.row.id ≠ row.id)).head?

/-- The message came after what the last finished turn knew. -/
def Open (row : JobRow) (message : IdeaChatMessageRow) : Prop :=
  ∀ turn ∈ world.lastDone row, message.After turn.row

instance (row : JobRow) (message : IdeaChatMessageRow) :
    Decidable (world.Open row message) :=
  inferInstanceAs (Decidable (∀ _ ∈ _, _))

/-- `pendingUserMessageIds`. -/
def pendingUserMessageIds (row : JobRow) : List String :=
  (((world.history row).filter fun message => message.role = .user).filter
    fun message => world.Open row message).reverse.map (·.id)

/-- Some turn on the idea is active. -/
def Busy (ideaId : String) : Prop :=
  ∃ turn ∈ world.turns, turn.On ideaId ∧ turn.row.status.Active

instance (ideaId : String) : Decidable (world.Busy ideaId) :=
  inferInstanceAs (Decidable (∃ _ ∈ _, _))

/-- A message of a user came after the cutoff of the job. -/
def Newer (row : JobRow) : Prop :=
  ∃ message ∈ world.messages, some message.ideaId = row.ideaId ∧
    message.role = .user ∧ message.After row

instance (row : JobRow) : Decidable (world.Newer row) :=
  inferInstanceAs (Decidable (∃ _ ∈ _, _))

def messageIds : List String := world.messages.map (·.id)

def turnIds : List String := world.turns.map (·.row.id)

end World

/-! ## Sending -/

/-- The input of `send_idea_chat_message`. -/
structure SendInput where
  productId : String
  ideaId : String
  content : String
  enqueue : Bool
  deriving DecidableEq

/-- What the database and the product choose when a message is sent. -/
structure SendValues where
  messageId : String
  jobId : String
  userId : String
  runtime : AgentRuntime
  now : Moment
  deriving DecidableEq

/-- The answer of `send_idea_chat_message`. -/
structure SendAnswer where
  messageId : String
  jobEnqueued : Bool
  coalesced : Bool
  jobId : Option String
  deriving DecidableEq

/-- The job that a message queues. -/
def queuedTurn (input : SendInput) (values : SendValues) : JobRow where
  id := values.jobId
  userId := values.userId
  productId := input.productId
  taskId := none
  ideaId := some input.ideaId
  sprintRunId := none
  sprintSequence := none
  kind := .ideaChat
  status := .queued
  runtime := values.runtime
  source := .system
  requiredCapability := none
  workerInstanceId := none
  dispatchRequestId := none
  dispatchCandidateId := none
  createdAt := values.now

/-- The transaction of `send_idea_chat_message`. -/
def sendIdeaChatMessage (world : World) (input : SendInput) (values : SendValues) :
    Except String (World × SendAnswer) := do
  let locked ← require (world.ideas.find? fun idea => idea.id = input.ideaId)
    "Idea not found"
  ensure (locked.productId = none ∨ locked.productId = some input.productId)
    "Idea not found"
  let persisted :=
    { world with
      messages := world.messages ++ [⟨values.messageId, input.ideaId, .user, input.content, none,
          values.now⟩] }
  if input.enqueue = false ∨ locked.productId = none then
    return (persisted, ⟨values.messageId, false, false, none⟩)
  else if world.Busy input.ideaId then
    return (persisted, ⟨values.messageId, false, true, none⟩)
  else
    return (
      { persisted with
        turns := world.turns ++ [⟨queuedTurn input values, none⟩]
        logs := world.logs ++ [⟨input.ideaId, "IDEA_CHAT queued", values.jobId⟩] },
      ⟨values.messageId, true, false, some values.jobId⟩)

/-! ## Turns -/

/-- A statement on the job. A claim has been given no payload yet. -/
def Turn.apply (turn : Turn) (statement : Statement) : Turn where
  row := statement.apply turn.row
  payload :=
    if statement.Claims ∧ statement.Selects turn.row then none else turn.payload

/-- The report that ends a turn, and what the database and the product choose
then. -/
structure Completion where
  tokenId : String
  report : Report
  answerId : String
  followUpId : String
  runtime : AgentRuntime
  now : Moment
  deriving DecidableEq

/-- The update of the job that ends. -/
def Completion.statement (completion : Completion) (turn : Turn) : Statement :=
  .updateJobStatus turn.row.id completion.report turn.row completion.now

/-- `ideaChatAnswer`. -/
def Completion.answer (completion : Completion) : String :=
  String.ofList (trimmed completion.report.summary)

/-- The end of a turn in `update_job_status`: the state, the answer, the log and
the next turn. -/
def complete (world : World) (completion : Completion) (turn : Turn) : World :=
  let ideaId := turn.row.ideaId.getD ""
  { world with
    turns := world.turns.map (·.apply (completion.statement turn)) ++
      if world.Newer turn.row then
        [⟨{ Jobs.Step.followUp turn.row completion.followUpId completion.now with
              runtime := completion.runtime }, none⟩]
      else []
    messages := world.messages ++
      if completion.report.status = .done then
        [⟨completion.answerId, ideaId, .assistant, completion.answer,
          some turn.row.id, completion.now⟩]
      else []
    logs := world.logs ++
      if completion.report.status = .failed then
        [⟨ideaId, "IDEA_CHAT failed", turn.row.id⟩]
      else [] }

/-! ## Steps -/

/-- The other statements on a job that is held: the sweep, the lease, a claim
given back, a job that cannot be prepared, and the report that it runs. -/
def Routine : Statement → Prop
  | .staleFailed .. => True
  | .staleRequeued .. => True
  | .refreshOwnership .. => True
  | .rollbackClaim .. => True
  | .releaseMismatchedClaim .. => True
  | .markJobTerminallyFailed .. => True
  | .updateJobStatus _ report _ _ => report.status = .running
  | _ => False

instance (statement : Statement) : Decidable (Routine statement) := by
  apply @Statement.casesOn (fun statement => Decidable (Routine statement)) statement <;>
    intros <;> dsimp only [Routine] <;> infer_instance

inductive Step
  | send (input : SendInput) (values : SendValues)
  | claim (worker : WorkerRow) (tables : WorkerTables) (turn : Turn)
      (planSnapshot : String) (now : Moment)
  | payload (turn : Turn)
  | complete (completion : Completion) (turn : Turn)
  | routine (statement : Statement)

/-- Messages of an idea are created one after the other. -/
def Later (world : World) (ideaId : Option String) (now : Moment) : Prop :=
  ∀ message ∈ world.messages, some message.ideaId = ideaId →
    message.createdAt < now

instance (world : World) (ideaId : Option String) (now : Moment) :
    Decidable (Later world ideaId now) :=
  inferInstanceAs (Decidable (∀ _ ∈ _, _))

namespace Step

/-- The statement of a claim, with the cutoff that it writes. -/
def claimStatement (world : World) (worker : WorkerRow) (tables : WorkerTables) (turn : Turn)
    (planSnapshot : String) (now : Moment) :
    Statement :=
  .tryClaimJob turn.row.id worker tables none planSnapshot (world.cutoff turn.row.ideaId) now

/-- The step can be taken: a message is enqueued on an idea with a product, and
a job is written under its current claim. A turn is answered once it has its
payload. -/
def Enabled (world : World) : Step → Prop
  | send input values =>
      input.enqueue = true ∧ input.ideaId ≠ "" ∧
        ((world.ideas.find? fun idea => idea.id = input.ideaId).bind
          (·.productId)) = some input.productId ∧
        values.messageId ∉ world.messageIds ∧ values.jobId ∉ world.turnIds ∧
        Later world (some input.ideaId) values.now
  | claim _ _ turn _ _ => turn ∈ world.turns
  | payload turn => turn ∈ world.turns ∧ turn.row.status.Held
  | complete completion turn =>
      turn ∈ world.turns ∧ turn.row.status.Held ∧
        turn.row.claimedByTokenId = some completion.tokenId ∧
        (completion.report.status = .done ∧ trimmed completion.report.summary ≠ [] ∧
            turn.payload ≠ none ∨
          completion.report.status = .failed) ∧
        completion.answerId ∉ world.messageIds ∧
        completion.followUpId ∉ world.turnIds ∧
        Later world turn.row.ideaId completion.now
  | routine statement =>
      Routine statement ∧
        ∀ turn ∈ world.turns, statement.Selects turn.row → turn.row.status.Held

instance (world : World) (step : Step) : Decidable (step.Enabled world) := by
  apply @Step.casesOn (fun step => Decidable (step.Enabled world)) step <;>
    intros <;> dsimp only [Enabled] <;> infer_instance

end Step

/-- The step, when it can be taken. -/
def perform (world : World) : Step → World
  | .send input values => commit (sendIdeaChatMessage world input values) world
  | .claim worker tables turn planSnapshot now =>
      { world with
        turns := world.turns.map (·.apply
          (Step.claimStatement world worker tables turn planSnapshot now)) }
  | .payload turn =>
      { world with
        turns := updateWhere (fun other => other.row.id = turn.row.id) (fun other =>
            { other with payload := some (world.pendingUserMessageIds turn.row) })
          world.turns }
  | .complete completion turn => complete world completion turn
  | .routine statement =>
      { world with turns := world.turns.map (·.apply statement) }

def execute (world : World) (step : Step) : World :=
  if step.Enabled world then perform world step else world

/-- Ideas whose channels are empty. -/
def World.silent (ideas : List IdeaRow) : World where
  ideas := ideas
  messages := []
  turns := []
  logs := []

end IdeaChats
end Scrum4Me
