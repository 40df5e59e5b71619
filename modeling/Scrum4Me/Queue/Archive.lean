import Scrum4Me.Foundation.Recursion
import Scrum4Me.Foundation.Transaction
import Scrum4Me.Queue.Machine

/-!
# Archiving threads

`queue_archive` and `queue_unarchive` read the thread of a message, the message with
all its transitive replies, in the snapshot of one statement, and then lock and
re-read the rows that they found there. Between the two a finish may commit, and add
a reply that the snapshot does not have.
-/

namespace Scrum4Me
namespace Queue
namespace Threads

open Foundation
open Jobs (Moment)

/-! ## The thread -/

/-- `child.in_reply_to = parent.id`. -/
def replies (messages : List MessageRow) (messageId : String) : List String :=
  (messages.filter (·.inReplyTo = some messageId)).map (·.id)

/-- The recursive query after as many rounds as there are messages. -/
def subtree (messages : List MessageRow) (messageId : String) : Recursion String :=
  Recursion.rounds (replies messages)
    ((messages.filter (·.id = messageId)).map (·.id)) messages.length

/-- The identifiers of a thread. -/
def thread (messages : List MessageRow) (messageId : String) : List String :=
  (subtree messages messageId).result

/-! ## Verdicts and writes -/

inductive Direction
  | archive | unarchive
  deriving DecidableEq

/-- `managedBlock`. -/
def managedBlock (rows : List MessageRow) : Option String :=
  if ∃ row ∈ rows, row.projection.requestId ≠ none then
    (rows.find? fun row => ¬ row.status.Terminal).map fun active =>
      "QUEUE_MANAGED_NOT_TERMINAL: subtree row " ++ active.id ++ " has status '" ++
        active.status.text ++ "' — a managed dispatch thread changes its archive " ++
          "state only as a whole, once every message is terminal"
  else none

/-- What the transaction decides on the rows that it has locked. -/
def verdict (direction : Direction) (messageId : String) (rows : List MessageRow) :
    Except String Unit := do
  ensure (rows ≠ []) ("QUEUE_NOT_FOUND: message " ++ messageId ++ " does not exist")
  match managedBlock rows with
  | some managed => .error managed
  | none =>
      match direction, rows.find? fun row => ¬ row.status.Terminal with
      | .archive, some blocking =>
          .error ("QUEUE_NOT_TERMINAL: subtree row " ++ blocking.id ++ " has status '" ++
            blocking.status.text ++ "' — only terminal messages can be archived")
      | _, _ => .ok ()

/-- The rows that the update rewrites. -/
def Direction.Writes (direction : Direction) (ids : List String) (row : MessageRow) :
    Prop :=
  row.id ∈ ids ∧
    match direction with
    | .archive => row.archivedAt = none
    | .unarchive => row.archivedAt ≠ none

instance (direction : Direction) (ids : List String) (row : MessageRow) :
    Decidable (direction.Writes ids row) := by
  unfold Direction.Writes
  cases direction <;> infer_instance

def Direction.value (direction : Direction) (now : Moment) : Option Moment :=
  match direction with
  | .archive => some now
  | .unarchive => none

def write (direction : Direction) (ids : List String) (now : Moment) (messages : List MessageRow) :
    List MessageRow :=
  updateWhere (fun row => direction.Writes ids row)
    (fun row => { row with archivedAt := direction.value now }) messages

/-! ## The machine -/

/-- A transaction in flight. -/
inductive Call
  /-- The snapshot had these messages, and the thread among them. -/
  | reading (direction : Direction) (messageId : String) (known found : List String)
  /-- The rows of the thread are locked and re-read. -/
  | locked (direction : Direction) (messageId : String) (known : List String)
      (rows : List MessageRow)
  /-- `queue_done` has locked its row. -/
  | finishing (messageId : String)
  deriving DecidableEq

def Call.locks : Call → List String
  | .reading .. => []
  | .locked _ _ _ rows => rows.map (·.id)
  | .finishing messageId => [messageId]

inductive Answer
  | changed (direction : Direction) (messageId : String) (total count : Nat)
  | refused (direction : Direction) (messageId error : String)
  deriving DecidableEq

structure World where
  messages : List MessageRow
  calls : List Call
  answers : List Answer
  deriving DecidableEq

namespace World

variable (world : World)

def Locked (messageId : String) : Prop :=
  ∃ call ∈ world.calls, messageId ∈ call.locks

instance (messageId : String) : Decidable (world.Locked messageId) :=
  inferInstanceAs (Decidable (∃ _ ∈ _, _))

/-- The rows with these identifiers. -/
def rows (ids : List String) : List MessageRow :=
  world.messages.filter (·.id ∈ ids)

def ids : List String := world.messages.map (·.id)

end World

/-- One statement, or the rest of a transaction. A statement that waits for locks
returns each row as it is once the last one is granted, so it takes them in one step.
`changeStatus` is any other change of a status, `push` any other new message: its
foreign key waits for the lock of the message that it answers. -/
inductive Step
  | readSubtree (direction : Direction) (messageId : String)
  | lockSubtree (direction : Direction) (messageId : String) (known found : List String)
  | commitSubtree (direction : Direction) (messageId : String) (known : List String)
      (rows : List MessageRow) (now : Moment)
  | lockForDone (messageId : String)
  | commitDone (messageId : String) (reply : Option (String × String)) (now : Moment)
  | changeStatus (messageId : String) (status : MessageStatus)
  | push (row : MessageRow)
  | abort (call : Call)
  deriving DecidableEq

/-- The step can be taken in this state. -/
def Step.Enabled (world : World) : Step → Prop
  | readSubtree .. => True
  | lockSubtree direction messageId known found =>
      .reading direction messageId known found ∈ world.calls ∧
        ∀ id ∈ found, ¬ world.Locked id
  | commitSubtree direction messageId known rows _ =>
      .locked direction messageId known rows ∈ world.calls
  | lockForDone messageId => ¬ world.Locked messageId
  | commitDone messageId reply _ =>
      .finishing messageId ∈ world.calls ∧ (∀ row ∈ world.messages, row.id = messageId →
          row.Legacy ∧ ¬ row.status.Terminal ∧ (reply ≠ none → row.type.IsRequest)) ∧
          ∀ new ∈ reply, new.1 ∉ world.ids
  | changeStatus messageId _ => ¬ world.Locked messageId
  | push row => row.id ∉ world.ids ∧
      ∀ parent ∈ row.inReplyTo, parent ∈ world.ids ∧ ¬ world.Locked parent
  | abort call => call ∈ world.calls

instance (world : World) (step : Step) : Decidable (step.Enabled world) := by
  apply @Step.casesOn (fun step => Decidable (step.Enabled world)) step <;>
    intros <;> dsimp only [Step.Enabled] <;> infer_instance

/-- The reply rows of a `queue_done`. -/
def World.answersOf (world : World) (messageId : String) (reply : Option (String × String))
    (now : Moment) :
    List MessageRow :=
  match reply, world.messages.find? (·.id = messageId) with
  | some (replyId, body), some request => [replyRow request replyId body now]
  | _, _ => []

/-- The end of the transaction of an archive or unarchive. -/
def World.committed
    (world : World) (direction : Direction) (messageId : String) (known : List String)
    (rows : List MessageRow) (now : Moment) :
    World :=
  let calls := world.calls.erase (.locked direction messageId known rows)
  match verdict direction messageId rows with
  | .ok () =>
      let ids := rows.map (·.id)
      { messages := write direction ids now world.messages
        calls := calls
        answers := world.answers ++ [.changed direction messageId rows.length
          (world.messages.countP fun row => direction.Writes ids row)] }
  | .error error =>
      { world with
        calls := calls
        answers := world.answers ++ [.refused direction messageId error] }

def perform (world : World) : Step → World
  | .readSubtree direction messageId =>
      { world with
        calls := world.calls ++ [.reading direction messageId world.ids
          (thread world.messages messageId)] }
  | .lockSubtree direction messageId known found =>
      { world with
        calls := world.calls.erase (.reading direction messageId known found) ++
          [.locked direction messageId known (world.rows found)] }
  | .commitSubtree direction messageId known rows now =>
      world.committed direction messageId known rows now
  | .lockForDone messageId =>
      { world with calls := world.calls ++ [.finishing messageId] }
  | .commitDone messageId reply now =>
      { world with
        messages := updateWhere (fun row => row.id = messageId ∧ row.Legacy)
            ((Outcome.done none).apply now) world.messages ++
          world.answersOf messageId reply now
        calls := world.calls.erase (.finishing messageId) }
  | .changeStatus messageId status =>
      { world with
        messages := updateWhere (·.id = messageId)
          (fun row => { row with status := status }) world.messages }
  | .push row => { world with messages := world.messages ++ [row] }
  | .abort call => { world with calls := world.calls.erase call }

def execute (world : World) (step : Step) : World :=
  if step.Enabled world then perform world step else world

def World.initial (messages : List MessageRow) : World where
  messages := messages
  calls := []
  answers := []

/-- The steps of a call with nothing in between. -/
def Direction.steps (direction : Direction) (world : World) (messageId : String) (now : Moment) :
    List Step :=
  let found := thread world.messages messageId
  [ .readSubtree direction messageId,
    .lockSubtree direction messageId world.ids found,
    .commitSubtree direction messageId world.ids (world.rows found) now ]

end Threads
end Queue
end Scrum4Me
