import Scrum4Me.Foundation.Execution
import Scrum4Me.Foundation.Table
import Scrum4Me.Jobs.SprintRuns

/-!
# Status propagation

`propagateStatusUpwards` writes the status of a task and then decides anew about
its story, the PBI of the story and the sprint. Each call is one transaction at
`READ COMMITTED`: every statement reads what is committed, and what the call wrote
itself; a row that another call wrote waits for the end of that call. Nothing locks
the rows that are only read.
-/

namespace Scrum4Me
namespace Hierarchy

open Foundation
open Jobs (TaskStatus StoryStatus PbiStatus SprintStatus)

/-! ## Decisions -/

def decideStoryStatus (states : List TaskStatus) (inSprint : Bool) : StoryStatus :=
  if .failed ∈ states then .failed
  else if .done ∈ states ∧ ∀ status ∈ states, status = .done ∨ status = .excluded then
    .done
  else if inSprint then .inSprint
  else .opened

def decidePbiStatus (states : List StoryStatus) (current : PbiStatus) : PbiStatus :=
  if current = .blocked then .blocked
  else if .failed ∈ states then .failed
  else if states ≠ [] ∧ ∀ status ∈ states, status = .done then .done
  else .ready

def decideSprintStatus (states : List PbiStatus) : SprintStatus :=
  if .failed ∈ states then .failed
  else if states ≠ [] ∧ ∀ status ∈ states, status = .done then .closed
  else .opened

/-! ## Tables -/

/-- `tasks`. -/
structure TaskRow where
  id : String
  storyId : String
  status : TaskStatus
  deriving DecidableEq

/-- `stories`. -/
structure StoryRow where
  id : String
  pbiId : String
  sprintId : Option String
  status : StoryStatus
  deriving DecidableEq

/-- `pbis`. -/
structure PbiRow where
  id : String
  status : PbiStatus
  deriving DecidableEq

/-- `sprints`. -/
structure SprintRow where
  id : String
  status : SprintStatus
  deriving DecidableEq

structure Db where
  tasks : List TaskRow
  stories : List StoryRow
  pbis : List PbiRow
  sprints : List SprintRow
  deriving DecidableEq

namespace Db

variable (db : Db)

def setTask (id : String) (status : TaskStatus) : Db :=
  { db with
    tasks := updateWhere (·.id = id) (fun row => { row with status := status }) db.tasks }

def setStory (id : String) (status : StoryStatus) : Db :=
  { db with
    stories := updateWhere (·.id = id) (fun row => { row with status := status })
      db.stories }

def setPbi (id : String) (status : PbiStatus) : Db :=
  { db with
    pbis := updateWhere (·.id = id) (fun row => { row with status := status }) db.pbis }

def setSprint (id : String) (status : SprintStatus) : Db :=
  { db with
    sprints := updateWhere (·.id = id) (fun row => { row with status := status })
      db.sprints }

def task? (id : String) : Option TaskRow := db.tasks.find? (·.id = id)

def story? (id : String) : Option StoryRow := db.stories.find? (·.id = id)

def pbi? (id : String) : Option PbiRow := db.pbis.find? (·.id = id)

def sprint? (id : String) : Option SprintRow := db.sprints.find? (·.id = id)

/-- The statuses of the tasks of a story. -/
def taskStatuses (storyId : String) : List TaskStatus :=
  (db.tasks.filter (·.storyId = storyId)).map (·.status)

/-- The statuses of the stories of a PBI. -/
def storyStatuses (pbiId : String) : List StoryStatus :=
  (db.stories.filter (·.pbiId = pbiId)).map (·.status)

/-- What the tasks of a story decide. -/
def storyDecision (story : StoryRow) : StoryStatus :=
  decideStoryStatus (db.taskStatuses story.id) story.sprintId.isSome

end Db

/-! ## Calls -/

/-- A story as a call read it, and what the call decided about it. -/
structure StoryPart where
  story : StoryRow
  next : StoryStatus
  deriving DecidableEq

/-- A PBI as a call read it, and what the call decided about it. -/
structure PbiPart extends StoryPart where
  pbi : PbiRow
  nextPbi : PbiStatus
  deriving DecidableEq

/-- How far a call is: what it has read last, and what it does next. -/
inductive Stage
  | called
  /-- The task is written. -/
  | updated (storyId : String)
  | siblingsRead (storyId : String) (siblings : List TaskStatus)
  | storyRead (part : StoryPart)
  /-- The story is written, if its status changes. -/
  | storySettled (part : StoryPart)
  | pbiRead (part : StoryPart) (pbi : PbiRow)
  | storiesRead (part : PbiPart)
  /-- The PBI is written, if its status changes. -/
  | pbiSettled (part : PbiPart)
  | sprintRead (part : PbiPart) (sprint : SprintRow)
  | sprintStoriesRead (part : PbiPart) (sprint : SprintRow) (pbiIds : List String)
  | sprintPbisRead (part : PbiPart) (sprint : SprintRow) (next : SprintStatus)
  /-- The sprint is written, if there is one and its status changes; the commit is
  left. -/
  | settled (part : PbiPart) (sprint : Option (SprintRow × SprintStatus))
  deriving DecidableEq

/-- A call of `propagateStatusUpwards`. -/
structure Call where
  taskId : String
  newStatus : TaskStatus
  stage : Stage
  deriving DecidableEq

/-- The status that a call wrote to its story. -/
def StoryPart.write (part : StoryPart) : Option (String × StoryStatus) :=
  if part.next = part.story.status then none else some (part.story.id, part.next)

def PbiPart.pbiWrite (part : PbiPart) : Option (String × PbiStatus) :=
  if part.nextPbi = part.pbi.status then none else some (part.pbi.id, part.nextPbi)

namespace Call

variable (call : Call)

def taskWrite : Option (String × TaskStatus) :=
  match call.stage with
  | .called => none
  | _ => some (call.taskId, call.newStatus)

def storyWrite : Option (String × StoryStatus) :=
  match call.stage with
  | .storySettled part => part.write
  | .pbiRead part _ => part.write
  | .storiesRead part => part.write
  | .pbiSettled part => part.write
  | .sprintRead part _ => part.write
  | .sprintStoriesRead part _ _ => part.write
  | .sprintPbisRead part _ _ => part.write
  | .settled part _ => part.write
  | _ => none

def pbiWrite : Option (String × PbiStatus) :=
  match call.stage with
  | .pbiSettled part => part.pbiWrite
  | .sprintRead part _ => part.pbiWrite
  | .sprintStoriesRead part _ _ => part.pbiWrite
  | .sprintPbisRead part _ _ => part.pbiWrite
  | .settled part _ => part.pbiWrite
  | _ => none

def sprintWrite : Option (String × SprintStatus) :=
  match call.stage with
  | .settled _ (some (sprint, next)) =>
      if next = sprint.status then none else some (sprint.id, next)
  | _ => none

end Call

/-- What is committed, with what the call wrote. -/
def Db.withWrites (db : Db) (call : Call) : Db where
  tasks := (call.taskWrite.elim db fun write => db.setTask write.1 write.2).tasks
  stories := (call.storyWrite.elim db fun write => db.setStory write.1 write.2).stories
  pbis := (call.pbiWrite.elim db fun write => db.setPbi write.1 write.2).pbis
  sprints :=
    (call.sprintWrite.elim db fun write => db.setSprint write.1 write.2).sprints

/-- `PropagationResult`. -/
structure PropagationResult where
  taskId : String
  storyId : String
  storyChanged : Bool
  pbiChanged : Bool
  sprintChanged : Bool
  deriving DecidableEq

/-! ## The machine -/

structure World where
  db : Db
  calls : List Call
  results : List PropagationResult
  deriving DecidableEq

/-- One statement of a call. A call that has to wait, or that finds no row, is not
advanced; it can be rolled back at any moment. -/
inductive Step
  | propagateStatusUpwards (taskId : String) (newStatus : TaskStatus)
  | advance (call : Call)
  | commit (call : Call)
  | rollback (call : Call)
  deriving DecidableEq

namespace World

variable (world : World)

/-- Another call has written the row, and has not ended. -/
def Locked {κ ν : Type*} (call : Call) (write : Call → Option (κ × ν)) (id : κ) : Prop :=
  ∃ other ∈ world.calls.erase call, ∃ held ∈ write other, held.1 = id

instance (call : Call) (write : Call → Option (String × ν)) (id : String) :
    Decidable (world.Locked call write id) :=
  inferInstanceAs (Decidable (∃ _ ∈ _, ∃ _ ∈ _, _))

/-- The next statement of the call. -/
def next? (call : Call) : Option Stage :=
  let db := world.db.withWrites call
  match call.stage with
  | .called => do
      let task ← db.task? call.taskId
      if world.Locked call Call.taskWrite task.id then none
      else some (.updated task.storyId)
  | .updated storyId => some (.siblingsRead storyId (db.taskStatuses storyId))
  | .siblingsRead storyId siblings => do
      let story ← db.story? storyId
      return .storyRead
        { story := story
          next := decideStoryStatus siblings story.sprintId.isSome }
  | .storyRead part =>
      if part.next ≠ part.story.status ∧
          world.Locked call Call.storyWrite part.story.id then none
      else some (.storySettled part)
  | .storySettled part => do
      let pbi ← db.pbi? part.story.pbiId
      return .pbiRead part pbi
  | .pbiRead part pbi =>
      -- A blocked PBI is left alone.
      if pbi.status = .blocked then
        some (.pbiSettled { part with pbi := pbi, nextPbi := pbi.status })
      else
        some (.storiesRead
          { part with
            pbi := pbi
            nextPbi := decidePbiStatus (db.storyStatuses pbi.id) pbi.status })
  | .storiesRead part =>
      if part.nextPbi ≠ part.pbi.status ∧
          world.Locked call Call.pbiWrite part.pbi.id then none
      else some (.pbiSettled part)
  | .pbiSettled part =>
      match part.story.sprintId with
      | none => some (.settled part none)
      | some sprintId => do
          let sprint ← db.sprint? sprintId
          return .sprintRead part sprint
  | .sprintRead part sprint =>
      some (.sprintStoriesRead part sprint
        ((db.stories.filter (·.sprintId = some sprint.id)).map (·.pbiId)))
  | .sprintStoriesRead part sprint pbiIds =>
      some (.sprintPbisRead part sprint (decideSprintStatus
        ((db.pbis.filter (·.id ∈ pbiIds)).map (·.status))))
  | .sprintPbisRead part sprint next =>
      if next ≠ sprint.status ∧ world.Locked call Call.sprintWrite sprint.id then none
      else some (.settled part (some (sprint, next)))
  | .settled _ _ => none

def replaced (call next : Call) : World :=
  { world with calls := world.calls.erase call ++ [next] }

end World

/-- The result of a call that has done all but its commit. -/
def Call.result? (call : Call) : Option PropagationResult :=
  match call.stage with
  | .settled part _ => some
      { taskId := call.taskId
        storyId := part.story.id
        storyChanged := call.storyWrite.isSome
        pbiChanged := call.pbiWrite.isSome
        sprintChanged := call.sprintWrite.isSome }
  | _ => none

def execute (world : World) : Step → World
  | .propagateStatusUpwards taskId newStatus =>
      { world with
        calls := world.calls ++ [{ taskId := taskId, newStatus := newStatus, stage := .called }] }
  | .advance call =>
      if call ∈ world.calls then
        match world.next? call with
        | some stage => world.replaced call { call with stage := stage }
        | none => world
      else world
  | .commit call =>
      if call ∈ world.calls then
        match call.result? with
        | some result =>
            { db := world.db.withWrites call
              calls := world.calls.erase call
              results := world.results ++ [result] }
        | none => world
      else world
  | .rollback call => { world with calls := world.calls.erase call }

/-- A database, and no call yet. -/
def World.initial (db : Db) : World where
  db := db
  calls := []
  results := []

end Hierarchy
end Scrum4Me
