import Scrum4Me.Hierarchy.Sequence
import Mathlib.Data.List.MinMax
import Mathlib.Logic.Function.Basic

/-!
# Sprints, their runs and their jobs

The whole of `propagateStatusUpwards`: a sprint that fails or closes ends a run, and
a run that fails cancels what is left of its jobs.
-/

namespace Scrum4Me
namespace Hierarchy

open Foundation
open Jobs (JobRow JobStatus Moment PbiStatus SprintRunStatus SprintStatus StoryStatus
  TaskStatus)

/-- `sprint_runs`. -/
structure RunRow where
  id : String
  sprintId : String
  status : SprintRunStatus
  createdAt : Moment
  failedTaskId : Option String := none
  finishedAt : Option Moment := none
  deriving DecidableEq

/-- The four tables of the hierarchy, and what hangs on the sprints. -/
structure Store where
  db : Db
  /-- `sprints.completed_at`. -/
  completedAt : String → Option Moment
  runs : List RunRow
  jobs : List JobRow

namespace Store

variable (store : Store)

def run? (id : String) : Option RunRow := store.runs.find? (·.id = id)

/-! ## The run that ends -/

/-- The job of the task that was made last, of those that have a run. -/
def taskJob? (taskId : String) : Option JobRow :=
  (store.jobs.filter fun job => job.taskId = some taskId ∧ job.sprintRunId.isSome).argmax
    (·.createdAt)

/-- The runs of the sprint that have not ended. -/
def activeRuns (sprintId : String) : List RunRow :=
  store.runs.filter fun run => run.sprintId = sprintId ∧ run.status.Active

def activeRun? (sprintId : String) : Option RunRow :=
  (store.activeRuns sprintId).argmax (·.createdAt)

/-- `resolvedRunId`: the run that was named, or that of the task's job, or the active
run of the sprint. -/
def resolvedRunId (taskId sprintId : String) (sprintRunId : Option String) :
    Option String :=
  sprintRunId.elim
    ((store.taskJob? taskId).elim ((store.activeRun? sprintId).map (·.id)) (·.sprintRunId))
    some

/-- `cancelExceptJobId`. -/
def cancelExceptJobId (taskId : String) (sprintRunId : Option String) : Option String :=
  sprintRunId.elim ((store.taskJob? taskId).map (·.id)) fun _ => none

/-- The jobs of the run that are waiting or held are cancelled, but for one. -/
def cancelSiblings (runId taskId : String) (exceptJobId : Option String) (now : Moment) :
    Store :=
  { store with
    jobs := updateWhere (fun job => job.sprintRunId = some runId ∧ job.status.Active ∧
        some job.id ≠ exceptJobId)
      (fun job =>
        { job with
          status := .cancelled
          finishedAt := some now
          error := some s!"Cancelled: task {taskId} failed in same sprint run" })
      store.jobs }

def updateRun (id : String) (change : RunRow → RunRow) : Store :=
  { store with runs := updateWhere (·.id = id) change store.runs }

/-- The run ends as the sprint did, unless it has ended already. -/
def endRun (runId taskId : String) (nextSprintStatus : SprintStatus)
    (exceptJobId : Option String) (now : Moment) :
    Store :=
  (store.run? runId).elim store fun run =>
    if run.status.Active then
      if nextSprintStatus = .failed then
        (store.updateRun run.id fun row =>
          { row with
            status := .failed
            finishedAt := some now
            failedTaskId := some taskId }).cancelSiblings run.id taskId exceptJobId now
      else
        store.updateRun run.id fun row =>
          { row with status := .done, finishedAt := some now }
    else store

/-- What follows from the status that the sprint has changed to. -/
def settleRun (taskId sprintId : String) (nextSprintStatus : SprintStatus)
    (sprintRunId : Option String) (now : Moment) :
    Store :=
  if nextSprintStatus = .failed ∨ nextSprintStatus = .closed then
    (store.resolvedRunId taskId sprintId sprintRunId).elim store fun runId =>
      store.endRun runId taskId nextSprintStatus (store.cancelExceptJobId taskId sprintRunId) now
  else store

/-! ## The call -/

/-- The sprint gets its new status, and `completed_at` when it closes. -/
def writeSprint (id : String) (next : SprintStatus) (now : Moment) : Store :=
  { store with
    db := store.db.setSprint id next
    completedAt :=
      if next = .closed then Function.update store.completedAt id (some now)
      else store.completedAt }

/-- What the call leaves; none if it finds no row and throws. -/
def propagateStatusUpwards (taskId : String) (newStatus : TaskStatus) (sprintRunId : Option String)
    (now : Moment) :
    Option Store := do
  let updated := store.db.setTask taskId newStatus
  let task ← updated.task? taskId
  let story ← updated.story? task.storyId
  let storySettled := updated.settleStory story
  let pbi ← storySettled.pbi? story.pbiId
  let pbiSettled := storySettled.settlePbi pbi
  let settled := { store with db := pbiSettled }
  story.sprintId.elim (some settled) fun sprintId => do
    let sprint ← pbiSettled.sprint? sprintId
    let nextStatus := pbiSettled.sprintDecision sprint.id
    if nextStatus = sprint.status then some settled
    else
      some ((settled.writeSprint sprint.id nextStatus now).settleRun taskId sprintId
        nextStatus sprintRunId now)

end Store

/-- The hierarchy with the task, its story and the PBI written. -/
def Db.settledFor (db : Db) (taskId : String) (newStatus : TaskStatus) (story : StoryRow)
    (pbi : PbiRow) :
    Db :=
  ((db.setTask taskId newStatus).settleStory story).settlePbi pbi

variable
  {db : Db} {store : Store} {taskId : String} {newStatus : TaskStatus}
  {runId : String} {sprintRunId : Option String} {now : Moment}

theorem settleStory_eq_setStory {story : StoryRow} (keyed : db.Keyed) (known : story ∈ db.stories) :
    db.settleStory story = db.setStory story.id (db.storyDecision story) := by
  have unmoved : db.setStory story.id story.status = db :=
    congrArg (fun rows => { db with stories := rows }) (setStory_self keyed known)
  unfold Db.settleStory
  dsimp only
  split
  · rename_i same
    rw [same, unmoved]
  · rfl

theorem settlePbi_eq_setPbi {pbi : PbiRow} (keyed : db.Keyed) (known : pbi ∈ db.pbis) :
    db.settlePbi pbi = db.setPbi pbi.id (decidePbiStatus (db.storyStatuses pbi.id) pbi.status) := by
  have unmoved : db.setPbi pbi.id pbi.status = db :=
    congrArg (fun rows => { db with pbis := rows }) (setPbi_self keyed known)
  unfold Db.settlePbi
  split
  · rename_i blocked
    rw [decidePbiStatus, if_pos blocked, ← blocked, unmoved]
  · dsimp only
    split
    · rename_i same
      rw [same, unmoved]
    · rfl

theorem sprint?_setSprint
    {sprint : SprintRow} {next : SprintStatus} (distinct : (db.sprints.map (·.id)).Nodup)
    (known : sprint ∈ db.sprints) :
    (db.setSprint sprint.id next).sprint? sprint.id = some { sprint with status := next } := by
  have member : { sprint with status := next } ∈ (db.setSprint sprint.id next).sprints :=
    mem_updateWhere.mpr (.inl ⟨sprint, known, decide_eq_true rfl, rfl⟩)
  refine sprint?_eq ?_ member
  exact nodup_updateWhere (fun _ => rfl) distinct

theorem sprints_settledFor (story : StoryRow) (pbi : PbiRow) :
    (db.settledFor taskId newStatus story pbi).sprints = db.sprints := by
  have storySettled : ((db.setTask taskId newStatus).settleStory story).sprints = db.sprints := by
    unfold Db.settleStory
    dsimp only
    split <;> rfl
  unfold Db.settledFor Db.settlePbi
  split
  · exact storySettled
  · dsimp only
    split <;> exact storySettled

/-- The rows that a call for the task reads. -/
structure Db.Reads
    (db : Db) (taskId : String) (task : TaskRow) (story : StoryRow) (pbi : PbiRow) :
    Prop where
  taskKnown : task ∈ db.tasks
  named : task.id = taskId
  storyKnown : story ∈ db.stories
  owner : story.id = task.storyId
  pbiKnown : pbi ∈ db.pbis
  parent : pbi.id = story.pbiId

theorem exists_reads (whole : db.Whole) (known : ∃ task ∈ db.tasks, task.id = taskId) :
    ∃ task story pbi, db.Reads taskId task story pbi := by
  obtain ⟨task, taskKnown, named⟩ := known
  obtain ⟨story, storyKnown, owner⟩ := whole.taskStory task taskKnown
  obtain ⟨pbi, pbiKnown, parent⟩ := whole.storyPbi story storyKnown
  exact ⟨task, story, pbi, taskKnown, named, storyKnown, owner, pbiKnown, parent⟩

namespace Store

/-! ## Frames -/

@[simp] theorem runs_cancelSiblings (exceptJobId : Option String) :
    (store.cancelSiblings runId taskId exceptJobId now).runs = store.runs := rfl

@[simp] theorem run?_cancelSiblings (exceptJobId : Option String) (id : String) :
    (store.cancelSiblings runId taskId exceptJobId now).run? id = store.run? id := rfl

@[simp] theorem jobs_updateRun (id : String) (change : RunRow → RunRow) :
    (store.updateRun id change).jobs = store.jobs := rfl

/-- The statuses, and when the sprints were completed. -/
def statuses (store : Store) : Db × (String → Option Moment) := (store.db, store.completedAt)

/-- What a sprint's end does to runs and jobs leaves the rest alone. -/
theorem statuses_settleRun (sprintId : String) (next : SprintStatus) :
    (store.settleRun taskId sprintId next sprintRunId now).statuses = store.statuses := by
  unfold settleRun
  split
  · cases store.resolvedRunId taskId sprintId sprintRunId with
    | none => rfl
    | some runId =>
      rw [Option.elim_some]
      unfold endRun
      cases store.run? runId with
      | none => rfl
      | some run =>
        rw [Option.elim_some]
        split
        · split <;> rfl
        · rfl
  · rfl

/-! ## What the call finds -/

/-- A call without a row for its task throws. -/
theorem propagate_of_unknown (unknown : ∀ task ∈ store.db.tasks, task.id ≠ taskId) :
    store.propagateStatusUpwards taskId newStatus sprintRunId now = none := by
  unfold propagateStatusUpwards
  dsimp only
  rw [task?_setTask_of_unknown unknown]
  rfl

/-- A call that has settled the PBI turns to the sprint of the story. -/
theorem propagate_eq {task : TaskRow} {story : StoryRow} {pbi : PbiRow} (whole : store.db.Whole)
    (reads : store.db.Reads taskId task story pbi) :
    store.propagateStatusUpwards taskId newStatus sprintRunId now =
      story.sprintId.elim (some { store with db := store.db.settledFor taskId newStatus story pbi })
        fun sprintId =>
          (store.db.sprint? sprintId).bind fun sprint =>
            let settled := { store with db := store.db.settledFor taskId newStatus story pbi }
            let nextStatus := settled.db.sprintDecision sprint.id
            if nextStatus = sprint.status then some settled
            else
              some ((settled.writeSprint sprint.id nextStatus now).settleRun taskId sprintId
                nextStatus sprintRunId now) := by
  have storyFound : (store.db.setTask taskId newStatus).story? task.storyId = some story := by
    rw [← reads.owner]
    exact (story?_eq whole.keyed reads.storyKnown :)
  have pbiFound :
      ((store.db.setTask taskId newStatus).settleStory story).pbi? story.pbiId = some pbi := by
    rw [settleStory_eq_withWrites, ← reads.parent]
    exact (pbi?_eq whole.keyed reads.pbiKnown :)
  have sprintFound : ∀ sprintId, (store.db.settledFor taskId newStatus story pbi).sprint? sprintId =
        store.db.sprint? sprintId := by
    intro sprintId
    unfold Db.sprint?
    rw [sprints_settledFor]
  unfold propagateStatusUpwards
  dsimp only [Option.bind_eq_bind]
  rw [task?_setTask whole.keyed reads.taskKnown reads.named, Option.bind_some]
  dsimp only
  rw [storyFound, Option.bind_some, pbiFound, Option.bind_some]
  change (story.sprintId.elim _ fun sprintId =>
    ((store.db.settledFor taskId newStatus story pbi).sprint? sprintId).bind _) = _
  simp only [sprintFound]
  rfl

end Store

end Hierarchy
end Scrum4Me
