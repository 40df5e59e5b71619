import Scrum4Me.Hierarchy.Runs

/-!
# Managed tasks

A dispatch writes the status of its task through `projectManagedTaskStatus`, four
statements without a comparison. Alone with the database they leave the tables of the
hierarchy as the ordinary call does, and they touch no run and no job.
-/

namespace Scrum4Me
namespace Hierarchy

open Foundation
open Jobs (Moment PbiStatus SprintStatus StoryStatus TaskStatus)

namespace Store

variable (store : Store)

/-- `SELECT DISTINCT p.id, p.status` from the PBIs joined with the stories of the
sprint. -/
def joinedPbis (sprintId : String) : List PbiRow :=
  store.db.pbis.filter fun pbi =>
    ∃ story ∈ store.db.stories, story.pbiId = pbi.id ∧ story.sprintId = some sprintId

/-- The last statement: the status is written as it is, `completed_at` only where the
old status was another. -/
def closeSprint (id : String) (next : SprintStatus) (now : Moment) : Store :=
  { store with
    db := store.db.setSprint id next
    completedAt := fun sprintId =>
      if next = .closed ∧
          ∃ sprint ∈ store.db.sprints, sprint.id = id ∧ id = sprintId ∧
            sprint.status ≠ next then
        some now
      else store.completedAt sprintId }

end Store

/-- The statuses a dispatch projects. -/
inductive ManagedStatus
  | done | failed
  deriving DecidableEq

def ManagedStatus.taskStatus : ManagedStatus → TaskStatus
  | .done => .done
  | .failed => .failed

/-- What the statements leave; none where a row is missing: `DISPATCH_STATE_CONFLICT`
for the task, a `TypeError` for the others. -/
def Store.projectManagedTaskStatus
    (store : Store) (taskId : String) (status : ManagedStatus) (now : Moment) :
    Option Store := do
  let task ← store.db.task? taskId
  let story ← store.db.story? task.storyId
  let pbi ← store.db.pbi? story.pbiId
  let tasksWritten := store.db.setTask taskId status.taskStatus
  let storyWritten := tasksWritten.setStory story.id
    (decideStoryStatus (tasksWritten.taskStatuses story.id) story.sprintId.isSome)
  let pbiWritten := storyWritten.setPbi pbi.id
    (decidePbiStatus (storyWritten.storyStatuses pbi.id) pbi.status)
  let written := { store with db := pbiWritten }
  return story.sprintId.elim written fun sprintId =>
    written.closeSprint sprintId
      (decideSprintStatus ((written.joinedPbis sprintId).map (·.status))) now


variable
  {db : Db} {store : Store} {taskId : String} {newStatus : TaskStatus}
  {status : ManagedStatus} {sprintRunId : Option String} {now : Moment}

/-! ## The four levels -/

variable {sprint : SprintRow} {story : StoryRow}

/-- Both calls settle the task, the story and the PBI alike. -/
theorem settledFor_eq {task : TaskRow} {pbi : PbiRow} (keyed : db.Keyed)
    (reads : db.Reads taskId task story pbi) :
    db.settledFor taskId newStatus story pbi =
      let tasksWritten := db.setTask taskId newStatus
      let storyWritten := tasksWritten.setStory story.id (tasksWritten.storyDecision story)
      storyWritten.setPbi pbi.id
        (decidePbiStatus (storyWritten.storyStatuses pbi.id) pbi.status) := by
  have tasksKeyed : (db.setTask taskId newStatus).Keyed :=
    { tasks := nodup_updateWhere (fun _ => rfl) keyed.tasks
      stories := keyed.stories
      pbis := keyed.pbis }
  unfold Db.settledFor
  rw [settleStory_eq_setStory tasksKeyed reads.storyKnown]
  refine settlePbi_eq_setPbi ?_ reads.pbiKnown
  exact
    { tasks := tasksKeyed.tasks
      stories := nodup_updateWhere (fun _ => rfl) keyed.stories
      pbis := keyed.pbis }

theorem joinedPbis_eq (sprintId : String) :
    store.joinedPbis sprintId = store.db.sprintPbis sprintId := by
  unfold Store.joinedPbis Db.sprintPbis
  refine List.filter_congr fun pbi _ => decide_eq_decide.mpr ?_
  rw [List.mem_map]
  constructor
  · rintro ⟨story, member, parent, inSprint⟩
    exact ⟨story, List.mem_filter.mpr ⟨member, decide_eq_true inSprint⟩, parent⟩
  · rintro ⟨story, member, parent⟩
    rw [List.mem_filter] at member
    exact ⟨story, member.1, parent, of_decide_eq_true member.2⟩

theorem setSprint_self (distinct : (db.sprints.map (·.id)).Nodup) (known : sprint ∈ db.sprints) :
    db.setSprint sprint.id sprint.status = db := by
  refine congrArg (fun rows => { db with sprints := rows })
    (updateWhere_eq_self fun row member found => ?_)
  rw [List.inj_on_of_nodup_map distinct member known (of_decide_eq_true found)]

/-- The unconditional write does what the write after a comparison does. -/
theorem closeSprint_eq {next : SprintStatus}
    (distinct : (store.db.sprints.map (·.id)).Nodup) (known : sprint ∈ store.db.sprints) :
    store.closeSprint sprint.id next now =
      if next = sprint.status then store else store.writeSprint sprint.id next now := by
  have changes : ∀ sprintId, (∃ row ∈ store.db.sprints, row.id = sprint.id ∧ sprint.id = sprintId ∧
        row.status ≠ next) ↔ sprint.id = sprintId ∧ sprint.status ≠ next := by
    intro sprintId
    constructor
    · rintro ⟨row, member, same, named, differs⟩
      rw [List.inj_on_of_nodup_map distinct member known same] at differs
      exact ⟨named, differs⟩
    · rintro ⟨named, differs⟩
      exact ⟨sprint, known, rfl, named, differs⟩
  unfold Store.closeSprint Store.writeSprint
  simp only [changes]
  split
  · rename_i same
    rw [same, setSprint_self distinct known]
    simp
  · rename_i differs
    congr 1
    funext sprintId
    by_cases closed : next = .closed
    · by_cases named : sprint.id = sprintId
      · subst named
        rw [if_pos ⟨closed, rfl, fun same => differs same.symm⟩, if_pos closed,
          Function.update_self]
      · rw [if_neg fun all => named all.2.1, if_pos closed,
          Function.update_of_ne fun same => named same.symm]
    · rw [if_neg fun all => closed all.1, if_neg closed]

/-- A dispatch leaves the runs and the jobs as they are. -/
theorem projectManaged_kept {after : Store}
    (projected : store.projectManagedTaskStatus taskId status now = some after) :
    after.runs = store.runs ∧ after.jobs = store.jobs := by
  unfold Store.projectManagedTaskStatus at projected
  simp only [Option.bind_eq_bind, Option.bind_eq_some_iff] at projected
  obtain ⟨task, -, story, -, pbi, -, projected⟩ := projected
  dsimp only [Option.pure_def] at projected
  cases inSprint : story.sprintId with
  | none =>
    rw [inSprint, Option.elim_none, Option.some_inj] at projected
    rw [← projected]
    exact ⟨rfl, rfl⟩
  | some sprintId =>
    rw [inSprint, Option.elim_some, Option.some_inj] at projected
    rw [← projected]
    exact ⟨rfl, rfl⟩

theorem projectManaged_eq {task : TaskRow} {pbi : PbiRow} (keyed : store.db.Keyed)
    (reads : store.db.Reads taskId task story pbi) :
    store.projectManagedTaskStatus taskId status now =
      let settled :=
        { store with db := store.db.settledFor taskId status.taskStatus story pbi }
      some (story.sprintId.elim settled fun sprintId =>
        settled.closeSprint sprintId (settled.db.sprintDecision sprintId) now) := by
  have taskFound : store.db.task? taskId = some task :=
    find?_eq_some_of_unique reads.taskKnown (decide_eq_true reads.named)
      fun other member found => keyed.task member reads.taskKnown
        ((of_decide_eq_true found).trans reads.named.symm)
  have storyFound : store.db.story? task.storyId = some story := by
    rw [← reads.owner]
    exact story?_eq keyed reads.storyKnown
  have pbiFound : store.db.pbi? story.pbiId = some pbi := by
    rw [← reads.parent]
    exact pbi?_eq keyed reads.pbiKnown
  unfold Store.projectManagedTaskStatus
  dsimp only [Option.bind_eq_bind]
  rw [taskFound, Option.bind_some, storyFound, Option.bind_some, pbiFound,
    Option.bind_some, settledFor_eq keyed reads]
  simp only [joinedPbis_eq]
  rfl

/-- However the hierarchy stands, the dispatch leaves the same statuses in the four
tables as the ordinary call, and completes the same sprints; it touches no run and no
job. -/
theorem managed_agrees (whole : store.db.Whole) (taskId : String) (status : ManagedStatus)
    (sprintRunId : Option String) (now : Moment) :
    (store.projectManagedTaskStatus taskId status now).map Store.statuses =
        (store.propagateStatusUpwards taskId status.taskStatus sprintRunId now).map Store.statuses ∧
      ∀ after, store.projectManagedTaskStatus taskId status now = some after →
        after.runs = store.runs ∧ after.jobs = store.jobs := by
  refine ⟨?_, fun after => projectManaged_kept⟩
  by_cases known : ∃ task ∈ store.db.tasks, task.id = taskId
  · obtain ⟨task, story, pbi, reads⟩ := exists_reads whole known
    rw [projectManaged_eq whole.keyed reads, Store.propagate_eq whole reads]
    cases inSprint : story.sprintId with
    | none => rfl
    | some sprintId =>
        obtain ⟨sprint, sprintKnown, rfl⟩ :=
          whole.storySprint story reads.storyKnown sprintId inSprint
        have sprints : (store.db.settledFor taskId status.taskStatus story pbi).sprints =
            store.db.sprints := sprints_settledFor story pbi
        have same := @closeSprint_eq
          { store with db := store.db.settledFor taskId status.taskStatus story pbi } now
          sprint ((store.db.settledFor taskId status.taskStatus story pbi).sprintDecision
            sprint.id) (sprints ▸ whole.sprints) (sprints ▸ sprintKnown)
        dsimp only [Option.elim_some]
        rw [sprint?_eq whole.sprints sprintKnown, Option.bind_some, same]
        split
        · rfl
        · rw [Option.map_some, Option.map_some, Store.statuses_settleRun]
  · push Not at known
    have missed : store.db.task? taskId = none :=
      List.find?_eq_none.mpr fun task member => by
        rw [decide_eq_true_eq]
        exact known task member
    unfold Store.projectManagedTaskStatus
    rw [missed, Store.propagate_of_unknown known]
    rfl

/-! ## The last task of a sprint -/

namespace LastTask

/-- A story with one open task and one that is excluded, the last of its sprint. -/
def start : Store where
  db :=
    { tasks :=
        [{ id := "t1", storyId := "s1", status := .toDo },
          { id := "t2", storyId := "s1", status := .excluded },
          { id := "t3", storyId := "s2", status := .done }]
      stories :=
        [{ id := "s1", pbiId := "p", sprintId := some "sprint", status := .inSprint },
          { id := "s2", pbiId := "q", sprintId := some "sprint", status := .done }]
      pbis := [{ id := "p", status := .ready }, { id := "q", status := .done }]
      sprints := [{ id := "sprint", status := .opened }] }
  completedAt := fun _ => none
  runs := [{ id := "run", sprintId := "sprint", status := .running, createdAt := 0 }]
  jobs := []

end LastTask

open LastTask in
/-- The task is done: both close the sprint, and only the ordinary call ends its run. -/
theorem managed_agrees_last_task :
    ((start.projectManagedTaskStatus "t1" .done 7).map Store.statuses =
        (start.propagateStatusUpwards "t1" .done none 7).map Store.statuses ∧
      ∀ after, start.projectManagedTaskStatus "t1" .done 7 = some after →
        after.runs = start.runs ∧ after.jobs = start.jobs) ∧
      ((start.projectManagedTaskStatus "t1" .done 7).map fun after =>
        (after.db.sprints, after.completedAt "sprint")) =
          some ([{ id := "sprint", status := .closed }], some 7) ∧
        ((start.propagateStatusUpwards "t1" .done none 7).map fun after =>
          after.runs.map (·.status)) = some [.done] :=
  ⟨managed_agrees (by decide) "t1" .done none 7, by decide +kernel, by decide +kernel⟩

end Hierarchy
end Scrum4Me
