import Scrum4Me.Hierarchy.Runs

/-!
# A finished sprint and its run

A call that fails or closes the sprint of its task ends a run. Where the task has had
a job with a run, it is the run of its last such job, whatever has become of that run
and of whichever sprint it was; so the active run of the sprint ends exactly if that
is the run, or there is no such job.
-/

namespace Scrum4Me
namespace Hierarchy

open Foundation
open Jobs (JobRow JobStatus Moment SprintRunStatus SprintStatus TaskStatus)

/-- The tables, with the keys of runs and jobs. -/
structure Store.Whole (store : Store) : Prop where
  db : store.db.Whole
  runs : (store.runs.map (·.id)).Nodup
  jobs : (store.jobs.map (·.id)).Nodup

instance (store : Store) : Decidable store.Whole :=
  decidable_of_iff (store.db.Whole ∧ (store.runs.map (·.id)).Nodup ∧ (store.jobs.map (·.id)).Nodup)
    ⟨fun whole => ⟨whole.1, whole.2.1, whole.2.2⟩,
      fun whole => ⟨whole.db, whole.runs, whole.jobs⟩⟩

/-- The sprint of the task's story. -/
def Db.OwnSprint (db : Db) (taskId : String) (sprint : SprintRow) : Prop :=
  sprint ∈ db.sprints ∧
    ∃ task ∈ db.tasks, task.id = taskId ∧
      ∃ story ∈ db.stories, story.id = task.storyId ∧ story.sprintId = some sprint.id

instance (db : Db) (taskId : String) (sprint : SprintRow) :
    Decidable (db.OwnSprint taskId sprint) :=
  inferInstanceAs (Decidable (_ ∧ _))

/-- A run that has ended with its sprint. -/
def RunRow.ended (run : RunRow) (taskId : String) (next : SprintStatus) (now : Moment) :
    RunRow :=
  if next = .failed then
    { run with status := .failed, finishedAt := some now, failedTaskId := some taskId }
  else { run with status := .done, finishedAt := some now }

/-- The run of the sprint has ended with it: `FAILED`, with the task, or `DONE`. If it
failed no job of it waits or is held but for the task's own; the runs and jobs of other
sprints are what they were. -/
structure EndsRun
    (store after : Store) (taskId sprintId : String) (next : SprintStatus) (run : RunRow)
    (now : Moment) :
    Prop where
  ended : after.run? run.id = some (run.ended taskId next now)
  cancelled : next = .failed → ∀ job ∈ after.jobs, job.sprintRunId = some run.id →
    job.status.Active → job.taskId = some taskId
  otherRuns : ∀ other : RunRow, other.sprintId ≠ sprintId →
    (other ∈ after.runs ↔ other ∈ store.runs)
  otherJobs : ∀ job : JobRow,
    (∀ other ∈ store.runs, job.sprintRunId = some other.id → other.sprintId ≠ sprintId) →
      (job ∈ after.jobs ↔ job ∈ store.jobs)

variable
  {store after : Store} {taskId sprintId runId : String} {newStatus : TaskStatus}
  {next : SprintStatus} {exceptJobId : Option String} {run : RunRow} {now : Moment}

/-! ## Ending a run -/

namespace Store

theorem run?_eq (distinct : (store.runs.map (·.id)).Nodup) (known : run ∈ store.runs) :
    store.run? run.id = some run :=
  find?_eq_some_of_unique known (decide_eq_true rfl) fun _ member found =>
    List.inj_on_of_nodup_map distinct member known (of_decide_eq_true found)

variable {change : RunRow → RunRow}

theorem run?_updateRun (kept : ∀ row, (change row).id = row.id)
    (distinct : (store.runs.map (·.id)).Nodup) (known : run ∈ store.runs) :
    (store.updateRun run.id change).run? run.id = some (change run) := by
  have member : change run ∈ (store.updateRun run.id change).runs :=
    mem_updateWhere.mpr (.inl ⟨run, known, decide_eq_true rfl, rfl⟩)
  have found := run?_eq (nodup_updateWhere kept distinct) member
  rwa [kept run] at found

theorem mem_runs_updateRun {other : RunRow} (kept : ∀ row, (change row).sprintId = row.sprintId)
    (distinct : (store.runs.map (·.id)).Nodup) (known : run ∈ store.runs)
    (apart : other.sprintId ≠ run.sprintId) :
    other ∈ (store.updateRun run.id change).runs ↔ other ∈ store.runs := by
  constructor
  · intro member
    rcases mem_updateWhere.mp member with ⟨old, inside, matched, rfl⟩ | ⟨inside, -⟩
    · have same := List.inj_on_of_nodup_map distinct inside known (of_decide_eq_true matched)
      rw [kept, same] at apart
      exact absurd rfl apart
    · exact inside
  · intro member
    refine mem_updateWhere.mpr (.inr ⟨member, decide_eq_false fun same => apart ?_⟩)
    rw [List.inj_on_of_nodup_map distinct member known same]

/-- An active run that is ended with its sprint. -/
theorem endsRun_endRun (distinct : (store.runs.map (·.id)).Nodup) (known : run ∈ store.runs)
    (active : run.status.Active)
    (excepted : ∀ job ∈ store.jobs, some job.id = exceptJobId → job.taskId = some taskId) :
    EndsRun store (store.endRun run.id taskId next exceptJobId now) taskId run.sprintId
      next run now := by
  unfold endRun
  rw [run?_eq distinct known, Option.elim_some, if_pos active]
  by_cases failed : next = .failed
  · rw [if_pos failed]
    refine ⟨?_, fun _ job member inRun stillActive => ?_, fun other apart => ?_,
      fun job apart => ?_⟩
    · rw [RunRow.ended, if_pos failed, run?_cancelSiblings]
      exact run?_updateRun (fun _ => rfl) distinct known
    · rcases mem_updateWhere.mp member with ⟨old, inside, matched, rfl⟩ | ⟨inside, missed⟩
      · rcases stillActive with queued | claimed | running
        · cases queued
        · cases claimed
        · cases running
      · have own : some job.id = exceptJobId := by
          by_contra other
          exact of_decide_eq_false missed ⟨inRun, stillActive, other⟩
        exact excepted job inside own
    · rw [runs_cancelSiblings]
      exact mem_runs_updateRun (fun _ => rfl) distinct known apart
    · constructor
      · intro member
        rcases mem_updateWhere.mp member with ⟨old, inside, matched, rfl⟩ | ⟨inside, -⟩
        · exact absurd rfl (apart run known (of_decide_eq_true matched).1)
        · exact inside
      · intro member
        exact mem_updateWhere.mpr (.inr ⟨member, decide_eq_false fun matched =>
          apart run known matched.1 rfl⟩)
  · rw [if_neg failed]
    refine ⟨?_, fun isFailed => absurd isFailed failed, fun other apart => ?_, fun job _ => Iff.rfl⟩
    · rw [RunRow.ended, if_neg failed]
      exact run?_updateRun (fun _ => rfl) distinct known
    · exact mem_runs_updateRun (fun _ => rfl) distinct known apart

/-- A run that is not the one to end stays what it was. -/
theorem run?_endRun_apart (apart : runId ≠ run.id) :
    (store.endRun runId taskId next exceptJobId now).run? run.id = store.run? run.id := by
  unfold endRun
  cases found : store.run? runId with
  | none => rfl
  | some other =>
    have named : other.id = runId :=
      of_decide_eq_true (@List.find?_some _ (fun row : RunRow => decide (row.id = runId))
        _ _ found)
    have unmoved : ∀ change : RunRow → RunRow, (∀ row, (change row).id = row.id) →
        (store.updateRun other.id change).run? run.id = store.run? run.id := by
      intro change kept
      refine find?_updateWhere_apart fun row matched => ?_
      have elsewhere : row.id ≠ run.id := fun same =>
        apart (named.symm.trans ((of_decide_eq_true matched).symm.trans same))
      exact ⟨decide_eq_false elsewhere, decide_eq_false (kept row ▸ elsewhere)⟩
    rw [Option.elim_some]
    split
    · split
      · exact unmoved _ fun _ => rfl
      · exact unmoved _ fun _ => rfl
    · rfl

/-! ## The call -/

/-- A call that gives the sprint of its task another status, `FAILED` or `CLOSED`, goes
on to the run. -/
theorem propagate_settleRun
    {sprint : SprintRow} (whole : store.db.Whole) (own : store.db.OwnSprint taskId sprint)
    (called : store.propagateStatusUpwards taskId newStatus none now = some after)
    (changed : after.db.sprint? sprint.id = some { sprint with status := next })
    (differs : next ≠ sprint.status) :
    ∃ settled : Store, settled.runs = store.runs ∧ settled.jobs = store.jobs ∧
      after = settled.settleRun taskId sprint.id next none now := by
  obtain ⟨sprintKnown, task, taskKnown, named, story, storyKnown, owner, inSprint⟩ := own
  obtain ⟨pbi, pbiKnown, parent⟩ := whole.storyPbi story storyKnown
  rw [propagate_eq whole ⟨taskKnown, named, storyKnown, owner, pbiKnown, parent⟩, inSprint,
    Option.elim_some, sprint?_eq whole.sprints sprintKnown, Option.bind_some] at called
  dsimp only at called
  have sprints := @sprints_settledFor store.db taskId newStatus story pbi
  generalize store.db.settledFor taskId newStatus story pbi = db at called sprints
  split at called
  · cases called
    have unmoved : db.sprint? sprint.id = some sprint :=
      sprint?_eq (sprints ▸ whole.sprints) (sprints ▸ sprintKnown)
    rw [unmoved, Option.some_inj] at changed
    exact absurd (congrArg SprintRow.status changed).symm differs
  · rw [Option.some_inj] at called
    have settled : after.db = db.setSprint sprint.id (db.sprintDecision sprint.id) := by
      rw [← called]
      exact congrArg Prod.fst (statuses_settleRun sprint.id (db.sprintDecision sprint.id))
    rw [settled, sprint?_setSprint (sprints ▸ whole.sprints) (sprints ▸ sprintKnown),
      Option.some_inj] at changed
    have decided : db.sprintDecision sprint.id = next := congrArg SprintRow.status changed
    rw [decided] at called
    exact ⟨({ store with db := db } : Store).writeSprint sprint.id next now, rfl, rfl, called.symm⟩

end Store

/-- The last job of the task that has a run belongs to this run, if there is one. -/
def LastJobIn (store : Store) (taskId : String) (run : RunRow) : Prop :=
  ∀ job ∈ store.taskJob? taskId, job.sprintRunId = some run.id

instance (store : Store) (taskId : String) (run : RunRow) :
    Decidable (LastJobIn store taskId run) := by
  unfold LastJobIn
  infer_instance

theorem taskJob?_spec {job : JobRow} (found : store.taskJob? taskId = some job) :
    job ∈ store.jobs ∧ job.taskId = some taskId ∧ job.sprintRunId.isSome := by
  have member := List.argmax_mem (Option.mem_def.mpr found)
  rw [List.mem_filter, decide_eq_true_eq] at member
  exact member

/-- The run that the call resolves is the active one, and the job it keeps is one of
the task. -/
theorem resolved_of_lastJobIn
    (active : store.activeRuns sprintId = [run]) (last : LastJobIn store taskId run) :
    store.resolvedRunId taskId sprintId none = some run.id ∧
      ∀ job ∈ store.jobs, (store.jobs.map (·.id)).Nodup →
        some job.id = store.cancelExceptJobId taskId none → job.taskId = some taskId := by
  unfold Store.resolvedRunId Store.cancelExceptJobId
  dsimp only [Option.elim_none]
  cases found : store.taskJob? taskId with
  | none =>
    refine ⟨?_, fun job _ _ kept => by cases kept⟩
    rw [Option.elim_none, Store.activeRun?, active]
    rfl
  | some own =>
    have spec := taskJob?_spec found
    refine ⟨last own found, fun job member distinct kept => ?_⟩
    rw [Option.map_some, Option.some_inj] at kept
    rw [List.inj_on_of_nodup_map distinct member spec.1 kept]
    exact spec.2.1

theorem not_active_ended : ¬ (run.ended taskId next now).status.Active := by
  unfold RunRow.ended
  split <;> simp [SprintRunStatus.Active]

/-- A sprint that fails or closes while it has one active run has ended that run with
it exactly if the task has no job with a run, or the last of them is of that run. -/
theorem run_ends_iff
    {sprint : SprintRow} (whole : store.Whole) (own : store.db.OwnSprint taskId sprint)
    (called : store.propagateStatusUpwards taskId newStatus none now = some after)
    (changed : after.db.sprint? sprint.id = some { sprint with status := next })
    (differs : next ≠ sprint.status) (finished : next = .failed ∨ next = .closed)
    (active : store.activeRuns sprint.id = [run]) :
    EndsRun store after taskId sprint.id next run now ↔ LastJobIn store taskId run := by
  obtain ⟨settled, runs, jobs, rfl⟩ :=
    Store.propagate_settleRun whole.db own called changed differs
  have inside : run ∈ store.activeRuns sprint.id := active ▸ List.mem_singleton_self run
  rw [Store.activeRuns, List.mem_filter, decide_eq_true_eq] at inside
  obtain ⟨known, inSprint, isActive⟩ := inside
  have lastSame : LastJobIn settled taskId run ↔ LastJobIn store taskId run := by
    unfold LastJobIn Store.taskJob?
    rw [jobs]
  have activeSame : settled.activeRuns sprint.id = [run] := by
    rw [← active, Store.activeRuns, runs]
    rfl
  rw [Store.settleRun, if_pos finished, ← lastSame]
  constructor
  · intro ends job found
    by_contra elsewhere
    obtain ⟨runId, inRun⟩ := Option.isSome_iff_exists.mp (taskJob?_spec found).2.2
    have apart : runId ≠ run.id := fun same => elsewhere (same ▸ inRun)
    have resolved : settled.resolvedRunId taskId sprint.id none = some runId := by
      rw [← inRun, Store.resolvedRunId, Option.mem_def.mp found]
      rfl
    have ended := ends.ended
    rw [resolved, Option.elim_some, Store.run?_endRun_apart apart,
      Store.run?_eq (runs ▸ whole.runs) (runs ▸ known), Option.some_inj] at ended
    -- The run is what it was, and that is active.
    exact not_active_ended (ended ▸ isActive)
  · intro last
    obtain ⟨resolved, excepted⟩ := resolved_of_lastJobIn activeSame last
    have ends := @Store.endsRun_endRun settled taskId next
      (settled.cancelExceptJobId taskId none) run now (runs ▸ whole.runs) (runs ▸ known)
      isActive fun job member => excepted job member (jobs ▸ whole.jobs)
    rw [resolved, Option.elim_some, ← inSprint]
    exact
      { ended := ends.ended
        cancelled := ends.cancelled
        otherRuns := runs ▸ ends.otherRuns
        otherJobs := runs ▸ jobs ▸ ends.otherJobs }

/-! ## A second run of a sprint -/

namespace SecondRun

def job (id taskId runId : String) (status : JobStatus) (createdAt : Moment) : JobRow where
  id := id
  userId := "user"
  productId := "product"
  taskId := some taskId
  ideaId := none
  sprintRunId := some runId
  sprintSequence := none
  kind := .taskImplementation
  status := status
  runtime := .claude
  source := .system
  requiredCapability := none
  workerInstanceId := none
  dispatchRequestId := none
  dispatchCandidateId := none
  createdAt := createdAt

/-- The first run failed on the second task; the second run has a job for that alone. -/
def start : Store where
  db :=
    { tasks :=
        [{ id := "t1", storyId := "s", status := .done },
          { id := "t2", storyId := "s", status := .toDo }]
      stories := [{ id := "s", pbiId := "p", sprintId := some "sprint", status := .inSprint }]
      pbis := [{ id := "p", status := .ready }]
      sprints := [{ id := "sprint", status := .opened }] }
  completedAt := fun _ => none
  runs :=
    [{ id := "first", sprintId := "sprint", status := .failed, createdAt := 0 },
      { id := "second", sprintId := "sprint", status := .running, createdAt := 5 }]
  jobs :=
    [job "j1" "t1" "first" .done 1, job "j2" "t2" "first" .failed 2,
      job "j3" "t2" "second" .running 6]

/-- What a call leaves. -/
def called (taskId : String) : Store :=
  (start.propagateStatusUpwards taskId .failed none 9).getD start

theorem propagate_eq_called (ran : (start.propagateStatusUpwards taskId .failed none 9).isSome) :
    start.propagateStatusUpwards taskId .failed none 9 = some (called taskId) := by
  obtain ⟨after, found⟩ := Option.isSome_iff_exists.mp ran
  rw [called, found]
  rfl

def second : RunRow :=
  { id := "second", sprintId := "sprint", status := .running, createdAt := 5 }

def sprint : SprintRow := { id := "sprint", status := .opened }

end SecondRun

open SecondRun in
/-- The task with a job in the second run fails: so does the run. -/
theorem run_ends_second_run :
    EndsRun start (called "t2") "t2" "sprint" .failed second 9 ∧
      (called "t2").runs.map (·.status) = [.failed, .failed] :=
  ⟨(@run_ends_iff start (called "t2") "t2" .failed .failed second 9 sprint (by decide)
      (by decide) (propagate_eq_called (by decide +kernel)) (by decide +kernel) (by decide)
      (.inl rfl) (by decide +kernel)).mpr (by decide +kernel),
    by decide +kernel⟩

open SecondRun in
/-- The task that was done in the first run fails later: its sprint fails, the second
run goes on with its job. -/
theorem run_left_running :
    (start.Whole ∧ start.db.OwnSprint "t1" sprint ∧ start.activeRuns "sprint" = [second]) ∧
      start.propagateStatusUpwards "t1" .failed none 9 = some (called "t1") ∧
        (called "t1").db.sprint? "sprint" = some { sprint with status := .failed } ∧
          ((called "t1").runs = start.runs ∧ (called "t1").jobs = start.jobs) ∧
            ¬ EndsRun start (called "t1") "t1" "sprint" .failed second 9 :=
  ⟨by decide +kernel, propagate_eq_called (by decide +kernel), by decide +kernel,
    by decide +kernel, fun ends => absurd ends.ended (by decide +kernel)⟩

end Hierarchy
end Scrum4Me
