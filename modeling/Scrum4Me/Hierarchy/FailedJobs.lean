import Scrum4Me.Hierarchy.JobEffects

/-!
# A failed job and its run

A job fails with a report, with a sweep, or because its repository cannot be resolved. Its
run fails with it: always if it is the job of a sprint; if it is the job of a task, only
with a report, and only if the sprint of the task has not failed before and the last job
of the task is of that run.
-/

namespace Scrum4Me
namespace Hierarchy

open Foundation
open Jobs (JobKind JobRow JobStatus Moment Report SprintRunStatus SprintStatus Statement)

/-- A run that goes on; its jobs are not guarded, and its tasks are still of its sprint,
under PBIs that are not blocked. -/
structure Store.Proper (store : Store) (run : RunRow) : Prop where
  known : run ∈ store.runs
  goesOn : run.GoesOn
  unguarded : ∀ job ∈ store.jobs, job.sprintRunId = some run.id → ¬ Guarded job
  planned : ∀ job ∈ store.jobs, job.sprintRunId = some run.id → ∀ taskId ∈ job.taskId,
    ∃ task story pbi, store.db.Reads taskId task story pbi ∧
      story.sprintId = some run.sprintId ∧ pbi.status ≠ .blocked

/-- A job of the run that implements its task or its sprint. -/
def Implements (job : JobRow) (run : RunRow) : Prop :=
  job.sprintRunId = some run.id ∧
    (job.kind = .taskImplementation ∨ job.kind = .sprintImplementation)

instance (job : JobRow) (run : RunRow) : Decidable (Implements job run) :=
  inferInstanceAs (Decidable (_ ∧ _))

/-- The call is a report that the quota is used up. -/
def JobCall.quotaPause : JobCall → Bool
  | .report _ _ _ told _ _ => Hierarchy.quotaPause told.error
  | _ => false

/-- The run fails with a job, or pauses for the quota. With the job of a task no other job
is left to wait or run. -/
structure EndsWith (store : Store) (call : JobCall) (run : RunRow) (job : JobRow) : Prop where
  ended : ∃ row, (store.perform call).run? run.id = some row ∧
    (row.status = .failed ∨ row.status = .paused ∧ call.quotaPause = true)
  cancelled : job.kind = .taskImplementation →
    ∀ other ∈ (store.perform call).jobs, other.sprintRunId = some run.id →
      other.id ≠ job.id → ¬ other.status.Active

/-- Whatever job of a run fails by the call, its run ends with it. -/
def Lands (store : Store) (call : JobCall) : Prop :=
  ∀ run job, store.Proper run → Implements job run → FailsBy store call job →
    EndsWith store call run job

/-- The job of a task, in this run. -/
def TaskJob (store : Store) (run : RunRow) (job : JobRow) : Prop :=
  store.Proper run ∧ job ∈ store.jobs ∧ job.sprintRunId = some run.id ∧
    job.kind = .taskImplementation

/-- The jobs of tasks fail with a report alone, and that reaches their run. -/
def Meets (store : Store) : JobCall → Prop
  | .sweep userId now => ∀ run job, TaskJob store run job →
      (Statement.staleFailed userId now).Selects job →
        (∃ sprintJob ∈ store.jobs, sprintJob.kind = .sprintImplementation ∧
          sprintJob.sprintRunId = some run.id ∧
            (Statement.staleFailed userId now).Selects sprintJob) ∧
          ∀ other ∈ store.jobs, other.sprintRunId = some run.id → other.status.Active →
            (Statement.staleFailed userId now).Selects other
  | .terminate jobId _ _ => ∀ run job, TaskJob store run job → job.id = jobId →
      job.Unmanaged → job.status = .failed
  | .report jobId tokenId requested report _ _ => report.status = .failed →
      ∀ run job, TaskJob store run job → job.id = jobId →
        Store.Reportable job tokenId requested report →
        job.source ≠ .manual ∧ ∃ taskId, job.taskId = some taskId ∧
          LastJobIn store taskId run ∧
          ∀ sprint ∈ store.db.sprints, sprint.id = run.sprintId → sprint.status ≠ .failed
  | _ => True

variable {store after later : Store} {run : RunRow} {job : JobRow} {taskId runId : String}
  {now : Moment} {report : Report}

/-! ## Runs that fail -/

/-- The run of a job that is given other columns. -/
theorem run?_updateRunOf {change : RunRow → RunRow} (kept : ∀ row, (change row).id = row.id)
    (distinct : (store.runs.map (·.id)).Nodup) (known : run ∈ store.runs)
    (inRun : job.sprintRunId = some run.id) :
    (store.updateRunOf job change).run? run.id = some (change run) := by
  rw [Store.updateRunOf, inRun, Option.elim_some]
  exact Store.run?_updateRun kept distinct known

/-- A run with this key is still there. -/
theorem exists_run (kept : Kept store after) (known : run ∈ store.runs) :
    ∃ row ∈ after.runs, row.id = run.id := by
  have member : run.id ∈ after.runs.map (·.id) := by
    rw [kept.runs]
    exact List.mem_map_of_mem known
  exact List.mem_map.mp member

theorem failed_failRunOf (distinct : (store.runs.map (·.id)).Nodup)
    (known : ∃ row ∈ store.runs, row.id = runId)
    (ends : job.kind = .sprintImplementation ∧ job.sprintRunId = some runId ∨
      ∃ row, store.run? runId = some row ∧ row.status = .failed) :
    ∃ row, (store.failRunOf job).run? runId = some row ∧ row.status = .failed := by
  obtain ⟨run, member, rfl⟩ := known
  by_cases isSprint : job.kind = .sprintImplementation
  · rw [Store.failRunOf, if_pos isSprint]
    by_cases inRun : job.sprintRunId = some run.id
    · exact ⟨_, run?_updateRunOf (fun _ => rfl) distinct member inRun, rfl⟩
    · rcases ends with ⟨-, isRun⟩ | ⟨row, found, failed⟩
      · exact absurd isRun inRun
      · unfold Store.updateRunOf
        cases other : job.sprintRunId with
        | none => exact ⟨row, found, failed⟩
        | some otherId =>
          refine ⟨row, Eq.trans ?_ found, failed⟩
          refine find?_updateWhere_apart fun old matched => ?_
          have elsewhere : old.id ≠ run.id := fun same =>
            inRun (other.trans (congrArg some ((of_decide_eq_true matched).symm.trans same)))
          exact ⟨decide_eq_false elsewhere, decide_eq_false elsewhere⟩
  · rw [Store.failRunOf, if_neg isSprint]
    exact ends.resolve_left fun both => isSprint both.1

theorem failed_foldl_failRunOf {jobs : List JobRow} (distinct : (store.runs.map (·.id)).Nodup)
    (known : ∃ row ∈ store.runs, row.id = runId)
    (ends : (∃ job ∈ jobs, job.kind = .sprintImplementation ∧ job.sprintRunId = some runId) ∨
      ∃ row, store.run? runId = some row ∧ row.status = .failed) :
    ∃ row, (jobs.foldl Store.failRunOf store).run? runId = some row ∧ row.status = .failed := by
  induction jobs generalizing store with
  | nil => exact ends.resolve_left (by rintro ⟨job, ⟨⟩, -⟩)
  | cons job jobs ih =>
    have kept : Kept store (store.failRunOf job) := quiet_failRunOf.toKept
    refine ih (kept.runs ▸ distinct) ?_ ?_
    · obtain ⟨run, member, rfl⟩ := known
      exact exists_run kept member
    · rcases ends with ⟨own, member, isSprint, inRun⟩ | failed
      · rcases List.mem_cons.mp member with rfl | member
        · exact .inr (failed_failRunOf distinct known (.inl ⟨isSprint, inRun⟩))
        · exact .inl ⟨own, member, isSprint, inRun⟩
      · exact .inr (failed_failRunOf distinct known (.inr failed))

/-! ## A task that fails -/

variable {task : TaskRow} {requested : Jobs.ReportStatus} {story : StoryRow} {pbi : PbiRow}

/-- With the task its sprint fails. -/
theorem sprintDecision_failed {db : Db} {sprintId : String}
    (whole : db.Whole) (reads : db.Reads taskId task story pbi)
    (inSprint : story.sprintId = some sprintId) (free : pbi.status ≠ .blocked) :
    (db.settledFor taskId .failed story pbi).sprintDecision sprintId = .failed := by
  have updated : ({ task with status := .failed } : TaskRow) ∈ (db.setTask taskId .failed).tasks :=
    mem_updateWhere.mpr (.inl ⟨task, reads.taskKnown, decide_eq_true reads.named, rfl⟩)
  have keyed : (db.setTask taskId .failed).Keyed :=
    ⟨nodup_updateWhere (fun _ => rfl) whole.keyed.tasks, whole.keyed.stories, whole.keyed.pbis⟩
  have decided : (db.setTask taskId .failed).storyDecision story = .failed := by
    have failed : Jobs.TaskStatus.failed ∈ (db.setTask taskId .failed).taskStatuses story.id :=
      List.mem_map.mpr ⟨_, List.mem_filter.mpr ⟨updated, decide_eq_true reads.owner.symm⟩, rfl⟩
    rw [Db.storyDecision, decideStoryStatus, if_pos failed]
  have storySettled : ({ story with status := .failed } : StoryRow) ∈
      ((db.setTask taskId .failed).setStory story.id .failed).stories :=
    mem_updateWhere.mpr (.inl ⟨story, reads.storyKnown, decide_eq_true rfl, rfl⟩)
  have keyed' : ((db.setTask taskId .failed).setStory story.id .failed).Keyed :=
    ⟨keyed.tasks, nodup_updateWhere (fun _ => rfl) keyed.stories, keyed.pbis⟩
  have decided' : decidePbiStatus
      (((db.setTask taskId .failed).setStory story.id .failed).storyStatuses pbi.id) pbi.status =
        .failed := by
    have failed : Jobs.StoryStatus.failed ∈
        ((db.setTask taskId .failed).setStory story.id .failed).storyStatuses pbi.id :=
      List.mem_map.mpr ⟨_, List.mem_filter.mpr ⟨storySettled, decide_eq_true reads.parent.symm⟩,
        rfl⟩
    rw [decidePbiStatus, if_neg free, if_pos failed]
  rw [Db.settledFor, settleStory_eq_setStory keyed reads.storyKnown, decided,
    settlePbi_eq_setPbi keyed' reads.pbiKnown, decided', Db.sprintDecision, decideSprintStatus,
    if_pos]
  refine List.mem_map.mpr ⟨{ pbi with status := .failed }, ?_, rfl⟩
  refine List.mem_filter.mpr ⟨mem_updateWhere.mpr (.inl ⟨pbi, reads.pbiKnown, decide_eq_true rfl,
    rfl⟩), decide_eq_true (List.mem_map.mpr ⟨_, List.mem_filter.mpr ⟨storySettled,
      decide_eq_true inSprint⟩, reads.parent.symm⟩)⟩

theorem tasks_settledFor {db : Db} {newStatus : Jobs.TaskStatus} (story : StoryRow) (pbi : PbiRow) :
    (db.settledFor taskId newStatus story pbi).tasks = (db.setTask taskId newStatus).tasks := by
  have storySettled : ((db.setTask taskId newStatus).settleStory story).tasks =
      (db.setTask taskId newStatus).tasks := by
    unfold Db.settleStory
    dsimp only
    split <;> rfl
  unfold Db.settledFor Db.settlePbi
  split
  · exact storySettled
  · dsimp only
    split <;> exact storySettled

/-- The run of the task's last job fails, and its other jobs are cancelled. -/
theorem propagate_failed {last : JobRow}
    (whole : store.Whole) (reads : store.db.Reads taskId task story pbi)
    (inSprint : story.sprintId = some run.sprintId) (free : pbi.status ≠ .blocked)
    (opened : ∀ sprint ∈ store.db.sprints, sprint.id = run.sprintId → sprint.status ≠ .failed)
    (known : run ∈ store.runs) (active : run.status.Active)
    (found : store.taskJob? taskId = some last) (inRun : last.sprintRunId = some run.id) :
    ∃ after, store.propagateStatusUpwards taskId .failed none now = some after ∧
      (∃ row, after.run? run.id = some row ∧ row.status = .failed) ∧
      after.jobs = (store.cancelSiblings run.id taskId (some last.id) now).jobs ∧
      ∃ row ∈ after.db.tasks, row.id = taskId := by
  obtain ⟨sprint, sprintKnown, named⟩ :=
    whole.db.storySprint story reads.storyKnown run.sprintId inSprint
  have sprintFound : store.db.sprint? run.sprintId = some sprint := by
    rw [← named]
    exact sprint?_eq whole.db.sprints sprintKnown
  have decided := sprintDecision_failed whole.db reads inSprint free
  rw [Store.propagate_eq whole.db reads, inSprint, Option.elim_some, sprintFound, Option.bind_some]
  dsimp only
  rw [named, decided, if_neg (Ne.symm (opened sprint sprintKnown named)), Store.settleRun,
    if_pos (.inl rfl)]
  have settled : ∀ settled : Store, settled.runs = store.runs → settled.jobs = store.jobs →
      settled.resolvedRunId taskId run.sprintId none = some run.id ∧
        settled.cancelExceptJobId taskId none = some last.id ∧ settled.run? run.id = some run := by
    rintro settled runs jobs
    have same : settled.taskJob? taskId = some last := by
      rw [← found, Store.taskJob?, jobs]
      rfl
    refine ⟨?_, ?_, ?_⟩
    · rw [Store.resolvedRunId, same]
      exact inRun
    · rw [Store.cancelExceptJobId, same]
      rfl
    · rw [Store.run?, runs]
      exact Store.run?_eq whole.runs known
  obtain ⟨resolved, except, ran⟩ := settled (({ store with
    db := store.db.settledFor taskId .failed story pbi } : Store).writeSprint run.sprintId .failed
      now) rfl rfl
  rw [resolved, Option.elim_some, Store.endRun, ran, Option.elim_some, if_pos active, if_pos rfl,
    except]
  refine ⟨_, rfl, ?_, rfl, { task with status := .failed }, ?_, reads.named⟩
  · rw [Store.run?_cancelSiblings]
    exact ⟨_, Store.run?_updateRun (fun _ => rfl) whole.runs known, rfl⟩
  · change _ ∈ (store.db.settledFor taskId .failed story pbi).tasks
    rw [tasks_settledFor]
    exact mem_updateWhere.mpr (.inl ⟨task, reads.taskKnown, decide_eq_true reads.named, rfl⟩)

/-! ## Sweeps and failures -/

theorem jobs_failRunOf : (store.failRunOf job).jobs = store.jobs := by
  unfold Store.failRunOf Store.updateRunOf
  split
  · cases job.sprintRunId <;> rfl
  · rfl

theorem jobs_foldl_failRunOf (jobs : List JobRow) :
    (jobs.foldl Store.failRunOf store).jobs = store.jobs := by
  induction jobs generalizing store with
  | nil => rfl
  | cons job jobs ih => exact ih.trans jobs_failRunOf

theorem lands_sweep {userId : String}
    (whole : store.Whole) (meets : Meets store (.sweep userId now)) :
    Lands store (.sweep userId now) := by
  rintro run job proper ⟨inRun, kind⟩ ⟨member, unfailed, row, inside, same, failed⟩
  have jobs : (store.perform (.sweep userId now)).jobs = store.jobs.map fun old =>
      (Statement.staleRequeued userId now).apply ((Statement.staleFailed userId now).apply old) := by
    rw [Store.perform, Store.resetStaleClaimedJobs, jobs_foldl_failRunOf, Store.write, Store.write,
      List.map_map]
    rfl
  -- A job that fails is one that the first statement selects.
  have selected : (Statement.staleFailed userId now).Selects job := by
    rw [jobs] at inside
    obtain ⟨old, known, rfl⟩ := List.mem_map.mp inside
    rw [Statement.apply_id, Statement.apply_id] at same
    rw [List.inj_on_of_nodup_map whole.jobs known member same] at failed
    by_contra missed
    rw [Statement.apply_of_not_selects missed] at failed
    by_cases requeued : (Statement.staleRequeued userId now).Selects job
    · rw [Statement.apply_of_selects requeued, Statement.set_status] at failed
      cases failed
    · rw [Statement.apply_of_not_selects requeued] at failed
      exact unfailed failed
  have fails : (∃ own ∈ store.jobs.filter fun job =>
      (Statement.staleFailed userId now).Selects job,
        own.kind = .sprintImplementation ∧ own.sprintRunId = some run.id) →
      ∃ row, (store.perform (.sweep userId now)).run? run.id = some row ∧ row.status = .failed :=
    fun own => failed_foldl_failRunOf whole.runs ⟨run, proper.known, rfl⟩ (.inl own)
  rcases kind with isTask | isSprint
  · obtain ⟨⟨own, ownKnown, isSprint, ownRun, ownSelected⟩, others⟩ :=
      meets run job ⟨proper, member, inRun, isTask⟩ selected
    obtain ⟨row, found, failed⟩ := fails ⟨own, List.mem_filter.mpr ⟨ownKnown,
      decide_eq_true ownSelected⟩, isSprint, ownRun⟩
    refine ⟨⟨row, found, .inl failed⟩, fun _ other known otherRun apart active => ?_⟩
    rw [jobs] at known
    obtain ⟨old, oldKnown, rfl⟩ := List.mem_map.mp known
    have static := @Statement.apply_static
    have oldRun : old.sprintRunId = some run.id := by
      rw [← otherRun, static.2.2.2.2.1, static.2.2.2.2.1]
    by_cases taken : (Statement.staleFailed userId now).Selects old
    · rw [Statement.apply_of_selects taken] at active
      rw [Statement.apply_of_not_selects (by rintro ⟨-, -, held, -⟩; rcases held with ⟨⟨⟩⟩ | ⟨⟨⟩⟩)]
        at active
      rcases active with ⟨⟨⟩⟩ | ⟨⟨⟩⟩ | ⟨⟨⟩⟩
    · rw [Statement.apply_of_not_selects taken] at active
      by_cases requeued : (Statement.staleRequeued userId now).Selects old
      · exact taken (others old oldKnown oldRun requeued.2.2.1.active)
      · rw [Statement.apply_of_not_selects requeued] at active
        exact taken (others old oldKnown oldRun active)
  · obtain ⟨row, found, failed⟩ := fails ⟨job, List.mem_filter.mpr ⟨member,
      decide_eq_true selected⟩, isSprint, inRun⟩
    exact ⟨⟨row, found, .inl failed⟩, fun isTask => by rw [isSprint] at isTask; cases isTask⟩

theorem lands_terminate {jobId reason : String}
    (whole : store.Whole) (meets : Meets store (.terminate jobId reason now)) :
    Lands store (.terminate jobId reason now) := by
  rintro run job proper ⟨inRun, kind⟩ fails
  obtain ⟨member, unfailed, row, inside, same, failed⟩ := id fails
  cases found : store.job? jobId with
  | none =>
    refine absurd fails (not_failsBy_of_quiet whole ?_)
    rw [Store.perform, Store.markJobTerminallyFailed, found]
    exact .refl store
  | some read =>
    by_cases unmanaged : read.Unmanaged
    · have performed : store.perform (.terminate jobId reason now) =
          (store.write (.markJobTerminallyFailed jobId reason now)).failRunOf read := by
        rw [Store.perform, Store.markJobTerminallyFailed, found, Option.elim_some, if_pos unmanaged]
      have readKnown := List.mem_of_find?_eq_some found
      have readId : read.id = jobId := by simpa using List.find?_some found
      rw [performed, jobs_failRunOf] at inside
      obtain ⟨old, known, rfl⟩ := List.mem_map.mp inside
      rw [Statement.apply_id] at same
      obtain rfl := List.inj_on_of_nodup_map whole.jobs known member same
      have selected : old.id = jobId := by
        by_contra missed
        have kept := @Statement.apply_of_not_selects (.markJobTerminallyFailed jobId reason now)
          old missed
        rw [kept] at failed
        exact unfailed failed
      obtain rfl : old = read :=
        List.inj_on_of_nodup_map whole.jobs known readKnown (selected.trans readId.symm)
      rcases kind with isTask | isSprint
      · exact absurd (meets run old ⟨proper, member, inRun, isTask⟩ selected unmanaged) unfailed
      · have kept : Kept store (store.write (.markJobTerminallyFailed jobId reason now)) := .write _
        obtain ⟨row, ran, failed⟩ := failed_failRunOf (kept.runs ▸ whole.runs)
          (exists_run kept proper.known) (.inl ⟨isSprint, inRun⟩)
        rw [← performed] at ran
        exact ⟨⟨row, ran, .inl failed⟩, fun isTask => by rw [isSprint] at isTask; cases isTask⟩
    · refine absurd fails (not_failsBy_of_quiet whole ?_)
      rw [Store.perform, Store.markJobTerminallyFailed, found, Option.elim_some, if_neg unmanaged]
      exact .refl store

/-! ## Reports -/

theorem reportStatements_eq {tokenId : String}
    (kind : job.kind = .taskImplementation ∨ job.kind = .sprintImplementation) :
    store.reportStatements job tokenId report now = [.updateJobStatus job.id report job now] := by
  have notDeploy : ¬ Jobs.deployEnd job report := by
    rintro ⟨deploy, -⟩
    rcases kind with kind | kind
    · rw [kind] at deploy; cases deploy
    · rw [kind] at deploy; cases deploy
  have notAudit : job.kind ≠ .docsAudit := by
    rcases kind with kind | kind
    · rw [kind]; rintro ⟨⟩
    · rw [kind]; rintro ⟨⟩
  have notChat : job.kind ≠ .agentChat := by
    rcases kind with kind | kind
    · rw [kind]; rintro ⟨⟩
    · rw [kind]; rintro ⟨⟩
  rw [Store.reportStatements, if_neg fun both => notDeploy both.1, Jobs.reportStatements,
    if_neg fun both => notAudit both.1, if_neg notChat, if_neg notDeploy]

theorem argmax_map {table : List α} {change : α → α} {key : α → Nat}
    (kept : ∀ row, key (change row) = key row) :
    (table.map change).argmax key = (table.argmax key).map change := by
  induction table with
  | nil => rfl
  | cons row table ih =>
    rw [List.map_cons, List.argmax_cons, List.argmax_cons, ih]
    cases table.argmax key with
    | none => rfl
    | some other =>
      dsimp only [Option.map_some]
      rw [kept, kept]
      split <;> rfl

/-- The last job of a task is the same one after a statement on the jobs. -/
theorem taskJob?_write (statement : Statement)
    (dated : ∀ job : JobRow, (statement.apply job).createdAt = job.createdAt) :
    (store.write statement).taskJob? taskId = (store.taskJob? taskId).map statement.apply := by
  have static := @Statement.apply_static statement
  rw [Store.taskJob?, Store.taskJob?, ← argmax_map dated, Store.write, List.filter_map]
  congr 2
  refine List.filter_congr fun job _ => ?_
  rw [Function.comp, static.2.2.2.1, static.2.2.2.2.1]

theorem exists_taskJob? (member : job ∈ store.jobs) (ofTask : job.taskId = some taskId)
    (inRun : job.sprintRunId.isSome) :
    ∃ last, store.taskJob? taskId = some last := by
  rw [← Option.isSome_iff_exists, Option.isSome_iff_ne_none]
  intro missing
  rw [Store.taskJob?, List.argmax_eq_none] at missing
  exact List.filter_eq_nil_iff.mp missing job member (decide_eq_true ⟨ofTask, inRun⟩)

theorem createdAt_updateJobStatus {read : JobRow} (row : JobRow) :
    ((Statement.updateJobStatus job.id report read now).apply row).createdAt = row.createdAt := by
  unfold Statement.apply
  split <;> rfl

/-- After a failed report on the job of a task its run has failed, and the jobs of the run
that are still active are those of the task. -/
theorem propagateReport_failed {last : JobRow}
    (whole : store.Whole) (reads : store.db.Reads taskId task story pbi)
    (inSprint : story.sprintId = some run.sprintId) (free : pbi.status ≠ .blocked)
    (opened : ∀ sprint ∈ store.db.sprints, sprint.id = run.sprintId → sprint.status ≠ .failed)
    (known : run ∈ store.runs) (goesOn : run.GoesOn) (flows : Store.Flows job)
    (failed : report.status = .failed) (ofTask : job.taskId = some taskId)
    (found : store.taskJob? taskId = some last) (lastRun : last.sprintRunId = some run.id) :
    (∃ row, (store.propagateReport job report now).run? run.id = some row ∧ row.status = .failed) ∧
      (∃ row ∈ (store.propagateReport job report now).db.tasks, row.id = taskId) ∧
      ∀ other ∈ (store.propagateReport job report now).jobs, other.sprintRunId = some run.id →
        other.status.Active → other.taskId = some taskId := by
  have active : run.status.Active := by
    rcases goesOn with waits | runs
    · rw [waits]; decide
    · rw [runs]; decide
  obtain ⟨after, called, ended, jobs, tasks⟩ :=
    @propagate_failed store run taskId now task story pbi last whole reads inSprint free opened
      known active found lastRun
  have propagated : store.propagateReport job report now = after := by
    rw [Store.propagateReport, if_pos ⟨flows, .inr failed⟩, ofTask, Option.elim_some,
      if_neg (by rw [failed]; rintro ⟨⟩), called, Option.getD_some]
  rw [propagated]
  refine ⟨ended, tasks, fun other known otherRun stillActive => ?_⟩
  rw [jobs] at known
  rcases mem_updateWhere.mp known with ⟨old, oldKnown, -, rfl⟩ | ⟨oldKnown, missed⟩
  · rcases stillActive with ⟨⟨⟩⟩ | ⟨⟨⟩⟩ | ⟨⟨⟩⟩
  · have spec := taskJob?_spec found
    have own : other.id = last.id := by
      by_contra apart
      exact of_decide_eq_false missed ⟨otherRun, stillActive, fun same =>
        apart (Option.some.inj same)⟩
    rw [List.inj_on_of_nodup_map whole.jobs oldKnown spec.1 own]
    exact spec.2.1

/-- The jobs of the task are under the PBI whose jobs are cancelled. -/
theorem cascade_failed (whole : store.Whole) (task : ∃ row ∈ store.db.tasks, row.id = taskId)
    (flows : Store.Flows job) (failed : report.status = .failed)
    (ofTask : job.taskId = some taskId) {other : JobRow}
    (known : other ∈ (store.cascade job report now).jobs) (apart : other.id ≠ job.id)
    (active : other.status.Active) :
    other ∈ store.jobs ∧ other.taskId ≠ some taskId := by
  have some' : ∃ pbiId, store.pbiOf? taskId = some pbiId := by
    obtain ⟨row, story, pbi, reads⟩ := exists_reads whole.db task
    have taskFound : store.db.task? taskId = some row :=
      find?_eq_some_of_unique reads.taskKnown (decide_eq_true reads.named) fun row' member found =>
        whole.db.keyed.task member reads.taskKnown ((of_decide_eq_true found).trans
          reads.named.symm)
    have storyFound : store.db.story? row.storyId = some story := by
      rw [← reads.owner]
      exact story?_eq whole.db.keyed reads.storyKnown
    exact ⟨story.pbiId, by rw [Store.pbiOf?, taskFound, Option.bind_some, storyFound]; rfl⟩
  obtain ⟨pbiId, under⟩ := some'
  rw [Store.cascade, if_pos ⟨flows, failed⟩, Store.cancelPbiOnFailure, ofTask, Option.bind_some,
    under, Option.elim_some] at known
  obtain ⟨old, oldKnown, rfl⟩ := List.mem_map.mp known
  rw [Statement.apply_id] at apart
  by_cases selected : old.id ∈ (store.eligible job pbiId).map (·.id)
  · rw [@Statement.apply_of_selects (.cancelPbi _ now) old selected] at active
    rcases active with ⟨⟨⟩⟩ | ⟨⟨⟩⟩ | ⟨⟨⟩⟩
  · rw [@Statement.apply_of_not_selects (.cancelPbi _ now) old selected] at active ⊢
    refine ⟨oldKnown, fun sameTask => selected (List.mem_map_of_mem (List.mem_filter.mpr
      ⟨oldKnown, decide_eq_true ⟨apart, active, ?_⟩⟩))⟩
    rw [sameTask, Option.bind_some, under]

theorem runs_cascade : (store.cascade job report now).runs = store.runs := by
  unfold Store.cascade Store.cancelPbiOnFailure
  split
  · cases job.taskId.bind store.pbiOf? <;> rfl
  · rfl

/-- After a failed report on the job of a sprint its run has failed, or it pauses. -/
theorem settleSprintJob_failed (distinct : (store.runs.map (·.id)).Nodup)
    (known : ∃ row ∈ store.runs, row.id = runId)
    (isSprint : job.kind = .sprintImplementation) (inRun : job.sprintRunId = some runId)
    (failed : report.status = .failed) :
    ∃ row, (store.settleSprintJob job report now).run? runId = some row ∧
      (row.status = .failed ∨ row.status = .paused ∧ quotaPause report.error = true) := by
  obtain ⟨run, member, rfl⟩ := known
  have notDone : ¬ report.status = .done := by
    rw [failed]
    rintro ⟨⟩
  rw [Store.settleSprintJob, if_pos isSprint, if_neg notDone, if_pos failed]
  refine ⟨_, run?_updateRunOf (fun row => ?_) distinct member inRun, ?_⟩
  · split <;> rfl
  · split
    · rename_i paused
      exact .inr ⟨rfl, paused⟩
    · exact .inl rfl

/-- A job that fails with a report is the one reported on. -/
theorem reported_of_failsBy {jobId tokenId : String} {conflict : Bool} (whole : store.Whole)
    (kind : job.kind = .taskImplementation ∨ job.kind = .sprintImplementation)
    (fails : FailsBy store (.report jobId tokenId requested report conflict now) job) :
    job.id = jobId ∧ Store.Reportable job tokenId requested report ∧ report.status = .failed ∧
      ∃ written : Store, written = store.write (.updateJobStatus job.id report job now) ∧
        store.perform (.report jobId tokenId requested report conflict now) =
          (((written.propagateReport job report now).pauseOnConflict job report conflict).cascade
            job report now).settleSprintJob job report now := by
  obtain ⟨member, unfailed, row, inside, same, failed⟩ := id fails
  cases found : store.job? jobId with
  | none =>
    refine absurd fails (not_failsBy_of_quiet whole ?_)
    rw [Store.perform, Store.updateJobStatus, found]
    exact .refl store
  | some read =>
    by_cases accepted : Store.Reportable read tokenId requested report
    · have readKnown := List.mem_of_find?_eq_some found
      have readId : read.id = jobId := by simpa using List.find?_some found
      have performed : store.perform (.report jobId tokenId requested report conflict now) =
            ((((((store.reportStatements read tokenId report now).foldl Store.write
              store).propagateReport read report now).pauseOnConflict read report
                conflict).cascade read report now).settleSprintJob read report now) := by
        rw [Store.perform, Store.updateJobStatus, found, Option.elim_some, if_pos accepted]
      rw [performed] at inside
      obtain ⟨written, writtenKnown, same', failed⟩ := quiet_settle.unfailed row inside failed
      rw [foldl_write] at writtenKnown
      obtain ⟨old, oldKnown, rfl⟩ := List.mem_map.mp writtenKnown
      rw [foldl_apply_id] at same'
      obtain rfl : old = job :=
        List.inj_on_of_nodup_map whole.jobs oldKnown member (same'.trans same)
      obtain ⟨statement, among, target, other, same, selected⟩ :=
        (failed_of_foldl failed).resolve_left unfailed
      obtain rfl : old = read := List.inj_on_of_nodup_map whole.jobs oldKnown readKnown
        (same.symm.trans (reportStatements_target among target selected))
      rw [reportStatements_eq kind] at among performed
      rw [List.mem_singleton] at among
      rw [among] at target
      refine ⟨readId, accepted, ?_, _, rfl, performed⟩
      have toFailed : report.status.jobStatus = .failed := Option.some.inj target
      revert toFailed
      cases report.status <;> rintro ⟨⟩
      rfl
    · refine absurd fails (not_failsBy_of_quiet whole ?_)
      rw [Store.perform, Store.updateJobStatus, found, Option.elim_some, if_neg accepted]
      exact .refl store

theorem lands_report {jobId tokenId : String} {conflict : Bool} (whole : store.Whole)
    (meets : Meets store (.report jobId tokenId requested report conflict now)) :
    Lands store (.report jobId tokenId requested report conflict now) := by
  rintro run job proper ⟨inRun, kind⟩ fails
  obtain ⟨named, accepted, failed, written, isWritten, performed⟩ :=
    reported_of_failsBy whole kind fails
  have member := fails.1
  have kept : Kept store written := by
    rw [isWritten]
    exact .write _
  rcases kind with isTask | isSprint
  · have taskJob : TaskJob store run job := ⟨proper, member, inRun, isTask⟩
    obtain ⟨source, taskId, ofTask, last, opened⟩ := meets failed run job taskJob named accepted
    have flows : Store.Flows job := ⟨isTask, source, proper.unguarded job member inRun⟩
    obtain ⟨task, story, pbi, reads, inSprint, free⟩ :=
      proper.planned job member inRun taskId ofTask
    have notDone : ¬ report.status = .done := by
      rw [failed]
      rintro ⟨⟩
    have noConflict : (written.propagateReport job report now).pauseOnConflict job report conflict =
        written.propagateReport job report now :=
      if_neg fun pauses => notDone pauses.2.2
    have noSprint : ∀ store : Store, store.settleSprintJob job report now = store :=
      fun store => if_neg fun isSprint => by rw [isTask] at isSprint; cases isSprint
    rw [noConflict, noSprint] at performed
    obtain ⟨own, found⟩ := exists_taskJob? member ofTask (inRun ▸ rfl)
    have foundAfter : written.taskJob? taskId = some
        ((Statement.updateJobStatus job.id report job now).apply own) := by
      rw [isWritten, taskJob?_write _ createdAt_updateJobStatus, found, Option.map_some]
    have ownRun : ((Statement.updateJobStatus job.id report job now).apply own).sprintRunId =
        some run.id :=
      Statement.apply_static.2.2.2.2.1.trans (last own found)
    have sameDb : written.db = store.db := by
      rw [isWritten]
      rfl
    have sameRuns : written.runs = store.runs := by
      rw [isWritten]
      rfl
    obtain ⟨ended, tasks, others⟩ := propagateReport_failed (kept.whole whole)
      (sameDb ▸ reads) inSprint free (sameDb ▸ opened) (sameRuns ▸ proper.known)
      proper.goesOn flows failed ofTask foundAfter ownRun
    refine ⟨?_, fun _ other known otherRun apart active => ?_⟩
    · obtain ⟨row, found, rowFailed⟩ := ended
      refine ⟨row, ?_, .inl rowFailed⟩
      rw [performed, Store.run?, runs_cascade]
      exact found
    · rw [performed] at known
      have propagated : Kept written (written.propagateReport job report now) :=
        quiet_propagateReport.toKept
      obtain ⟨inside, elsewhere⟩ := cascade_failed (propagated.whole (kept.whole whole)) tasks
        flows failed ofTask known apart active
      exact elsewhere (others other inside otherRun active)
  · refine ⟨?_, fun isTask => by rw [isSprint] at isTask; cases isTask⟩
    have before : Kept written (((written.propagateReport job report now).pauseOnConflict job
        report conflict).cascade job report now) :=
      ((quiet_propagateReport.trans quiet_pauseOnConflict).trans quiet_cascade).toKept
    have all := kept.trans before
    rw [performed]
    exact settleSprintJob_failed (all.runs ▸ whole.runs) (exists_run all proper.known) isSprint
      inRun failed

/-! ## Calls one after another -/

theorem lands_of_meets {call : JobCall} (whole : store.Whole) (meets : Meets store call) :
    Lands store call := by
  cases call with
  | claim =>
    intro run job _ _ fails
    exact absurd fails (not_failsBy_of_quiet whole quiet_tryClaimJob)
  | giveBack =>
    intro run job _ _ fails
    exact absurd fails (not_failsBy_of_quiet whole (Quiet.write (by rintro ⟨⟩)))
  | sweep => exact lands_sweep whole meets
  | terminate => exact lands_terminate whole meets
  | report => exact lands_report whole meets

/-- If every call of a run meets the condition, a run whose job fails ends with it, and does
not go on later. -/
theorem run_ends_with_failed_job (start : Store) (whole : start.Whole) (calls : List JobCall)
    (meets : EveryStep Store.perform Meets start calls) :
    ∀ first call second, calls = first ++ call :: second →
      ∀ run job, (Foundation.run Store.perform start first).Proper run → Implements job run →
        FailsBy (Foundation.run Store.perform start first) call job →
          EndsWith (Foundation.run Store.perform start first) call run job ∧
            ∀ middle, middle <+: second →
              ∀ row ∈ (Foundation.run Store.perform start (first ++ call :: middle)).runs,
                row.id = run.id → ¬ row.GoesOn := by
  rintro first call second rfl run job proper implements fails
  have before := (kept_run start first).whole whole
  have met : Meets (Foundation.run Store.perform start first) call :=
    ((everyStep_append _ _ _ _).mp meets).2.1
  have ends := lands_of_meets before met run job proper implements fails
  refine ⟨ends, fun middle _ row member same goesOn => ?_⟩
  rw [run_append, run_cons] at member
  obtain ⟨earlier, known, same', goesOn⟩ :=
    (kept_run (Store.perform _ call) middle).goesOn row member goesOn
  obtain ⟨ended, found, status⟩ := ends.ended
  have after := ((kept_perform call).whole before).runs
  have own := Store.run?_eq after known
  rw [same', same, found] at own
  obtain rfl := Option.some.inj own
  rcases status with failed | ⟨paused, -⟩
  · rcases goesOn with waits | runs
    · rw [failed] at waits; cases waits
    · rw [failed] at runs; cases runs
  · rcases goesOn with waits | runs
    · rw [paused] at waits; cases waits
    · rw [paused] at runs; cases runs

/-! ## A run with two tasks -/

namespace TwoTasks

def jobOf (id taskId : String) (status : JobStatus) (createdAt : Moment) : JobRow where
  id := id
  userId := "user"
  productId := "product"
  taskId := some taskId
  ideaId := none
  sprintRunId := some "run"
  sprintSequence := none
  kind := .taskImplementation
  status := status
  runtime := .claude
  source := .system
  requiredCapability := none
  workerInstanceId := none
  dispatchRequestId := none
  dispatchCandidateId := none
  createdAt := createdAt

/-- The first task's job, on its third claim. -/
def held : JobRow :=
  { jobOf "j1" "t1" .running 1 with
    claimedByTokenId := some "token"
    leaseUntil := some 3
    retryCount := 2 }

def sprintRun : RunRow := { id := "run", sprintId := "sprint", status := .running, createdAt := 0 }

def start : Store where
  db :=
    { tasks :=
        [{ id := "t1", storyId := "s", status := .inProgress },
          { id := "t2", storyId := "s", status := .toDo }]
      stories := [{ id := "s", pbiId := "p", sprintId := some "sprint", status := .inSprint }]
      pbis := [{ id := "p", status := .ready }]
      sprints := [{ id := "sprint", status := .opened }] }
  completedAt := fun _ => none
  runs := [sprintRun]
  jobs := [held, jobOf "j2" "t2" .queued 2]

theorem proper : start.Proper sprintRun where
  known := List.mem_singleton_self sprintRun
  goesOn := .inr rfl
  unguarded := by decide +kernel
  planned := by
    intro row member _ taskId ofTask
    have member : row = held ∨ row = jobOf "j2" "t2" .queued 2 := by simpa [start] using member
    rcases member with rfl | rfl
    · obtain rfl : "t1" = taskId := Option.some.inj ofTask
      exact ⟨{ id := "t1", storyId := "s", status := .inProgress },
        { id := "s", pbiId := "p", sprintId := some "sprint", status := .inSprint },
        { id := "p", status := .ready }, by constructor <;> decide +kernel, rfl, by decide⟩
    · obtain rfl : "t2" = taskId := Option.some.inj ofTask
      exact ⟨{ id := "t2", storyId := "s", status := .toDo },
        { id := "s", pbiId := "p", sprintId := some "sprint", status := .inSprint },
        { id := "p", status := .ready }, by constructor <;> decide +kernel, rfl, by decide⟩

/-- Its worker reports that it failed. -/
def failure : JobCall := .report "j1" "token" .failed { status := .failed } false 9

theorem meets : Meets start failure := by
  rintro - run row ⟨proper, member, inRun, -⟩ named -
  obtain rfl : run = sprintRun := List.mem_singleton.mp proper.known
  obtain rfl : row = held :=
    @List.inj_on_of_nodup_map _ _ (·.id) start.jobs (by decide +kernel) row member held
      List.mem_cons_self named
  exact ⟨by decide, "t1", rfl, by decide +kernel, by decide +kernel⟩

end TwoTasks

open TwoTasks in
theorem run_ends_two_tasks :
    EndsWith start failure sprintRun held ∧
      ∀ row ∈ (start.perform failure).runs, row.id = "run" → ¬ row.GoesOn := by
  obtain ⟨ends, stays⟩ := run_ends_with_failed_job start (by decide +kernel) [failure]
    ⟨meets, trivial⟩ [] failure [] rfl sprintRun held proper (by decide)
    ⟨List.mem_cons_self, by decide, by decide +kernel⟩
  exact ⟨ends, stays [] List.prefix_rfl⟩

open TwoTasks in
/-- The claim runs out for the third time: the job fails with the next sweep, its run goes
on with the job of the other task. -/
theorem run_left_with_failed_job :
    start.Whole ∧ start.Proper sprintRun ∧ Implements held sprintRun ∧
      FailsBy start (.sweep "user" 9) held ∧ (start.perform (.sweep "user" 9)).runs = [sprintRun] ∧
          (start.perform (.sweep "user" 9)).jobs.map (·.status) = [.failed, .queued] ∧
            ¬ EndsWith start (.sweep "user" 9) sprintRun held := by
  have runs : (start.perform (.sweep "user" 9)).runs = [sprintRun] := by decide +kernel
  refine ⟨by decide +kernel, proper, by decide,
    ⟨List.mem_cons_self, by decide, by decide +kernel⟩, runs, by decide +kernel, fun ends => ?_⟩
  obtain ⟨row, found, ended⟩ := ends.ended
  obtain rfl : sprintRun = row := by
    rw [Store.run?, runs] at found
    exact Option.some.inj found
  revert ended
  decide

end Hierarchy
end Scrum4Me
