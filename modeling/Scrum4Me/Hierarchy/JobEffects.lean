import Scrum4Me.Hierarchy.JobCalls
import Scrum4Me.Hierarchy.Sprints

/-!
# What calls leave as it was

No call takes a job or a run away, and none makes a run go on that did not before. Parts
of a call that write no job as failed fail none.
-/

namespace Scrum4Me
namespace Hierarchy

open Foundation
open Jobs (JobRow Moment Report SprintRunStatus SprintStatus Statement)

/-- The run waits or runs. -/
def RunRow.GoesOn (run : RunRow) : Prop := run.status = .queued ∨ run.status = .running

instance (run : RunRow) : Decidable run.GoesOn := inferInstanceAs (Decidable (_ ∨ _))

/-- The job has not failed before the call, but after it. -/
def FailsBy (store : Store) (call : JobCall) (job : JobRow) : Prop :=
  job ∈ store.jobs ∧ job.status ≠ .failed ∧
    ∃ row ∈ (store.perform call).jobs, row.id = job.id ∧ row.status = .failed

variable {store after later : Store} {run : RunRow} {job : JobRow} {taskId runId : String}
  {now : Moment}

/-! ## What stays -/

/-- Jobs and runs keep their keys, and no run goes on that did not before. -/
structure Kept (store after : Store) : Prop where
  jobs : after.jobs.map (·.id) = store.jobs.map (·.id)
  runs : after.runs.map (·.id) = store.runs.map (·.id)
  goesOn : ∀ row ∈ after.runs, row.GoesOn → ∃ run ∈ store.runs, run.id = row.id ∧ run.GoesOn
  db : store.db.Whole → after.db.Whole

/-- Besides, no job fails. -/
structure Quiet (store after : Store) : Prop extends Kept store after where
  unfailed : ∀ row ∈ after.jobs, row.status = .failed →
    ∃ job ∈ store.jobs, job.id = row.id ∧ job.status = .failed

theorem Kept.trans (first : Kept store after) (second : Kept after later) : Kept store later where
  jobs := second.jobs.trans first.jobs
  runs := second.runs.trans first.runs
  goesOn := by
    intro row member goesOn
    obtain ⟨next, inside, same, goesOn⟩ := second.goesOn row member goesOn
    obtain ⟨run, known, same', goesOn⟩ := first.goesOn next inside goesOn
    exact ⟨run, known, same'.trans same, goesOn⟩
  db := second.db ∘ first.db

theorem Kept.whole (kept : Kept store after) (whole : store.Whole) : after.Whole where
  db := kept.db whole.db
  runs := kept.runs ▸ whole.runs
  jobs := kept.jobs ▸ whole.jobs

theorem Kept.write (statement : Statement) : Kept store (store.write statement) where
  jobs := by
    rw [Store.write, List.map_map]
    exact List.map_congr_left fun _ _ => Statement.apply_id
  runs := rfl
  goesOn := fun row member goesOn => ⟨row, member, rfl, goesOn⟩
  db := id

namespace Quiet

theorem refl (store : Store) : Quiet store store where
  jobs := rfl
  runs := rfl
  goesOn := fun row member goesOn => ⟨row, member, rfl, goesOn⟩
  db := id
  unfailed := fun row member failed => ⟨row, member, rfl, failed⟩

theorem trans (first : Quiet store after) (second : Quiet after later) : Quiet store later where
  toKept := first.toKept.trans second.toKept
  unfailed := by
    intro row member failed
    obtain ⟨next, inside, same, failed⟩ := second.unfailed row member failed
    obtain ⟨job, known, same', failed⟩ := first.unfailed next inside failed
    exact ⟨job, known, same'.trans same, failed⟩

/-- A statement that fails no job. -/
theorem write {statement : Statement} (harmless : statement.target ≠ some .failed) :
    Quiet store (store.write statement) where
  toKept := .write statement
  unfailed := by
    intro row member failed
    obtain ⟨job, known, rfl⟩ := List.mem_map.mp member
    refine ⟨job, known, Statement.apply_id.symm, ?_⟩
    unfold Statement.apply at failed
    split at failed
    · rw [Statement.set_status] at failed
      cases target : statement.target with
      | none => rwa [target] at failed
      | some status =>
        rw [target] at failed
        exact absurd (target.trans (congrArg some failed)) harmless
    · exact failed

variable {change : RunRow → RunRow}

theorem updateRun (kept : ∀ run, (change run).id = run.id ∧ ((change run).GoesOn → run.GoesOn)) :
    Quiet store (store.updateRun runId change) where
  jobs := rfl
  runs := by
    rw [Store.updateRun, updateWhere, List.map_map]
    refine List.map_congr_left fun run _ => ?_
    rw [Function.comp]
    split
    · exact (kept run).1
    · rfl
  goesOn := by
    intro row member goesOn
    rcases mem_updateWhere.mp member with ⟨run, known, -, rfl⟩ | ⟨known, -⟩
    · exact ⟨run, known, (kept run).1.symm, (kept run).2 goesOn⟩
    · exact ⟨row, known, rfl, goesOn⟩
  db := id
  unfailed := fun row member failed => ⟨row, member, rfl, failed⟩

theorem endRun (same : ∀ run, (change run).id = run.id) (ended : ∀ run, ¬ (change run).GoesOn) :
    Quiet store (store.updateRun runId change) :=
  updateRun fun run => ⟨same run, fun goesOn => absurd goesOn (ended run)⟩

theorem updateRunOf (kept : ∀ run, (change run).id = run.id ∧ ((change run).GoesOn → run.GoesOn)) :
    Quiet store (store.updateRunOf job change) := by
  unfold Store.updateRunOf
  cases job.sprintRunId with
  | none => exact refl store
  | some runId => exact updateRun kept

end Quiet

/-! ## The hierarchy -/

variable {newStatus : Jobs.TaskStatus}

theorem propagate_db {sprintRunId : Option String} :
    (store.propagateStatusUpwards taskId newStatus sprintRunId now).map Store.db =
      store.db.propagateStatusUpwards taskId newStatus := by
  have settled : ∀ (store : Store) sprintId next,
      (store.settleRun taskId sprintId next sprintRunId now).db = store.db :=
    fun store sprintId next => congrArg Prod.fst (Store.statuses_settleRun sprintId next)
  unfold Store.propagateStatusUpwards Db.propagateStatusUpwards
  dsimp only [Option.bind_eq_bind]
  cases (store.db.setTask taskId newStatus).task? taskId with
  | none => rfl
  | some task =>
    rw [Option.bind_some, Option.bind_some]
    cases (store.db.setTask taskId newStatus).story? task.storyId with
    | none => rfl
    | some story =>
      rw [Option.bind_some, Option.bind_some]
      cases ((store.db.setTask taskId newStatus).settleStory story).pbi? story.pbiId with
      | none => rfl
      | some pbi =>
        rw [Option.bind_some, Option.bind_some]
        cases story.sprintId with
        | none => rfl
        | some sprintId =>
          rw [Option.elim_some, Option.elim_some]
          cases (((store.db.setTask taskId newStatus).settleStory story).settlePbi
              pbi).sprint? sprintId with
          | none => rfl
          | some sprint =>
            rw [Option.bind_some, Option.bind_some]
            dsimp only [Db.settleSprint]
            split
            · rfl
            · rw [Option.map_some, settled]
              rfl

theorem quiet_cancelSiblings {exceptJobId : Option String} :
    Quiet store (store.cancelSiblings runId taskId exceptJobId now) := by
  have same : (store.cancelSiblings runId taskId exceptJobId now).jobs.map (·.id) =
      store.jobs.map (·.id) := by
    rw [Store.cancelSiblings, updateWhere, List.map_map]
    refine List.map_congr_left fun job _ => ?_
    rw [Function.comp]
    split <;> rfl
  refine ⟨⟨same, rfl, fun row member goesOn => ⟨row, member, rfl, goesOn⟩, id⟩,
    fun row member failed => ?_⟩
  rcases mem_updateWhere.mp member with ⟨job, known, -, rfl⟩ | ⟨known, -⟩
  · cases failed
  · exact ⟨row, known, rfl, failed⟩

theorem quiet_settleRun {sprintId : String} {next : SprintStatus} {sprintRunId : Option String} :
    Quiet store (store.settleRun taskId sprintId next sprintRunId now) := by
  unfold Store.settleRun
  split
  · cases store.resolvedRunId taskId sprintId sprintRunId with
    | none => exact .refl store
    | some runId =>
      rw [Option.elim_some, Store.endRun]
      cases store.run? runId with
      | none => exact .refl store
      | some run =>
        rw [Option.elim_some]
        split
        · split
          · refine Quiet.trans ?_ quiet_cancelSiblings
            exact Quiet.endRun (fun _ => rfl) (fun _ => by simp [RunRow.GoesOn])
          · exact Quiet.endRun (fun _ => rfl) (fun _ => by simp [RunRow.GoesOn])
        · exact .refl store
  · exact .refl store

theorem quiet_propagate {sprintRunId : Option String}
    (called : store.propagateStatusUpwards taskId newStatus sprintRunId now = some after) :
    Quiet store after := by
  have whole : store.db.Whole → after.db.Whole := by
    intro whole
    have performed := perform_whole whole ⟨taskId, newStatus⟩
    rw [perform, ← @propagate_db store taskId now newStatus sprintRunId, called] at performed
    exact performed
  unfold Store.propagateStatusUpwards at called
  simp only [Option.bind_eq_bind, Option.bind_eq_some_iff] at called
  obtain ⟨task, -, story, -, pbi, -, rest⟩ := called
  cases inSprint : story.sprintId with
  | none =>
    rw [inSprint, Option.elim_none, Option.some_inj] at rest
    rw [← rest] at whole ⊢
    exact { Quiet.refl store with db := whole }
  | some sprintId =>
    rw [inSprint, Option.elim_some, Option.bind_eq_some_iff] at rest
    obtain ⟨sprint, -, rest⟩ := rest
    split at rest
    · rw [Option.some_inj] at rest
      rw [← rest] at whole ⊢
      exact { Quiet.refl store with db := whole }
    · rw [Option.some_inj] at rest
      have ended : ∀ (settled : Store) next,
          settled.settleRun taskId sprintId next sprintRunId now = after →
            settled.jobs = store.jobs → settled.runs = store.runs → Quiet store after := by
        rintro settled next rfl jobs runs
        have quiet := @quiet_settleRun settled taskId now sprintId next sprintRunId
        exact
          { jobs := jobs ▸ quiet.jobs
            runs := runs ▸ quiet.runs
            goesOn := runs ▸ quiet.goesOn
            db := whole
            unfailed := jobs ▸ quiet.unfailed }
      exact ended _ _ rest rfl rfl

/-! ## The parts of a call -/

theorem goesOn_begun (run : RunRow) :
    ({ run with status := run.status.begun } : RunRow).GoesOn → run.GoesOn := by
  unfold RunRow.GoesOn SprintRunStatus.begun
  dsimp only
  split
  · rename_i waits
    exact fun _ => .inl waits
  · exact id

theorem quiet_tryClaimJob {jobId : String} {worker : Jobs.WorkerRow} {tables : Jobs.WorkerTables}
    {planSnapshot : String} {cutoff : Option (String × Moment)} :
    Quiet store (store.tryClaimJob jobId worker tables planSnapshot cutoff now) := by
  unfold Store.tryClaimJob
  cases store.job? jobId with
  | none => exact .refl store
  | some job =>
    rw [Option.elim_some]
    dsimp only
    split
    · exact (Quiet.write (by rintro ⟨⟩)).trans
        (Quiet.updateRunOf fun run => ⟨rfl, goesOn_begun run⟩)
    · exact .refl store

variable {report : Report}

theorem quiet_propagateReport : Quiet store (store.propagateReport job report now) := by
  unfold Store.propagateReport
  split
  · cases job.taskId with
    | none => exact .refl store
    | some taskId =>
      rw [Option.elim_some]
      cases called : store.propagateStatusUpwards taskId
          (if report.status = .done then .done else .failed) none now with
      | none => exact .refl store
      | some after => exact quiet_propagate called
  · exact .refl store

theorem quiet_pauseOnConflict {conflict : Bool} :
    Quiet store (store.pauseOnConflict job report conflict) := by
  unfold Store.pauseOnConflict
  split
  · exact Quiet.updateRunOf fun run => ⟨rfl, by simp [RunRow.GoesOn]⟩
  · exact .refl store

theorem quiet_cascade : Quiet store (store.cascade job report now) := by
  unfold Store.cascade Store.cancelPbiOnFailure
  split
  · cases job.taskId.bind store.pbiOf? with
    | none => exact .refl store
    | some pbiId => exact Quiet.write (by rintro ⟨⟩)
  · exact .refl store

theorem quiet_settleSprintJob : Quiet store (store.settleSprintJob job report now) := by
  unfold Store.settleSprintJob
  split
  · split
    · cases job.sprintRunId with
      | none => exact .refl store
      | some runId =>
        rw [Option.elim_some, Store.finalizeSprintRunOnDone]
        cases store.run? runId with
        | none => exact .refl store
        | some run =>
          rw [Option.elim_some]
          split
          · exact .refl store
          · exact Quiet.endRun (fun _ => rfl) fun _ => by simp [RunRow.GoesOn]
    · split
      · refine Quiet.updateRunOf fun run => ?_
        split
        · exact ⟨rfl, by simp [RunRow.GoesOn]⟩
        · exact ⟨rfl, by simp [RunRow.GoesOn]⟩
      · exact .refl store
  · exact .refl store

theorem quiet_failRunOf : Quiet store (store.failRunOf job) := by
  unfold Store.failRunOf
  split
  · exact Quiet.updateRunOf fun run => ⟨rfl, by simp [RunRow.GoesOn]⟩
  · exact .refl store

/-! ## Jobs that fail -/

theorem foldl_write (statements : List Statement) :
    statements.foldl Store.write store =
      { store with jobs := store.jobs.map fun row =>
          statements.foldl (fun row statement => statement.apply row) row } := by
  induction statements generalizing store with
  | nil =>
    exact (congrArg (fun jobs => ({ store with jobs := jobs } : Store))
      (List.map_id store.jobs)).symm
  | cons statement statements ih =>
    rw [List.foldl_cons, ih, Store.write, List.map_map]
    rfl

theorem foldl_apply_id (statements : List Statement) (row : JobRow) :
    (statements.foldl (fun row statement => statement.apply row) row).id = row.id := by
  induction statements generalizing row with
  | nil => rfl
  | cons statement statements ih => rw [List.foldl_cons, ih, Statement.apply_id]

/-- A job that statements fail is one that such a statement selects. -/
theorem failed_of_foldl {statements : List Statement} {row : JobRow}
    (failed : (statements.foldl (fun row statement => statement.apply row) row).status = .failed) :
    row.status = .failed ∨ ∃ statement ∈ statements, statement.target = some .failed ∧
      ∃ other : JobRow, other.id = row.id ∧ statement.Selects other := by
  induction statements generalizing row with
  | nil => exact .inl failed
  | cons statement statements ih =>
    rcases ih failed with before | ⟨next, member, target, other, same, selected⟩
    · change (statement.apply row).status = _ at before
      by_cases selected : statement.Selects row
      · rw [Statement.apply_of_selects selected, Statement.set_status] at before
        cases target : statement.target with
        | none => rw [target] at before; exact .inl before
        | some status =>
          rw [target, Option.getD_some] at before
          exact .inr ⟨statement, List.mem_cons_self, target.trans (congrArg some before), row,
            rfl, selected⟩
      · rw [Statement.apply_of_not_selects selected] at before
        exact .inl before
    · have kept : (statement.apply row).id = row.id := Statement.apply_id
      have same := same.trans kept
      exact .inr ⟨next, List.mem_cons_of_mem _ member, target, other, same, selected⟩

/-- Of the statements of a report only the one on its job fails a job. -/
theorem reportStatements_target {tokenId : String} {statement : Statement} {row : JobRow}
    (member : statement ∈ store.reportStatements job tokenId report now)
    (target : statement.target = some .failed) (selected : statement.Selects row) :
    row.id = job.id := by
  unfold Store.reportStatements Jobs.reportStatements at member
  split at member
  · rcases List.mem_cons.mp member with rfl | member
    · exact selected
    · rw [List.mem_singleton] at member
      subst member
      cases target
  · split at member
    · rw [List.mem_singleton] at member
      subst member
      exact selected.1
    · split at member
      · rw [List.mem_singleton] at member
        subst member
        exact selected.1
      · split at member
        · rcases List.mem_append.mp member with member | member
          · rw [List.mem_singleton] at member
            subst member
            exact selected
          · split at member
            · rw [List.mem_singleton] at member
              subst member
              cases target
            · cases member
        · rw [List.mem_singleton] at member
          subst member
          exact selected

/-! ## A whole call -/

theorem quiet_foldl_failRunOf (jobs : List JobRow) :
    Quiet store (jobs.foldl Store.failRunOf store) := by
  induction jobs generalizing store with
  | nil => exact .refl store
  | cons job jobs ih => exact quiet_failRunOf.trans ih

theorem kept_foldl_write (statements : List Statement) :
    Kept store (statements.foldl Store.write store) := by
  induction statements generalizing store with
  | nil => exact (Quiet.refl store).toKept
  | cons statement statements ih => exact (Kept.write statement).trans ih

/-- What follows the statements on the jobs of a report. -/
theorem quiet_settle {conflict : Bool} :
    Quiet store ((((store.propagateReport job report now).pauseOnConflict job report
      conflict).cascade job report now).settleSprintJob job report now) :=
  ((quiet_propagateReport.trans quiet_pauseOnConflict).trans quiet_cascade).trans
    quiet_settleSprintJob

theorem kept_perform (call : JobCall) : Kept store (store.perform call) := by
  cases call with
  | claim => exact quiet_tryClaimJob.toKept
  | giveBack => exact .write _
  | sweep => exact ((Kept.write _).trans (.write _)).trans (quiet_foldl_failRunOf _).toKept
  | terminate jobId reason now =>
    rw [Store.perform, Store.markJobTerminallyFailed]
    cases store.job? jobId with
    | none => exact (Quiet.refl store).toKept
    | some job =>
      rw [Option.elim_some]
      split
      · exact (Kept.write _).trans quiet_failRunOf.toKept
      · exact (Quiet.refl store).toKept
  | report jobId tokenId requested report conflict now =>
    rw [Store.perform, Store.updateJobStatus]
    cases store.job? jobId with
    | none => exact (Quiet.refl store).toKept
    | some job =>
      rw [Option.elim_some]
      split
      · exact (kept_foldl_write _).trans quiet_settle.toKept
      · exact (Quiet.refl store).toKept

/-- A call that fails no job lands. -/
theorem not_failsBy_of_quiet {call : JobCall} (whole : store.Whole)
    (quiet : Quiet store (store.perform call)) :
    ¬ FailsBy store call job := by
  rintro ⟨member, unfailed, row, inside, same, failed⟩
  obtain ⟨old, known, same', failed⟩ := quiet.unfailed row inside failed
  rw [List.inj_on_of_nodup_map whole.jobs known member (same'.trans same)] at failed
  exact unfailed failed

theorem kept_run (start : Store) (calls : List JobCall) :
    Kept start (Foundation.run Store.perform start calls) :=
  @run_relation _ _ Store.perform (fun _ => True) Kept (fun _ _ _ => trivial)
    (fun store => (Quiet.refl store).toKept) Kept.trans (fun _ call _ => kept_perform call) start
    trivial calls

end Hierarchy
end Scrum4Me
