import Scrum4Me.Jobs.Epochs

/-!
# Bulk cancellations

The cascade over a product backlog item and the failure of a deployment select
jobs in one statement and cancel them by identifier in another; the failure of a
sprint run does both in one. What the first two cancel is what they selected as
long as no selected job has left its status in between.
-/

namespace Scrum4Me
namespace Jobs

open Foundation

namespace Step

/-- The statuses that the bulk cancellation of the step selects. -/
def Cancels : Step → JobStatus → Prop
  | cancelDeploys .., status => status = .queued
  | cancelPbi .., status => status.Active
  | cancelRun .., status => status.Active
  | _, _ => False

/-- The identifiers that the operation reports as cancelled. -/
def reported (world : World) : Step → List String
  | cancelDeploys _ _ ids => ids
  | cancelPbi _ ids => ids
  | cancelRun runId sparing taskId =>
      (world.rows.filter fun row =>
        (Statement.cancelRun runId sparing taskId world.now).Selects row).map
        (·.id)
  | _ => []

end Step

/-- The step turns the job into a cancelled one. -/
def TurnsCancelled (world : World) (step : Step) (job : Tracked) : Prop :=
  (step.rewrite world job).row.status = .cancelled ∧
    job.row.status ≠ .cancelled

instance (world : World) (step : Step) (job : Tracked) :
    Decidable (TurnsCancelled world step job) :=
  inferInstanceAs (Decidable (_ ∧ _))

/-- The step cancels only jobs in the statuses that it selects, and reports
exactly the jobs that it cancels. -/
structure CancelsSelected (world : World) (step : Step) : Prop where
  selected : ∀ job ∈ world.jobs, TurnsCancelled world step job →
    step.Cancels job.row.status
  reported : ∀ id, id ∈ step.reported world ↔
    ∃ job ∈ world.jobs, job.row.id = id ∧ TurnsCancelled world step job

/-- What a cancellation in flight has selected. -/
def Call.selection : Call → List String
  | .deployFailing _ _ ids => ids
  | .cascading _ ids => ids
  | _ => []

/-- Every selected job is in the table. -/
def Known (world : World) : Prop :=
  ∀ call ∈ world.calls, ∀ id ∈ call.selection, id ∈ world.ids

variable {world : World} {step : Step} {job : Tracked} {statement : Statement}

theorem mem_ids {id : String} : id ∈ world.ids ↔ ∃ job ∈ world.jobs, job.row.id = id :=
  List.mem_map

theorem mem_execute_ids {id : String} (known : id ∈ world.ids) : id ∈ (execute world step).ids := by
  by_cases ready : step.Ready world
  · obtain ⟨job, member, rfl⟩ := mem_ids.1 known
    exact mem_ids.2 ⟨_, (mem_execute_jobs ready).2 (.inl ⟨job, member, rfl⟩), Step.rewrite_id⟩
  · rwa [execute_of_not_ready ready]

theorem execute_known (known : Known world) : Known (execute world step) := by
  intro call inFlight id selected
  by_cases ready : step.Ready world
  swap
  · rw [execute_of_not_ready ready] at inFlight ⊢
    exact known call inFlight id selected
  refine mem_execute_ids ?_
  rcases (mem_execute_calls ready).1 inFlight with other | begun
  · exact known call (mem_calls_of_others other) id selected
  · cases step with
    | failDeploy claim read requested report =>
      cases begun
      obtain ⟨job, member, same, _⟩ := mem_queuedDeploys.1 selected
      exact mem_ids.2 ⟨job, member, same⟩
    | selectPbi failedJobId taskIds =>
      cases begun
      obtain ⟨job, member, same, _⟩ := mem_activeJobs.1 selected
      exact mem_ids.2 ⟨job, member, same⟩
    | readReport jobId tokenId requested =>
      obtain ⟨found, _, rfl⟩ := Option.map_eq_some_iff.1 begun
      cases selected
    | poll => cases begun; cases selected
    | tryClaim => cases begun; cases selected
    | refresh => cases begun; cases selected
    | readFailure => cases begun; cases selected
    | _ => cases begun

/-! ## Single steps -/

theorem rewrite_singleton (single : step.statements world = [statement]) :
    step.rewrite world job = job.apply statement := by
  rw [Step.rewrite, single]
  rfl

/-- A single statement that cancels what it selects cancels nothing else. -/
theorem turnsCancelled_singleton (single : step.statements world = [statement])
    (cancels : statement.target = some .cancelled) :
    TurnsCancelled world step job ↔ statement.Selects job.row ∧ job.row.status ≠ .cancelled := by
  unfold TurnsCancelled
  rw [rewrite_singleton single]
  by_cases selected : statement.Selects job.row
  · rw [status_apply selected, cancels]
    simp [selected]
  · rw [Tracked.apply_of_not_selects selected]
    simp [selected]

theorem active_ne_cancelled {status : JobStatus} (active : status.Active) :
    status ≠ .cancelled := by
  rintro rfl
  exact absurd active (by decide)

/-- A step that cancels nothing in bulk cancels nothing. -/
theorem not_turnsCancelled (apart : step.Apart) (harmless : ∀ statement ∈ step.statements world,
      statement.target ≠ some .cancelled) :
    ¬ TurnsCancelled world step job := by
  rintro ⟨cancelled, before⟩
  rcases Step.rewrite_cases job (Step.disjoint_of_apart apart) with
    same | ⟨statement, among, selected, applied⟩
  · rw [same] at cancelled
    exact before cancelled
  · rw [applied, status_apply selected] at cancelled
    cases target : statement.target with
    | none =>
      rw [target] at cancelled
      exact before cancelled
    | some status =>
      rw [target, Option.getD_some] at cancelled
      exact harmless statement among (cancelled ▸ target)

theorem ReportStatus.jobStatus_ne_cancelled (status : ReportStatus) :
    status.jobStatus ≠ .cancelled := by
  cases status <;> decide

/-- Reports cancel nothing. -/
theorem reportStatements_target {claim : Claim} {read : JobRow} {report : Report} {now : Moment}
    (among : statement ∈ reportStatements claim read report now) :
    statement.target ≠ some .cancelled := by
  have harmless := ReportStatus.jobStatus_ne_cancelled report.status
  unfold reportStatements at among
  grind [Statement.target]

theorem cancelsSelected_of_harmless (apart : step.Apart)
    (harmless : ∀ statement ∈ step.statements world, statement.target ≠ some .cancelled)
    (silent : step.reported world = []) :
    CancelsSelected world step where
  selected := fun _ _ turns => absurd turns (not_turnsCancelled apart harmless)
  reported := by
    intro id
    rw [silent]
    constructor
    · exact fun member => absurd member List.not_mem_nil
    · rintro ⟨_, _, _, turns⟩
      exact absurd turns (not_turnsCancelled apart harmless)

/-- The second statement of a failed deployment cancels what was selected. -/
theorem turnsCancelled_deploys
    {claim : Claim} {report : Report} {ids : List String} (apart : claim.jobId ∉ ids) :
    TurnsCancelled world (.cancelDeploys claim report ids) job ↔
      job.row.id ∈ ids ∧ job.row.status ≠ .cancelled := by
  unfold TurnsCancelled Step.rewrite
  simp only [Step.statements, List.foldl_cons, List.foldl_nil]
  by_cases selected : job.row.id ∈ ids
  · have other : ¬ (Statement.deployTerminal claim.jobId report world.now).Selects job.row :=
      fun same => apart ((show job.row.id = claim.jobId from same) ▸ selected)
    have cancels : (Statement.cancelDeploys ids claim.jobId world.now).Selects job.row := selected
    rw [Tracked.apply_of_not_selects other, status_apply cancels]
    simp [Statement.target, selected]
  · have spared : ¬ (Statement.cancelDeploys ids claim.jobId world.now).Selects
        (job.apply (.deployTerminal claim.jobId report world.now)).row := by
      intro member
      refine selected ?_
      rw [← @Statement.apply_id _ job.row]
      exact member
    rw [Tracked.apply_of_not_selects spared]
    by_cases own : (Statement.deployTerminal claim.jobId report world.now).Selects job.row
    · rw [status_apply own]
      simp [Statement.target, selected, ReportStatus.jobStatus_ne_cancelled]
    · rw [Tracked.apply_of_not_selects own]
      simp [selected]

theorem cancelsSelected (chosen : Selected world) (known : Known world) (ready : step.Ready world) :
    CancelsSelected world step := by
  have apart := chosen.apart.stepApart ready
  cases step with
  | cancelDeploys claim report ids =>
    have inFlight := ready.2.1 _ rfl
    have queued (job : Tracked) (member : job ∈ world.jobs)
        (selected : job.row.id ∈ ids) : job.row.status = .queued :=
      chosen.allowed _ inFlight job member selected
    constructor
    · intro job member turns
      exact queued job member ((turnsCancelled_deploys apart).1 turns).1
    · intro id
      constructor
      · intro selected
        obtain ⟨job, member, rfl⟩ := mem_ids.1 (known _ inFlight id selected)
        refine ⟨job, member, rfl, (turnsCancelled_deploys apart).2 ⟨selected, ?_⟩⟩
        rw [queued job member selected]
        decide
      · rintro ⟨job, member, rfl, turns⟩
        exact ((turnsCancelled_deploys apart).1 turns).1
  | cancelPbi failedJobId ids =>
    have inFlight := ready.2.1 _ rfl
    have turns (job : Tracked) := @turnsCancelled_singleton world
      (.cancelPbi failedJobId ids) job _ rfl rfl
    have active (job : Tracked) (member : job ∈ world.jobs)
        (selected : job.row.id ∈ ids) : job.row.status.Active :=
      chosen.allowed _ inFlight job member selected
    constructor
    · intro job member cancelled
      exact active job member ((turns job).1 cancelled).1
    · intro id
      constructor
      · intro selected
        obtain ⟨job, member, rfl⟩ := mem_ids.1 (known _ inFlight id selected)
        exact ⟨job, member, rfl, (turns job).2
          ⟨selected, active_ne_cancelled (active job member selected)⟩⟩
      · rintro ⟨job, member, rfl, cancelled⟩
        exact ((turns job).1 cancelled).1
  | cancelRun runId sparing taskId =>
    have turns (job : Tracked) := @turnsCancelled_singleton world
      (.cancelRun runId sparing taskId) job _ rfl rfl
    constructor
    · intro job member cancelled
      exact ((turns job).1 cancelled).1.2.1
    · intro id
      simp only [Step.reported, World.rows, List.mem_map, List.mem_filter, decide_eq_true_eq]
      constructor
      · rintro ⟨_, ⟨⟨job, member, rfl⟩, selected⟩, rfl⟩
        exact ⟨job, member, rfl, (turns job).2 ⟨selected, active_ne_cancelled selected.2.1⟩⟩
      · rintro ⟨job, member, rfl, cancelled⟩
        exact ⟨job.row, ⟨⟨job, member, rfl⟩, ((turns job).1 cancelled).1⟩, rfl⟩
  | writeReport claim read requested report followUpId =>
    exact cancelsSelected_of_harmless apart (fun _ among => reportStatements_target among) rfl
  | _ =>
    refine cancelsSelected_of_harmless apart ?_ rfl
    intro statement among
    first
    | exact absurd among List.not_mem_nil
    | (rw [List.mem_singleton.1 among]
       simp [Statement.target])

/-! ## The cascade a second time -/

/-- `runCascade` without another step in between. -/
def cascade (world : World) (failedJobId : String) (taskIds : List String) :
    World :=
  run execute world [.selectPbi failedJobId taskIds,
      .cancelPbi failedJobId (world.activeJobs taskIds failedJobId)]

def World.statuses (world : World) : List (String × JobStatus) :=
  world.jobs.map fun job => (job.row.id, job.row.status)

/-- A step without statements and new jobs leaves the jobs. -/
theorem execute_jobs_unchanged
    (none : step.statements world = []) (nothing : step.created world = []) :
    (execute world step).jobs = world.jobs := by
  by_cases ready : step.Ready world
  · rw [execute_of_ready ready]
    have same : step.rewrite world = id := funext fun _ => rewrite_of_no_statements none
    simp [nothing, same]
  · rw [execute_of_not_ready ready]

/-- A cascade cancels what is active, or finds no failed job and does nothing. -/
theorem cascade_cases (world : World) (failedJobId : String) (taskIds : List String) :
    cascade world failedJobId taskIds = world ∨
      (cascade world failedJobId taskIds).jobs = world.jobs.map fun job =>
        job.apply (.cancelPbi (world.activeJobs taskIds failedJobId) world.now) := by
  unfold cascade
  rw [run_cons, run_cons, run_nil]
  have jobs : (execute world (.selectPbi failedJobId taskIds)).jobs =
      world.jobs := execute_jobs_unchanged rfl rfl
  have now : (execute world (.selectPbi failedJobId taskIds)).now = world.now := by
    unfold execute
    split <;> rfl
  by_cases ready : (Step.cancelPbi failedJobId (world.activeJobs taskIds failedJobId)).Ready
      (execute world (.selectPbi failedJobId taskIds))
  · right
    rw [execute_of_ready ready]
    simp only [jobs, Step.created, List.map_nil, List.append_nil]
    refine List.map_congr_left fun job _ => ?_
    rw [rewrite_singleton rfl, now]
  · left
    rw [execute_of_not_ready ready]
    -- The cancellation is ready whenever the selection was.
    by_cases selects : (Step.selectPbi failedJobId taskIds).Ready world
    · refine absurd ⟨trivial, ?_, List.nodup_nil, by simp [Step.created]⟩ ready
      rintro call ⟨⟩
      exact (mem_execute_calls selects).2 (.inr rfl)
    · exact execute_of_not_ready selects

/-- Cancelled jobs are not selected again. -/
theorem activeJobs_cascade (failedJobId : String) (taskIds : List String)
    (cancelled : (cascade world failedJobId taskIds).jobs = world.jobs.map fun job => job.apply
        (.cancelPbi (world.activeJobs taskIds failedJobId) world.now)) :
    (cascade world failedJobId taskIds).activeJobs taskIds failedJobId = [] := by
  rw [List.eq_nil_iff_forall_not_mem]
  intro id again
  obtain ⟨after, member, rfl, other, active, task⟩ := mem_activeJobs.1 again
  rw [cancelled] at member
  obtain ⟨job, known, rfl⟩ := List.mem_map.1 member
  by_cases selected : (Statement.cancelPbi
      (world.activeJobs taskIds failedJobId) world.now).Selects job.row
  · rw [status_apply selected] at active
    exact absurd active (by simp [Statement.target, JobStatus.Active])
  · rw [Tracked.apply_of_not_selects selected] at other active task
    exact selected (mem_activeJobs.2 ⟨job, known, rfl, other, active, task⟩)

/-- Running the cascade a second time changes no status. -/
theorem cascade_twice (world : World) (failedJobId : String) (taskIds : List String) :
    (cascade (cascade world failedJobId taskIds) failedJobId taskIds).statuses =
      (cascade world failedJobId taskIds).statuses := by
  rcases cascade_cases world failedJobId taskIds with same | first
  · rw [same, same]
  rcases cascade_cases (cascade world failedJobId taskIds) failedJobId taskIds with same | second
  · rw [same]
  · unfold World.statuses
    rw [second, activeJobs_cascade failedJobId taskIds first, List.map_map]
    refine List.map_congr_left fun job _ => ?_
    have spared : ¬ (Statement.cancelPbi []
        (cascade world failedJobId taskIds).now).Selects job.row :=
      List.not_mem_nil
    rw [Function.comp_apply, Tracked.apply_of_not_selects spared]

/-! ## Runs -/

/-- Bulk cancellations take only what they may take, in every run in which no
selected job leaves the statuses it was selected for; and the cascade is
idempotent. -/
theorem cancels_selected {start : World} {steps : List Step} (idle : start.calls = [])
    (distinct : start.ids.Nodup)
    (kept : EveryStep execute (fun world step => step.Ready world → SelectionsKept world step) start
      steps) :
    EveryStep execute (fun world step => step.Ready world →
        CancelsSelected world step) start steps ∧
      ∀ (world : World) (failedJobId : String) (taskIds : List String),
        (cascade (cascade world failedJobId taskIds) failedJobId
          taskIds).statuses = (cascade world failedJobId taskIds).statuses := by
  have initially : Selected start ∧ Known start :=
    ⟨(guarded_of_idle idle distinct).toSelected, by simp [Known, idle]⟩
  have preserved : ∀ world step, Selected world ∧ Known world →
      (step.Ready world → SelectionsKept world step) →
        Selected (execute world step) ∧ Known (execute world step) :=
    fun _ _ ⟨chosen, known⟩ keeps =>
      ⟨execute_selected chosen keeps, execute_known known⟩
  refine ⟨EveryStep.of_invariant preserved ?_ initially kept, cascade_twice⟩
  rintro world step ⟨chosen, known⟩ _ ready
  exact cancelsSelected chosen known ready

namespace CancelRuns

open ClaimRuns

/-- A job on the task has failed, another is under way. -/
def start : World where
  now := 0
  jobs :=
    [⟨{ ClaimRuns.job with id := "failed", status := .failed }, 1⟩,
      ⟨under "first" ClaimRuns.job 0, 1⟩]
  calls := []

def cancelled : List Step :=
  [.selectPbi "failed" ["task"], .cancelPbi "failed" ["job"]]

/-- The job is reported done between its selection and its cancellation. -/
def reportedDone : List Step :=
  [read "first" .done, .selectPbi "failed" ["task"],
    write "first" 1 (under "first" ClaimRuns.job 0) .done]

end CancelRuns

open CancelRuns in
/-- A cascade that nothing comes between cancels the job that is under way. -/
theorem cancels_selected_run :
    EveryStep execute (fun world step => step.Ready world →
        CancelsSelected world step) start cancelled ∧
      (run execute start cancelled).statuses = [("failed", .failed), ("job", .cancelled)] := by
  have kept : EveryStep execute (fun world step => step.Ready world →
      SelectionsKept world step) start cancelled := by
    decide +kernel
  exact ⟨(cancels_selected rfl (by decide) kept).1, by decide +kernel⟩

open CancelRuns in
/-- The cascade cancels a job that was meanwhile done. -/
theorem cascade_overwrites_done :
    ¬ EveryStep execute (fun world step => step.Ready world →
      CancelsSelected world step) start
      (reportedDone ++ [.cancelPbi "failed" ["job"]]) := by
  intro sound
  have last := ((everyStep_append _ start reportedDone _).1 sound).2.1
  have ready : (Step.cancelPbi "failed" ["job"]).Ready (run execute start reportedDone) := by
    decide +kernel
  have overwritten : ∃ job ∈ (run execute start reportedDone).jobs,
      TurnsCancelled (run execute start reportedDone)
        (.cancelPbi "failed" ["job"]) job ∧ job.row.status = .done := by
    decide +kernel
  obtain ⟨job, member, turns, done⟩ := overwritten
  have active := (last ready).selected job member turns
  rw [done] at active
  exact absurd active (by simp [Step.Cancels, JobStatus.Active])

end Jobs
end Scrum4Me
