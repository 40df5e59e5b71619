import Scrum4Me.Jobs.Machine

/-!
# What a step makes of a job

At most one statement of a step selects a given job, so a step leaves a job as
it is or applies one statement to it. Jobs keep their identity, and the jobs
that a step creates are queued.
-/

namespace Scrum4Me
namespace Jobs

open Foundation

variable {world : World} {step : Step} {job : Tracked} {statement : Statement}

namespace Tracked

@[simp] theorem apply_row : (job.apply statement).row = statement.apply job.row :=
  rfl

theorem apply_of_not_selects (missed : ¬ statement.Selects job.row) :
    job.apply statement = job := by
  have row := Statement.apply_of_not_selects missed
  simp [apply, row, missed]

theorem apply_epoch (sameClaim : ¬ statement.Claims) : (job.apply statement).epoch = job.epoch := by
  simp [apply, sameClaim]

end Tracked

namespace Step

@[simp] theorem rewrite_id : (step.rewrite world job).row.id = job.row.id := by
  unfold rewrite
  induction step.statements world generalizing job with
  | nil => rfl
  | cons first rest ih =>
    rw [List.foldl_cons, ih]
    exact Statement.apply_id

/-- No step changes what a job is about. -/
theorem rewrite_static :
    (step.rewrite world job).row.kind = job.row.kind ∧
      (step.rewrite world job).row.sprintRunId = job.row.sprintRunId ∧
      (step.rewrite world job).row.sprintSequence = job.row.sprintSequence := by
  unfold rewrite
  induction step.statements world generalizing job with
  | nil => exact ⟨rfl, rfl, rfl⟩
  | cons first rest ih =>
    obtain ⟨_, kind, _, _, run, sequence⟩ := @Statement.apply_static first job.row
    obtain ⟨sameKind, sameRun, sameSequence⟩ := @ih (job.apply first)
    exact ⟨sameKind.trans kind, sameRun.trans run, sameSequence.trans sequence⟩

/-- The second statement of a step selects other jobs than the first. -/
def Disjoint (world : World) (step : Step) : Prop :=
  (step.statements world).Pairwise fun first second =>
    ∀ row : JobRow, first.Selects row → ¬ second.Selects (first.apply row)

/-- A step leaves a job alone or applies one statement that selects it. -/
theorem rewrite_cases (job : Tracked) (disjoint : step.Disjoint world) :
    step.rewrite world job = job ∨ ∃ statement ∈ step.statements world, statement.Selects job.row ∧
        step.rewrite world job = job.apply statement := by
  unfold rewrite Disjoint at *
  generalize step.statements world = statements at disjoint ⊢
  induction statements generalizing job with
  | nil => exact .inl rfl
  | cons first rest ih =>
    rw [List.pairwise_cons] at disjoint
    rw [List.foldl_cons]
    by_cases selected : first.Selects job.row
    · refine .inr ⟨first, List.mem_cons_self, selected, ?_⟩
      rcases ih (job.apply first) disjoint.2 with
        same | ⟨other, member, alsoSelected, _⟩
      · exact same
      · exact absurd alsoSelected (disjoint.1 other member job.row selected)
    · rw [Tracked.apply_of_not_selects selected]
      rcases ih job disjoint.2 with
        same | ⟨other, member, applied⟩
      · exact .inl same
      · exact .inr ⟨other, List.mem_cons_of_mem _ member, applied⟩

theorem disjoint_of_length (short : (step.statements world).length ≤ 1) : step.Disjoint world := by
  unfold Disjoint
  generalize step.statements world = statements at short ⊢
  cases statements with
  | nil => exact List.Pairwise.nil
  | cons first rest =>
    have alone : rest = [] := by simpa [List.length_eq_zero_iff] using short
    rw [alone]
    exact List.pairwise_singleton _ _

/-- Failing a deployment cancels other deployments only. -/
def Apart : Step → Prop
  | cancelDeploys claim _ ids => claim.jobId ∉ ids
  | _ => True

theorem disjoint_of_apart (apart : step.Apart) : step.Disjoint world := by
  cases step with
  | writeReport claim read requested report followUpId =>
    unfold Disjoint
    simp only [statements, reportStatements]
    split
    · exact List.pairwise_singleton _ _
    split
    · exact List.pairwise_singleton _ _
    split
    · split
      · simp only [List.singleton_append, List.pairwise_cons,
          List.mem_singleton, forall_eq, List.not_mem_nil, false_implies,
          implies_true, List.Pairwise.nil, and_true]
        intro row selected other
        exact other.2.2.2.2 (Statement.apply_id.trans selected)
      · exact List.pairwise_singleton _ _
    · exact List.pairwise_singleton _ _
  | cancelDeploys claim report ids =>
    unfold Disjoint
    simp only [statements, List.pairwise_cons, List.mem_singleton, forall_eq,
      List.not_mem_nil, false_implies, implies_true, List.Pairwise.nil,
      and_true]
    intro row selected other
    refine apart ?_
    have same : row.id = claim.jobId := selected
    rw [← same, ← Statement.apply_id]
    exact other
  | _ => exact disjoint_of_length (by simp [statements])

/-- The jobs that a step creates wait to be claimed. -/
theorem created_queued
    (ready : step.Ready world) {row : JobRow} (member : row ∈ step.created world) :
    row.status = .queued := by
  cases step with
  | enqueue queued =>
    rw [List.mem_singleton.1 member]
    exact ready.1.1
  | startSprintRun opts plan =>
    simp only [created] at member
    split at member
    · next run jobs started =>
      obtain ⟨_, _, product, rfl⟩ := startSprintRunCore_ok started
      unfold SprintStart.jobs at member
      split at member
      · rw [List.mem_singleton.1 member]
        rfl
      · obtain ⟨number, bound, rfl⟩ := List.mem_mapIdx.1 member
        rfl
    · exact absurd member List.not_mem_nil
  | writeReport claim read requested report followUpId =>
    simp only [created, Option.mem_toList, Option.map_eq_some_iff] at member
    obtain ⟨id, _, rfl⟩ := member
    rfl
  | _ => exact absurd member List.not_mem_nil

end Step

/-! ## The tables after a step -/

theorem execute_of_ready (ready : step.Ready world) :
    execute world step =
      { now := step.later world
        jobs := world.jobs.map (step.rewrite world) ++ (step.created world).map fun row => ⟨row, 0⟩
        calls := world.others step ++ (step.begun world).toList } :=
  if_pos ready

theorem execute_of_not_ready (refused : ¬ step.Ready world) : execute world step = world :=
  if_neg refused

theorem mem_execute_jobs (ready : step.Ready world) {after : Tracked} :
    after ∈ (execute world step).jobs ↔ (∃ job ∈ world.jobs, step.rewrite world job = after) ∨
        ∃ row ∈ step.created world, ⟨row, 0⟩ = after := by
  simp only [execute_of_ready ready, List.mem_append, List.mem_map]

theorem mem_execute_calls (ready : step.Ready world) {call : Call} :
    call ∈ (execute world step).calls ↔ call ∈ world.others step ∨ call ∈ step.begun world := by
  simp only [execute_of_ready ready, List.mem_append, Option.mem_toList, Option.mem_def]

theorem mem_calls_of_others {call : Call} (member : call ∈ world.others step) :
    call ∈ world.calls := by
  unfold World.others at member
  split at member
  · exact List.mem_of_mem_erase member
  · exact member

/-- Identifiers stay distinct. -/
theorem execute_distinct (distinct : world.ids.Nodup) : (execute world step).ids.Nodup := by
  by_cases ready : step.Ready world
  · have ids : (execute world step).ids = world.ids ++ (step.created world).map (·.id) := by
      rw [execute_of_ready ready]
      simp only [World.ids, List.map_append, List.map_map]
      exact congrArg₂ _ (List.map_congr_left fun _ _ => Step.rewrite_id) rfl
    obtain ⟨_, _, new, fresh⟩ := ready
    rw [ids, List.nodup_append]
    refine ⟨distinct, new, ?_⟩
    rintro id known other created rfl
    obtain ⟨row, member, rfl⟩ := List.mem_map.1 created
    exact fresh row member known
  · rwa [execute_of_not_ready ready]

/-- With distinct identifiers, an identifier names one job. -/
theorem World.job_of_id (distinct : world.ids.Nodup) {other : Tracked} (first : job ∈ world.jobs)
    (second : other ∈ world.jobs) (same : job.row.id = other.row.id) :
    job = other :=
  List.inj_on_of_nodup_map distinct first second same

end Jobs
end Scrum4Me
