import Scrum4Me.Jobs.Fences

/-!
# One end for every claim

In an undisturbed run terminal jobs stay as they are, what is done on behalf of
a claim happens while the job is held under it, and every claim of a job comes
to at most one end.
-/

namespace Scrum4Me
namespace Jobs

open Foundation

/-- The step writes no terminal status away, and writes on behalf of a claim only
while the job is held under it. -/
structure ClaimFenced (world : World) (step : Step) : Prop where
  absorbing : ∀ job ∈ world.jobs, job.row.status.Terminal →
    (step.rewrite world job).row.status = job.row.status
  behalf : ∀ claim ∈ step.behalf, ∀ job ∈ world.jobs,
    job.row.id = claim.jobId → step.rewrite world job ≠ job →
      job.HeldUnder claim

/-- The step takes the job from its holder of the given epoch. -/
def EndsEpoch (world : World) (step : Step) (id : String) (epoch : Nat) : Prop :=
  step.Ready world ∧ ∃ job ∈ world.jobs, job.row.id = id ∧ job.epoch = epoch ∧
    job.row.status.Held ∧ ¬ (step.rewrite world job).row.status.Held

instance (world : World) (step : Step) (id : String) (epoch : Nat) :
    Decidable (EndsEpoch world step id epoch) :=
  inferInstanceAs (Decidable (_ ∧ _))

/-- How often the claim comes to an end in a run. -/
def endings (id : String) (epoch : Nat) : World → List Step → Nat
  | _, [] => 0
  | world, step :: rest =>
      (if EndsEpoch world step id epoch then 1 else 0) +
        endings id epoch (execute world step) rest

/-- The claim is over: the job is free, or was claimed again. -/
def Past (id : String) (epoch : Nat) (world : World) : Prop :=
  ∃ job ∈ world.jobs, job.row.id = id ∧
    (epoch < job.epoch ∨ epoch = job.epoch ∧ ¬ job.row.status.Held)

variable {world : World} {step : Step} {id : String} {epoch : Nat}

theorem past_of_ends (ends : EndsEpoch world step id epoch) (guarded : Guarded world) :
    Past id epoch (execute world step) := by
  obtain ⟨ready, job, member, same, current, held, free⟩ := ends
  refine ⟨_, (mem_execute_jobs ready).2 (.inl ⟨job, member, rfl⟩),
    Step.rewrite_id.trans same, .inr ⟨?_, free⟩⟩
  rcases rewrite_licensed guarded ready member with
    unchanged | ⟨statement, _, selected, _, applied⟩
  · rw [unchanged, current]
  · have claims : ¬ statement.Claims := by
      intro claims
      have queued := claims.queued selected
      rw [queued] at held
      exact absurd held (by decide)
    rw [applied, Tracked.apply_epoch claims, current]

theorem past_execute (guarded : Guarded world) (past : Past id epoch world) :
    Past id epoch (execute world step) := by
  by_cases ready : step.Ready world
  swap
  · rwa [execute_of_not_ready ready]
  obtain ⟨job, member, same, passed⟩ := past
  refine ⟨_, (mem_execute_jobs ready).2 (.inl ⟨job, member, rfl⟩), Step.rewrite_id.trans same, ?_⟩
  by_cases held : (step.rewrite world job).row.status.Held
  · rcases held_rewrite guarded ready member held with
      ⟨_, _, claimed, _⟩ | ⟨before, unchanged, _⟩
    · exact .inl (by omega)
    · rcases passed with later | ⟨_, free⟩
      · exact .inl (by omega)
      · exact absurd before free
  · have grows : job.epoch ≤ (step.rewrite world job).epoch := by
      rcases rewrite_licensed guarded ready member with
        unchanged | ⟨statement, _, _, _, applied⟩
      · rw [unchanged]
      · rw [applied]
        unfold Tracked.apply
        dsimp only
        split <;> omega
    rcases passed with later | ⟨current, _⟩
    · exact .inl (by omega)
    · rcases Nat.lt_or_eq_of_le grows with more | equal
      · exact .inl (by omega)
      · exact .inr ⟨by omega, held⟩

/-- A claim that is over does not end again. -/
theorem not_ends_of_past (guarded : Guarded world) (past : Past id epoch world) :
    ¬ EndsEpoch world step id epoch := by
  rintro ⟨_, job, member, same, current, held, _⟩
  obtain ⟨other, known, named, passed⟩ := past
  have equal := World.job_of_id guarded.distinct member known (same.trans named.symm)
  rw [← equal] at passed
  rcases passed with later | ⟨_, free⟩
  · omega
  · exact free held

variable {steps : List Step}

theorem endings_of_past (guarded : Guarded world) (past : Past id epoch world)
    (undisturbed : EveryStep execute
      (fun world step => step.Ready world → Undisturbed world step) world steps) :
    endings id epoch world steps = 0 := by
  induction steps generalizing world with
  | nil => rfl
  | cons step rest ih =>
    rw [endings, if_neg (not_ends_of_past guarded past), Nat.zero_add]
    exact ih (execute_guarded guarded undisturbed.1) (past_execute guarded past) undisturbed.2

theorem endings_le_one (guarded : Guarded world) (undisturbed : EveryStep execute
      (fun world step => step.Ready world → Undisturbed world step) world steps) :
    endings id epoch world steps ≤ 1 := by
  induction steps generalizing world with
  | nil => exact Nat.zero_le 1
  | cons step rest ih =>
    have next := execute_guarded guarded undisturbed.1
    by_cases ends : EndsEpoch world step id epoch
    · rw [endings, if_pos ends, endings_of_past next (past_of_ends ends guarded) undisturbed.2]
    · rw [endings, if_neg ends, Nat.zero_add]
      exact ih next undisturbed.2

namespace ClaimRuns

/-- A worker with a token of its own. -/
def worker (name : String) : WorkerRow where
  userId := "owner"
  tokenId := name
  instanceId := name
  productId := none
  runtime := .claude
  capabilities := []
  lastSeenAt := 0
  lastQuotaPct := none
  tier := none

def job : JobRow where
  id := "job"
  userId := "owner"
  productId := "product"
  taskId := some "task"
  ideaId := none
  sprintRunId := none
  sprintSequence := none
  kind := .taskImplementation
  status := .queued
  runtime := .claude
  source := .manual
  requiredCapability := none
  workerInstanceId := none
  dispatchRequestId := none
  dispatchCandidateId := none
  createdAt := 0

def start : World where
  now := 0
  jobs := [⟨job, 0⟩]
  calls := []

/-- What a query reads besides the jobs. -/
def tables : WorkerTables where
  jobs := []
  incarnations := []
  profiles := []
  workers := []
  users := []
  now := 0

/-- The worker claims the job at the given moment, on this state of the job. -/
def claimed (name : String) (row : JobRow) (now : Moment) : List Step :=
  let snapshot := { tables with jobs := [row], now := now }
  [.poll (worker name) tables,
    .tryClaim (worker name) snapshot "job" none "" none]

/-- The job under a claim of the worker. -/
def under (name : String) (row : JobRow) (now : Moment) : JobRow :=
  { row with
    status := .claimed
    claimedByTokenId := some name
    claimedAt := some now
    startedAt := some now
    planSnapshot := some ""
    workerInstanceId := some name
    leaseUntil := some (now + 300000) }

/-- A report of the worker on its claim, and the write that ends it. -/
def read (name : String) (status : ReportStatus) : Step :=
  .readReport "job" name status

def write (name : String) (epoch : Nat) (row : JobRow) (status : ReportStatus) :
    Step :=
  .writeReport ⟨"job", name, some name, epoch⟩ row status { status } none

/-- One worker claims the job and reports it done. -/
def undisturbed : List Step :=
  claimed "first" job 0 ++ [read "first" .done, write "first" 1 (under "first" job 0) .done]

/-- The job as the sweep gives it back. -/
def requeued : JobRow :=
  { (under "first" job 0).unclaimed with retryCount := 1 }

/-- The first worker reports the job done, but its lease runs out before the
write; another worker claims the job and reports it failed. -/
def overtaken : List Step :=
  claimed "first" job 0 ++ [read "first" .done, .pass 300001,
    .sweepRequeued "owner"] ++ claimed "second" requeued 300001 ++
    [read "second" .failed,
      write "second" 2 (under "second" requeued 300001) .failed]

/-- Now the write of the first worker arrives. -/
def late : Step := write "first" 1 (under "first" job 0) .done

end ClaimRuns

end Jobs
end Scrum4Me
