import Scrum4Me.Jobs.ClaimLoop

/-!
# What blocks the queue

The claimable jobs of a worker form a line that is served at its head. A turn makes the
first job leave, or bring it back to its place: a review whose diff cannot be fetched
comes back once, a job whose claim is rolled back without counting comes back for ever.
-/

namespace Scrum4Me
namespace Jobs

open Foundation

/-! ## What the turns leave alone -/

/-- A job without the columns that a claim and its end write. -/
def JobRow.still (job : JobRow) : JobRow :=
  { job with
    status := .queued
    workerInstanceId := none
    claimedByTokenId := none
    claimedAt := none
    startedAt := none
    finishedAt := none
    leaseUntil := none
    retryCount := 0
    planSnapshot := none
    chatCutoffMessageId := none
    chatCutoffAt := none
    error := none }

section Still

variable {job other : JobRow}

theorem still_id (same : job.still = other.still) : job.id = other.id :=
  (congrArg JobRow.id same :)

theorem still_kind (same : job.still = other.still) : job.kind = other.kind :=
  (congrArg JobRow.kind same :)

theorem still_runtime (same : job.still = other.still) : job.runtime = other.runtime :=
  (congrArg JobRow.runtime same :)

theorem still_sprintRunId (same : job.still = other.still) : job.sprintRunId = other.sprintRunId :=
  (congrArg JobRow.sprintRunId same :)

theorem still_sprintSequence (same : job.still = other.still) :
    job.sprintSequence = other.sprintSequence :=
  (congrArg JobRow.sprintSequence same :)

theorem still_claimKey (same : job.still = other.still) : job.claimKey = other.claimKey :=
  (congrArg JobRow.claimKey same :)

/-- Two jobs that are alike apart from those columns. -/
theorem still_restored (same : job.still = other.still) :
    job = { other with
      status := job.status
      workerInstanceId := job.workerInstanceId
      claimedByTokenId := job.claimedByTokenId
      claimedAt := job.claimedAt
      startedAt := job.startedAt
      finishedAt := job.finishedAt
      leaseUntil := job.leaseUntil
      retryCount := job.retryCount
      planSnapshot := job.planSnapshot
      chatCutoffMessageId := job.chatCutoffMessageId
      chatCutoffAt := job.chatCutoffAt
      error := job.error } := by
  cases job
  cases other
  simp only [JobRow.still, JobRow.mk.injEq] at same ⊢
  tauto

/-- The claim query reads the status, and columns that stay. -/
theorem whereFragment_congr
    {input : ClaimSqlFilterInput} {claims : ClaimTables} {run : Option SprintRunRow}
    (same : job.still = other.still) (status : job.status = other.status) :
    buildClaimableJobWhereFragment input claims ⟨job, run, none⟩ =
      buildClaimableJobWhereFragment input claims ⟨other, run, none⟩ := by
  rw [still_restored same, status]
  rfl

/-- A statement of the loop leaves the rest of the row. -/
theorem Statement.still_apply {statement : Statement}
    (ofLoop : ∀ row : JobRow, (statement.set row).still = row.still) :
    (statement.apply job).still = job.still := by
  unfold Statement.apply
  split
  · exact ofLoop job
  · rfl

theorem rollbackClaim_still (owner : Owner) (now : Moment) :
    (rollbackClaim owner now job).still = job.still := by
  unfold rollbackClaim
  rw [Statement.still_apply fun _ => rfl, Statement.still_apply fun _ => rfl]

end Still

/-! ## The answer for a claimed job -/

/-- The worker holds the job that it claimed. -/
structure ClaimedBy (owner : Owner) (job : JobRow) : Prop where
  claimed : job.status = .claimed
  owned : job.OwnedBy owner
  unmanaged : job.dispatchRequestId = none

section Answers

variable
  {around : Surroundings} {runs : List SprintRunRow} {runtime : AgentRuntime}
  {owner : Owner} {now : Moment} {job : JobRow}

/-- A claim that is the worker's is rolled back. -/
theorem ClaimedBy.rollbackClaim (claimed : ClaimedBy owner job) :
    rollbackClaim owner now job = { job with leaseUntil := some (now + 120000) }.unclaimed := by
  have held : job.status.Held := .inl claimed.claimed
  have refreshed : (Statement.refreshOwnership job.id owner now).Selects job :=
    ⟨rfl, claimed.unmanaged, claimed.owned, held⟩
  unfold Jobs.rollbackClaim
  rw [Statement.apply_of_selects refreshed]
  exact Statement.apply_of_selects ⟨rfl, claimed.unmanaged, claimed.owned, held⟩

/-- The review reaches its fetches, and they fail. -/
def Unreachable (around : Surroundings) (job : JobRow) (runtime : AgentRuntime) : Prop :=
  Admitted around job runtime ∧ DiffUnreachable around job

/-- The job is out of the queue. -/
structure Gone (job : JobRow) (handled : Handled) : Prop where
  still : handled.1.still = job.still
  status : handled.1.status ≠ .queued

/-- What a turn does with a claimed job. -/
inductive Ends
    (around : Surroundings) (runs : List SprintRunRow) (runtime : AgentRuntime)
    (owner : Owner) (now : Moment) (job : JobRow) :
    Handled → Prop
  | back (comes : ComesBack around job runtime runs) :
      Ends around runs runtime owner now job (givenBack owner now job)
  | retried (unreachable : Unreachable around job runtime) (first : job.retryCount = 0) :
      Ends around runs runtime owner now job
        (givenBack owner now { job with retryCount := job.retryCount + 1 })
  | gone
      {handled : Handled}
      (leaves : ¬ ComesBack around job runtime runs)
      (last : Unreachable around job runtime → 0 < job.retryCount)
      (gone : Gone job handled) :
      Ends around runs runtime owner now job handled

theorem ClaimedBy.gone (claimed : ClaimedBy owner job) (answer : Answer) :
    Gone job (job, answer) where
  still := rfl
  status := by simp [claimed.claimed]

/-- A job that is neither rolled back nor waits for a diff. -/
theorem Ends.of_gone {handled : Handled} (buildable : ¬ Unbuildable around job runs)
    (other : job.kind ≠ .taskReview) (gone : Gone job handled) :
    Ends around runs runtime owner now job handled :=
  .gone (fun comes => buildable comes.2) (fun waits => absurd waits.2.1 other) gone

theorem agentChatContext_gone (found : Findings) (claimed : ClaimedBy owner job) :
    Gone job (agentChatContext found owner now job) := by
  unfold agentChatContext
  split
  · exact claimed.gone _
  · cases found.chatSkip with
    | none => exact claimed.gone _
    | some reason =>
      have selected : (Statement.skipAgentChatJob job.id owner reason now).Selects job :=
        ⟨rfl, claimed.claimed, claimed.owned⟩
      simp only [Option.elim_some, Statement.apply_of_selects selected]
      exact ⟨rfl, by simp [Statement.set]⟩

theorem taskReviewContext_ends
    (claimed : ClaimedBy owner job) (admitted : Admitted around job runtime)
    (kind : job.kind = .taskReview) :
    Ends around runs runtime owner now job
      (taskReviewContext (around.found job.id) owner now job) := by
  have leaves : ¬ ComesBack around job runtime runs := fun comes => by
    simpa [Unbuildable, kind, JobKind.BySource] using comes.2
  have reachable : ∀ {handled}, ¬ DiffUnreachable around job → Gone job handled →
      Ends around runs runtime owner now job handled :=
    fun reached gone => .gone leaves (fun waits => absurd waits.2 reached) gone
  unfold taskReviewContext
  split
  · rename_i falsy
    exact reachable (fun waits => waits.2.1 falsy) (claimed.gone _)
  · rename_i named
    cases task : (around.found job.id).task with
    | none =>
      refine reachable ?_ (claimed.gone _)
      rintro ⟨_, _, found, member, _⟩
      rw [task] at member
      cases member
    | some found =>
      simp only [Option.elim_some]
      split
      · rename_i nowhere
        refine reachable ?_ (claimed.gone _)
        rintro ⟨_, _, other, member, source, _⟩
        rw [task] at member
        cases member
        exact source.elim nowhere.1 nowhere.2
      · rename_i somewhere
        split
        · rename_i empty
          have unreachable : Unreachable around job runtime :=
            ⟨admitted, kind, named, found, task ▸ rfl,
              not_and_or.mp somewhere |>.imp not_not.mp not_not.mp, empty⟩
          unfold diffFetchFailed
          by_cases spent : diffFetchMaxRetries ≤ job.retryCount + 1
          · simp only [if_pos spent]
            refine .gone leaves (fun _ => Nat.le_of_succ_le_succ spent) ⟨rfl, ?_⟩
            simp [claimed.claimed]
          · simp only [if_neg spent]
            refine .retried unreachable ?_
            unfold diffFetchMaxRetries at spent
            omega
        · rename_i fetched
          refine reachable ?_ (claimed.gone _)
          rintro ⟨_, _, other, member, _, empty⟩
          rw [task] at member
          cases member
          exact fetched empty

theorem ideaContext_ends (claimed : ClaimedBy owner job)
    (unbuildable : Unbuildable around job runs ↔ IdeaWithoutWorktrees (around.found job.id))
    (admitted : Admitted around job runtime) (kind : job.kind ≠ .taskReview) :
    Ends around runs runtime owner now job (ideaContext (around.found job.id) owner now job) := by
  unfold ideaContext
  cases facts : (around.found job.id).idea with
  | none =>
    refine .of_gone (fun fails => ?_) kind (claimed.gone _)
    obtain ⟨idea, member, _⟩ := unbuildable.mp fails
    rw [facts] at member
    cases member
  | some idea =>
    simp only [Option.elim_some]
    split
    · rename_i fails
      exact .back ⟨admitted, unbuildable.mpr ⟨idea, facts ▸ rfl, fails⟩⟩
    · rename_i succeeds
      refine .of_gone (fun fails => ?_) kind (claimed.gone _)
      obtain ⟨other, member, fails⟩ := unbuildable.mp fails
      rw [facts] at member
      cases member
      exact succeeds fails

theorem sprintContext_ends (claimed : ClaimedBy owner job)
    (unbuildable : Unbuildable around job runs ↔
      SprintWithoutWorktree job (around.found job.id) runs)
    (admitted : Admitted around job runtime) (kind : job.kind ≠ .taskReview) :
    Ends around runs runtime owner now job
      (sprintContext (around.found job.id) owner now job runs) := by
  have back : SprintWithoutWorktree job (around.found job.id) runs →
      Ends around runs runtime owner now job (givenBack owner now job) :=
    fun fails => .back ⟨admitted, unbuildable.mpr fails⟩
  unfold sprintContext
  split
  · rename_i missing
    exact back (.inl missing)
  · rename_i present
    have stays : ∀ {handled}, Gone job handled →
        ¬ SprintWithoutWorktree job (around.found job.id) runs →
        Ends around runs runtime owner now job handled :=
      fun gone builds => .of_gone (fun fails => builds (unbuildable.mp fails)) kind gone
    cases root : (around.found job.id).repoRoot with
    | unresolved => exact back (.inr (.inl root))
    | resolved =>
      simp only
      split
      · rename_i fails
        exact back (.inr (.inr ⟨root, fails⟩))
      · rename_i worktree
        have builds : ¬ SprintWithoutWorktree job (around.found job.id) runs := by
          simp [SprintWithoutWorktree, root, not_not.mp present, worktree]
        split
        · exact stays (claimed.gone _) builds
        · exact stays (claimed.gone _) builds
    | _ =>
      refine stays (claimed.gone _) ?_
      simp [SprintWithoutWorktree, root, not_not.mp present]

theorem contextBySource_ends
    (claimed : ClaimedBy owner job) (admitted : Admitted around job runtime)
    (bySource : job.kind.BySource) :
    Ends around runs runtime owner now job
      (contextBySource (around.found job.id) owner now job runs) := by
  have kind : job.kind ≠ .taskReview := by
    intro review
    rw [review] at bySource
    exact absurd bySource (by decide)
  have others : Unbuildable around job runs ↔
      job.source = .manual ∧ (around.found job.id).draft = false ∨
        (job.source = .system ∨ job.source = .copilot) ∧
          (job.kind ∈ [JobKind.ideaGrill, .ideaMakePlan, .ideaReviewPlan, .ideaMakeSpec,
              .ideaReviseSpec] ∧ IdeaWithoutWorktrees (around.found job.id) ∨
            job.kind = .sprintImplementation ∧
              SprintWithoutWorktree job (around.found job.id) runs) := by
    unfold JobKind.BySource at bySource
    simp only [List.mem_cons, not_or] at bySource
    simp [Unbuildable, JobKind.BySource, bySource]
  have stays : ∀ {handled}, ¬ Unbuildable around job runs → Gone job handled →
      Ends around runs runtime owner now job handled :=
    fun builds gone => .of_gone builds kind gone
  unfold contextBySource
  split
  · rename_i manual
    split
    · rename_i draft
      exact stays (by simp [others, manual, draft]) (claimed.gone _)
    · rename_i draft
      exact .back ⟨admitted, others.mpr (.inl ⟨manual, by simpa using draft⟩)⟩
  · rename_i manual
    split
    · rename_i orchestrator
      exact stays (by simp [others, orchestrator]) (claimed.gone _)
    · rename_i orchestrator
      have source : job.source = .system ∨ job.source = .copilot := by
        cases source : job.source <;> simp_all
      have narrowed : Unbuildable around job runs ↔
          job.kind ∈ [JobKind.ideaGrill, .ideaMakePlan, .ideaReviewPlan, .ideaMakeSpec,
              .ideaReviseSpec] ∧ IdeaWithoutWorktrees (around.found job.id) ∨
            job.kind = .sprintImplementation ∧
              SprintWithoutWorktree job (around.found job.id) runs := by
        simp [others, manual, source]
      split
      · rename_i chat
        have builds : ¬ Unbuildable around job runs := by
          rcases chat.1 with chat | chat <;> simp [narrowed, chat]
        cases (around.found job.id).idea <;> exact stays builds (claimed.gone _)
      · split
        · rename_i idea
          refine ideaContext_ends claimed ?_ admitted kind
          have notSprint : job.kind ≠ .sprintImplementation := by
            intro sprint
            rw [sprint] at idea
            exact absurd idea (by decide)
          simp [narrowed, idea, notSprint]
        · rename_i idea
          split
          · rename_i sprint
            exact sprintContext_ends claimed (by simp [narrowed, sprint]) admitted kind
          · rename_i sprint
            have builds : ¬ Unbuildable around job runs := by simp [narrowed, idea, sprint]
            cases (around.found job.id).task <;> exact stays builds (claimed.gone _)

theorem contextByKind_ends
    (claimed : ClaimedBy owner job) (admitted : Admitted around job runtime) :
    Ends around runs runtime owner now job
      (contextByKind (around.found job.id) owner now job around.hosts runs) := by
  unfold contextByKind
  split
  · rename_i kind
    exact .of_gone (by simp [Unbuildable, kind, JobKind.BySource]) (by simp [kind])
      (agentChatContext_gone _ claimed)
  · rename_i kind
    split
    · rename_i parses
      exact .of_gone (by simp [Unbuildable, kind, JobKind.BySource, parses]) (by simp [kind])
        (claimed.gone _)
    · rename_i parses
      exact .back ⟨admitted, .inl ⟨kind, parses⟩⟩
  · rename_i kind
    split
    · rename_i reviewable
      exact .of_gone (by simp [Unbuildable, kind, JobKind.BySource, reviewable])
        (by simp [kind]) (claimed.gone _)
    · rename_i reviewable
      exact .back ⟨admitted, .inr (.inl ⟨kind, reviewable⟩)⟩
  · rename_i kind
    exact taskReviewContext_ends claimed admitted kind
  · rename_i kind
    split
    · rename_i absent
      exact .back ⟨admitted, .inr (.inr (.inl ⟨kind, absent⟩))⟩
    · rename_i present
      exact .of_gone (by simp [Unbuildable, kind, JobKind.BySource, present])
        (by simp [kind]) (claimed.gone _)
  · rename_i kind
    exact .of_gone (by simp [Unbuildable, kind, JobKind.BySource]) (by simp [kind]) (claimed.gone _)
  · refine contextBySource_ends claimed admitted ?_
    unfold JobKind.BySource
    simp only [List.mem_cons, List.not_mem_nil, or_false, not_or]
    exact ⟨by assumption, by assumption, by assumption, by assumption, by assumption, by assumption⟩

/-- What a turn does with a claimed job, whatever its kind. -/
theorem getFullJobContext_ends
    (claimed : ClaimedBy owner job) (sameRuntime : job.runtime = runtime) :
    Ends around runs runtime owner now job
      (getFullJobContext around runs runtime owner now job) := by
  unfold getFullJobContext
  split
  · rename_i managed
    exact .gone (fun comes => managed comes.1.1) (fun waits => absurd waits.1.1 managed)
      (claimed.gone _)
  · rename_i unmanaged
    rw [if_neg (not_not.mpr sameRuntime)]
    cases refused : around.resolver.refusal job.id job.kind runtime with
    | none => exact contextByKind_ends claimed ⟨not_not.mp unmanaged, refused⟩
    | some code =>
      refine .gone (fun comes => ?_) (fun waits => ?_) (claimed.gone _)
      · exact absurd (refused.symm.trans comes.1.2) (by simp)
      · exact absurd (refused.symm.trans waits.1.2) (by simp)

end Answers

/-! ## What is read of a job that is still -/

section Congruence

variable {around : Surroundings} {runs runs' : List SprintRunRow} {runtime : AgentRuntime}
  {job other : JobRow}

theorem admitted_congr (same : job.still = other.still) :
    Admitted around job runtime ↔ Admitted around other runtime := by
  rw [still_restored same]
  rfl

theorem unbuildable_congr (same : job.still = other.still) :
    Unbuildable around job runs ↔ Unbuildable around other runs := by
  rw [still_restored same]
  rfl

theorem diffUnreachable_congr (same : job.still = other.still) :
    DiffUnreachable around job ↔ DiffUnreachable around other := by
  rw [still_restored same]
  rfl

/-- Only which runs there are is read of the runs. -/
theorem hasRun_congr (sameRuns : runs'.map (·.id) = runs.map (·.id)) :
    HasRun runs' job ↔ HasRun runs job := by
  have found : ∀ runs : List SprintRunRow,
      HasRun runs job ↔ ∃ id ∈ runs.map (·.id), job.sprintRunId = some id := by
    intro runs
    simp [HasRun]
  rw [found, found, sameRuns]

theorem comesBack_congr
    (same : job.still = other.still) (sameRuns : runs'.map (·.id) = runs.map (·.id)) :
    ComesBack around job runtime runs' ↔ ComesBack around other runtime runs := by
  unfold ComesBack
  rw [admitted_congr same, unbuildable_congr same]
  unfold Unbuildable SprintWithoutWorktree
  rw [hasRun_congr sameRuns]

theorem unreachable_congr (same : job.still = other.still) :
    Unreachable around job runtime ↔ Unreachable around other runtime := by
  unfold Unreachable
  rw [admitted_congr same, diffUnreachable_congr same]

end Congruence

/-! ## Which jobs are claimable -/

section Claimable

variable {backlog backlog' : Backlog} {worker : WorkerRow} {now now' : Moment} {job other : JobRow}

/-- The run of the job, if it is there, is open. -/
def RunOpen (backlog : Backlog) (job : JobRow) : Prop :=
  ∃ run ∈ backlog.runOf job, run.status = .queued ∨ run.status = .running

theorem ordinaryKind_congr {run run' : Option SprintRunRow}
    (open_iff : (∃ found ∈ run, found.status = .queued ∨ found.status = .running) ↔
      ∃ found ∈ run', found.status = .queued ∨ found.status = .running) :
    Condition.ordinaryKind ⟨job, run, none⟩ = .holds ↔
      Condition.ordinaryKind ⟨job, run', none⟩ = .holds := by
  have status : ∀ run : Option SprintRunRow, Truth.within (ClaimRow.sprintStatus ⟨job, run, none⟩)
          [SprintRunStatus.queued, .running] = .holds ↔
        ∃ found ∈ run, found.status = .queued ∨ found.status = .running := by
    intro run
    cases run <;> simp [ClaimRow.sprintStatus]
  simp only [Condition.ordinaryKind, Truth.any_cons, Truth.any_nil, Truth.all_cons,
    Truth.all_nil, Truth.or_holds, Truth.and_holds, status, open_iff]

/-- The worker is the only one, so it defers to nobody. -/
theorem higherTierIdle_holds :
    buildHigherTierIdleFragment worker.idleInput (backlog.tables worker now) job = .holds := by
  simp only [buildHigherTierIdleFragment, Truth.not_holds, Truth.someRow_fails]
  intro peer member
  have own : peer = worker := List.mem_singleton.mp member
  simp [Condition.higherTierPeer, own]

theorem claimable_iff :
    backlog.Claimable worker now job ↔ ¬ managedPollScope worker.instanceId ∧
        buildClaimableJobWhereFragment worker.claimInput ⟨[], [], []⟩
          ⟨job, backlog.runOf job, none⟩ = .holds ∧ Condition.sprint backlog.jobs job = .holds := by
  have tier : (if worker.tier = none then Truth.holds
      else buildHigherTierIdleFragment worker.idleInput (backlog.tables worker now) job) =
      .holds := by
    split
    · rfl
    · exact higherTierIdle_holds
  unfold Backlog.Claimable WorkerRow.claimQuery
  simp only [Truth.all_cons, Truth.all_nil, Truth.and_holds, tier, true_and, and_true]
  rfl

theorem sprintClause_holds {jobs : List JobRow} :
    Condition.sprint jobs job = .holds ↔
      job.kind ≠ .taskImplementation ∨ job.sprintRunId = none ∨ ¬ EarlierSibling jobs job := by
  simp only [Condition.sprint, Truth.any_cons, Truth.any_nil, Truth.or_holds,
    Truth.of_holds, Truth.isNull_holds, Truth.not_holds, Truth.someRow_fails]
  simp [EarlierSibling, Condition.earlierSibling_holds]

end Claimable

/-! ## One turn -/

section Turn

variable {backlog backlog' : Backlog} {worker : WorkerRow} {now now' : Moment}
  {around : Surroundings} {job other : JobRow}

/-- Jobs have their own identifiers, and the job that runs a sprint has its run alone. -/
structure Backlog.Sound (backlog : Backlog) : Prop where
  distinct : (backlog.jobs.map (·.id)).Nodup
  runner : ∀ sprint ∈ backlog.jobs, sprint.kind = .sprintImplementation →
    ∀ other ∈ backlog.jobs, other.sprintRunId ≠ none →
      other.sprintRunId = sprint.sprintRunId → other.id = sprint.id

/-- The jobs after one of them was rewritten. -/
def rewritten (jobs : List JobRow) (job : JobRow) : List JobRow :=
  jobs.map fun other => if other.id = job.id then job else other

theorem rewritten_rewritten (jobs : List JobRow) (same : job.id = other.id) :
    rewritten (rewritten jobs job) other = rewritten jobs other := by
  unfold rewritten
  rw [List.map_map]
  refine List.map_congr_left fun row _ => ?_
  simp only [Function.comp_apply]
  by_cases own : row.id = job.id
  · rw [if_pos own, if_pos same, if_pos (own.trans same)]
  · rw [if_neg own]

/-- What one turn does when it claims this job. -/
structure Turned
    (around : Surroundings) (backlog : Backlog) (worker : WorkerRow) (job : JobRow)
    (backlog' : Backlog) (job' : JobRow) :
    Prop where
  jobs : backlog'.jobs = rewritten backlog.jobs job'
  still : job'.still = job.still
  runIds : backlog'.runs.map (·.id) = backlog.runs.map (·.id)
  /-- A run is open if it was, unless its sprint job ended it. -/
  runOpen : ∀ other : JobRow,
    other.sprintRunId = none ∨ other.sprintRunId ≠ job.sprintRunId ∨
        job.kind ≠ .sprintImplementation ∨ job'.status = .queued →
      (RunOpen backlog' other ↔ RunOpen backlog other)
  active : job.kind = .taskImplementation → job.sprintRunId ≠ none → job'.status.Active
  outcome :
    ComesBack around job worker.runtime backlog.runs ∧ job'.status = .queued ∨
    ¬ ComesBack around job worker.runtime backlog.runs ∧
        Unreachable around job worker.runtime ∧ job.retryCount = 0 ∧
        job'.status = .queued ∧ job'.retryCount = 1 ∨
    ¬ ComesBack around job worker.runtime backlog.runs ∧
        (Unreachable around job worker.runtime → 0 < job.retryCount) ∧
        job'.status ≠ .queued

/-! ### The runs -/

theorem begun_open {status : SprintRunStatus} :
    (status.begun = .queued ∨ status.begun = .running) ↔ status = .queued ∨ status = .running := by
  cases status <;> simp [SprintRunStatus.begun]

theorem setRun_ids (status : SprintRunStatus → SprintRunStatus) :
    (backlog.setRun job status).runs.map (·.id) = backlog.runs.map (·.id) := by
  unfold Backlog.setRun
  rw [List.map_map]
  refine List.map_congr_left fun run _ => ?_
  simp only [Function.comp_apply]
  split <;> rfl

theorem runOf_setRun (status : SprintRunStatus → SprintRunStatus) :
    (backlog.setRun job status).runOf other = (backlog.runOf other).map fun run =>
      if some run.id = job.sprintRunId then { run with status := status run.status }
      else run := by
  unfold Backlog.runOf Backlog.setRun
  rw [List.find?_map]
  refine congrArg _ (congrArg (List.find? · backlog.runs) (funext fun run => ?_))
  simp only [Function.comp_apply]
  split <;> rfl

theorem runOf_id {run : SprintRunRow} (found : backlog.runOf other = some run) :
    some run.id = other.sprintRunId := by
  unfold Backlog.runOf at found
  simpa using List.find?_some found

theorem runOpen_begun : RunOpen (backlog.setRun job SprintRunStatus.begun) other ↔
    RunOpen backlog other := by
  unfold RunOpen
  rw [runOf_setRun]
  cases backlog.runOf other with
  | none => simp
  | some run =>
    simp only [Option.map_some, Option.mem_some_iff, exists_eq_left']
    split
    · exact begun_open
    · exact Iff.rfl

theorem runOpen_setRun (apart : other.sprintRunId = none ∨ other.sprintRunId ≠ job.sprintRunId)
    (status : SprintRunStatus → SprintRunStatus) :
    RunOpen (backlog.setRun job status) other ↔ RunOpen backlog other := by
  unfold RunOpen
  rw [runOf_setRun]
  cases found : backlog.runOf other with
  | none => simp
  | some run =>
    have named := runOf_id found
    have differs : some run.id ≠ job.sprintRunId := by
      intro same
      rcases apart with absent | apart
      · exact absurd (named.trans absent) (by simp)
      · exact apart (named.symm.trans same)
    simp [differs]

/-! ### The answer does not depend on the rest -/

theorem getFullJobContext_congr
    {runs runs' : List SprintRunRow} {runtime : AgentRuntime} {owner : Owner}
    (sameRuns : runs'.map (·.id) = runs.map (·.id)) :
    getFullJobContext around runs' runtime owner now job =
      getFullJobContext around runs runtime owner now job := by
  have sprint : sprintContext (around.found job.id) owner now job runs' =
      sprintContext (around.found job.id) owner now job runs := by
    unfold sprintContext
    by_cases present : HasRun runs job
    · rw [if_neg (not_not.mpr present), if_neg (not_not.mpr ((hasRun_congr sameRuns).mpr present))]
    · rw [if_pos present, if_pos fun found => present ((hasRun_congr sameRuns).mp found)]
  unfold getFullJobContext contextByKind contextBySource
  rw [sprint]

/-! ### The claim -/

theorem Backlog.Claimable.selected (claimable : backlog.Claimable worker now job) (plan : String)
    (cutoff : Option (String × Moment)) :
    (Statement.tryClaimJob job.id worker (backlog.tables worker now) (backlog.runOf job) plan
      cutoff now).Selects job :=
  ⟨rfl, claimable.2⟩

theorem Backlog.Claimable.queued (claimable : backlog.Claimable worker now job) :
    job.status = .queued :=
  (Statement.claimQuery_holds claimable.2).1

theorem Backlog.Claimable.runtime (claimable : backlog.Claimable worker now job) :
    job.runtime = worker.runtime :=
  (whereFragment_iff.mp (claimable_iff.mp claimable).2.1).2.2.1

theorem claimedRow_eq (claimable : backlog.Claimable worker now job) :
    claimedRow around worker backlog now job =
      (Statement.tryClaimJob job.id worker (backlog.tables worker now) (backlog.runOf job)
        (around.plan job.id) (around.cutoff job.id) now).set job :=
  Statement.apply_of_selects (claimable.selected _ _)

theorem claimedRow_still (claimable : backlog.Claimable worker now job) :
    (claimedRow around worker backlog now job).still = job.still := by
  rw [claimedRow_eq claimable]
  rfl

theorem claimedRow_claimedBy (claimable : backlog.Claimable worker now job) :
    ClaimedBy worker.owner (claimedRow around worker backlog now job) := by
  rw [claimedRow_eq claimable]
  exact ⟨rfl, ⟨rfl, rfl⟩, (Statement.claimQuery_holds claimable.2).2.1⟩

theorem claimedRow_retryCount (claimable : backlog.Claimable worker now job) :
    (claimedRow around worker backlog now job).retryCount = job.retryCount := by
  rw [claimedRow_eq claimable]
  rfl

/-- A task of a sprint is neither refused nor ended. -/
theorem sprintTask_mild {runs : List SprintRunRow} {owner : Owner} (claimed : ClaimedBy owner job)
    (kind : job.kind = .taskImplementation) (runtime : job.runtime ≠ .harness) :
    (getFullJobContext around runs job.runtime owner now job).1.status.Active ∧
      ∀ reason, (getFullJobContext around runs job.runtime owner now job).2 ≠ .terminal reason := by
  have same : ∀ answer : Answer, (∀ reason, answer ≠ .terminal reason) →
      (job, answer).1.status.Active ∧ ∀ reason, (job, answer).2 ≠ .terminal reason :=
    fun answer mild => ⟨.inr (.inl claimed.claimed), mild⟩
  have accepted := around.resolver.ordinary job.id job.kind job.runtime runtime
    (by rw [kind]; decide)
  unfold getFullJobContext
  split
  · exact same _ (by simp)
  · rw [if_neg (not_not.mpr rfl), accepted, Option.elim_none]
    unfold contextByKind contextBySource
    simp only [kind]
    split
    · split
      · exact same _ (by simp)
      · refine ⟨?_, by simp [givenBack]⟩
        unfold givenBack
        rw [claimed.rollbackClaim]
        exact .inl rfl
    · split
      · exact same _ (by simp)
      · rw [if_neg (by simp), if_neg (by simp), if_neg (by simp)]
        cases (around.found job.id).task <;> exact same _ (by simp)

/-- A harness claims no task of a sprint. -/
theorem Backlog.Claimable.sprintTask
    (claimable : backlog.Claimable worker now job) (kind : job.kind = .taskImplementation)
    (ofRun : job.sprintRunId ≠ none) :
    job.runtime ≠ .harness := by
  intro harness
  have capable := (whereFragment_iff.mp (claimable_iff.mp claimable).2.1).2.2.2.2.2.1
  have text : worker.runtime.text = "HARNESS" := by
    rw [← claimable.runtime, harness]
    rfl
  simp [ClaimPredicate.sql, text, Condition.harness, kind, ofRun] at capable

/-! ### The turn -/

/-- The row that the answer leaves. -/
def settledRow (now : Moment) (handled : Handled) : JobRow :=
  match handled.2 with
  | .terminal reason =>
      (Statement.markJobTerminallyFailed handled.1.id reason now).apply handled.1
  | _ => handled.1

theorem markJobTerminallyFailed_apply (reason : String) :
    (Statement.markJobTerminallyFailed job.id reason now).apply job =
      (Statement.markJobTerminallyFailed job.id reason now).set job :=
  Statement.apply_of_selects rfl

theorem settledRow_still (handled : Handled) :
    (settledRow now handled).still = handled.1.still := by
  unfold settledRow
  split
  · rw [markJobTerminallyFailed_apply]
    rfl
  · rfl

variable {handled : Handled}

theorem settledRow_ne_queued (gone : handled.1.status ≠ .queued) :
    (settledRow now handled).status ≠ .queued := by
  unfold settledRow
  split
  · rw [markJobTerminallyFailed_apply]
    simp [Statement.set]
  · exact gone

theorem settledRow_mild (mild : ∀ reason, handled.2 ≠ .terminal reason) :
    settledRow now handled = handled.1 := by
  unfold settledRow
  split
  · rename_i ends
    exact absurd ends (mild _)
  · rfl

theorem settle_jobs (handled : Handled) :
    (settle backlog now handled).jobs = rewritten backlog.jobs (settledRow now handled) := by
  obtain ⟨row, answer⟩ := handled
  cases answer with
  | terminal reason =>
    simp only [settle, settledRow, markJobTerminallyFailed]
    split
    · exact rewritten_rewritten backlog.jobs Statement.apply_id.symm
    · exact rewritten_rewritten backlog.jobs Statement.apply_id.symm
  | _ => rfl

theorem settle_runIds (handled : Handled) :
    (settle backlog now handled).runs.map (·.id) = backlog.runs.map (·.id) := by
  unfold settle
  split
  · unfold markJobTerminallyFailed
    simp only
    split
    · exact setRun_ids _
    · rfl
  · rfl

theorem settle_runOpen
    (apart : other.sprintRunId = none ∨ other.sprintRunId ≠ handled.1.sprintRunId ∨
      handled.1.kind ≠ .sprintImplementation ∨ (settledRow now handled).status = .queued) :
    RunOpen (settle backlog now handled) other ↔ RunOpen backlog other := by
  unfold settle
  split
  · rename_i reason ends
    unfold markJobTerminallyFailed
    simp only
    split
    · rename_i sprint
      refine runOpen_setRun ?_ _
      rcases apart with absent | differs | plain | queued
      · exact .inl absent
      · exact .inr differs
      · exact absurd sprint plain
      · rw [settledRow, ends] at queued
        simp only [markJobTerminallyFailed_apply] at queued
        exact absurd queued (by simp [Statement.set])
    · exact Iff.rfl
  · exact Iff.rfl

theorem givenBack_settled {owner : Owner} (claimed : ClaimedBy owner job) :
    settledRow now (givenBack owner now job) =
      { job with leaseUntil := some (now + 120000) }.unclaimed := by
  rw [settledRow_mild (by simp [givenBack])]
  exact claimed.rollbackClaim

/-- The job at the head of the line is claimed and handled. -/
theorem claimTurn_turned (claimable : backlog.Claimable worker now job)
    (first : (backlog.claimable worker now).head? = some job) :
    (∃ job', Turned around backlog worker job (claimTurn around worker backlog now).1 job') ∧
    (claimTurn around worker backlog now).2 = some (job.id,
      (getFullJobContext around backlog.runs worker.runtime worker.owner now
        (claimedRow around worker backlog now job)).2) := by
  have claimed := @claimedRow_claimedBy backlog worker now around job claimable
  have stillClaimed := @claimedRow_still backlog worker now around job claimable
  have retries := @claimedRow_retryCount backlog worker now around job claimable
  have runtime := (still_runtime stillClaimed).trans claimable.runtime
  have turn : claimTurn around worker backlog now =
      (settle ((backlog.update (claimedRow around worker backlog now job)).setRun job
          SprintRunStatus.begun) now
        (getFullJobContext around backlog.runs worker.runtime worker.owner now
          (claimedRow around worker backlog now job)),
        some (job.id, (getFullJobContext around backlog.runs worker.runtime worker.owner now
          (claimedRow around worker backlog now job)).2)) := by
    unfold claimTurn tryClaimJob
    rw [first]
    simp only [Option.elim_some]
    rw [getFullJobContext_congr (setRun_ids SprintRunStatus.begun), still_id stillClaimed]
    rfl
  rw [turn]
  generalize claimedRow around worker backlog now job = row at *
  have ends := @getFullJobContext_ends around backlog.runs worker.runtime worker.owner now row
    claimed runtime
  have comes : ComesBack around row worker.runtime backlog.runs ↔
      ComesBack around job worker.runtime backlog.runs := comesBack_congr stillClaimed rfl
  have waits : Unreachable around row worker.runtime ↔
      Unreachable around job worker.runtime := unreachable_congr stillClaimed
  have mild : row.kind = .taskImplementation → row.sprintRunId ≠ none →
      (settledRow now (getFullJobContext around backlog.runs worker.runtime worker.owner now
        row)).status.Active := by
    intro kind ofRun
    have other := claimable.sprintTask ((still_kind stillClaimed).symm.trans kind)
      (still_sprintRunId stillClaimed ▸ ofRun)
    have gentle := @sprintTask_mild now around row backlog.runs worker.owner claimed kind
      (still_runtime stillClaimed ▸ other)
    rw [runtime] at gentle
    rw [settledRow_mild gentle.2]
    exact gentle.1
  refine ⟨⟨settledRow now (getFullJobContext around backlog.runs worker.runtime worker.owner
    now row), ?_⟩, rfl⟩
  generalize getFullJobContext around backlog.runs worker.runtime worker.owner now row =
    handled at *
  have stillHandled : handled.1.still = job.still := by
    refine Eq.trans ?_ stillClaimed
    cases ends with
    | gone _ _ gone => exact gone.still
    | _ => exact rollbackClaim_still _ _
  refine
    { jobs := ?_
      still := (settledRow_still handled).trans stillHandled
      runIds := (settle_runIds handled).trans (setRun_ids _)
      runOpen := fun other apart => ?_
      active := fun kind ofRun => mild ((still_kind stillClaimed).trans kind)
        (still_sprintRunId stillClaimed ▸ ofRun)
      outcome := ?_ }
  · rw [settle_jobs]
    exact rewritten_rewritten backlog.jobs (still_id
      (stillClaimed.trans ((settledRow_still handled).trans stillHandled).symm))
  · refine (settle_runOpen ?_).trans runOpen_begun
    rw [still_sprintRunId stillHandled, still_kind stillHandled]
    exact apart
  · cases ends with
    | back back =>
      refine .inl ⟨comes.mp back, ?_⟩
      rw [givenBack_settled claimed]
      rfl
    | retried unreachable first =>
      have counted : ClaimedBy worker.owner { row with retryCount := row.retryCount + 1 } :=
        ⟨claimed.claimed, claimed.owned, claimed.unmanaged⟩
      refine .inr (.inl ⟨fun back => ?_, waits.mp unreachable, retries ▸ first, ?_, ?_⟩)
      · have kind := unreachable.2.1
        have unbuildable := (comes.mpr back).2
        simp [Unbuildable, kind, JobKind.BySource] at unbuildable
      · rw [givenBack_settled counted]
        rfl
      · rw [givenBack_settled counted]
        show row.retryCount + 1 = 1
        rw [first]
    | gone leaves last gone =>
      exact .inr (.inr ⟨fun back => leaves (comes.mpr back),
        fun unreachable => retries ▸ last (waits.mpr unreachable),
        settledRow_ne_queued gone.status⟩)

end Turn

end Jobs
end Scrum4Me
