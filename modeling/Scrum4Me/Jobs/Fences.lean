import Scrum4Me.Jobs.Moves

/-!
# Fences around a claim

Some calls fence their write with token, instance and status, some with the
token and the status, and some select the job by its identifier although they
read it long before. `Undisturbed` says what must not happen in between. In runs
without such steps every call in flight still knows whose the job is: that is
`Guarded`, and it is kept by every step.
-/

namespace Scrum4Me
namespace Jobs

open Foundation

/-! ## Who fences how -/

namespace Call

/-- The claim for which the call will write without a fence. -/
def unfenced : Call → Option Claim
  | failing held _ => some held.claim
  | reporting claim read requested =>
      if Fenced read requested then none else some claim
  | deployFailing claim _ _ => some claim
  | _ => none

/-- The claim for which the call will write, fenced by its token. -/
def tokenFenced : Call → Option Claim
  | reporting claim read requested =>
      if Fenced read requested then some claim else none
  | _ => none

/-- The claim for which the call may write, fenced by token and instance. -/
def ownerFenced : Call → Option WorkerClaim
  | waiting held => some held
  | _ => none

/-- A selected job may have this status when the cancellation is written. -/
def Allows : Call → String → JobStatus → Prop
  | cascading _ ids, id, status => id ∈ ids → status.Active
  | deployFailing _ _ ids, id, status => id ∈ ids → status = .queued
  | _, _, _ => True

end Call

namespace Step

/-- The job that the step claims, and for whom. -/
def claimant : Step → Option (String × Owner)
  | tryClaim worker _ jobId _ _ _ =>
      some (jobId, ⟨worker.tokenId, worker.instanceId⟩)
  | _ => none

/-- The claim of a job that `markJobTerminallyFailed` reads. -/
def failureRead : Step → Option WorkerClaim
  | readFailure held _ => some held
  | _ => none

end Step

instance (call : Call) (id : String) (status : JobStatus) :
    Decidable (call.Allows id status) := by
  cases call <;> unfold Call.Allows <;> infer_instance

/-- No other call in flight is to cancel a job that the step takes from the
statuses it was selected for. -/
def SelectionsKept (world : World) (step : Step) : Prop :=
  ∀ statement ∈ step.statements world, ∀ status ∈ statement.target,
    ∀ job ∈ world.jobs, statement.Selects job.row →
      ∀ call ∈ world.others step, call.Allows job.row.id job.row.status →
        call.Allows job.row.id status

instance (world : World) (step : Step) : Decidable (SelectionsKept world step) :=
  inferInstanceAs (Decidable (∀ _ ∈ _, _))

/-- The step does not come between the read and the write of another call. -/
structure Undisturbed (world : World) (step : Step) : Prop where
  /-- It takes no job that another call will write without a fence. -/
  ends : ∀ statement ∈ step.statements world, statement.Ends →
    ∀ job ∈ world.jobs, statement.Selects job.row →
      ∀ call ∈ world.others step, ∀ claim ∈ call.unfenced,
        claim.jobId ≠ job.row.id
  /-- It claims no job for an owner whose earlier call on the job goes on. -/
  owners : ∀ target ∈ step.claimant, ∀ call ∈ world.others step,
    ∀ held ∈ call.ownerFenced, held.jobId = target.1 → held.owner ≠ target.2
  /-- It claims no job for a token whose earlier report on the job goes on. -/
  tokens : ∀ target ∈ step.claimant, ∀ call ∈ world.others step,
    ∀ claim ∈ call.tokenFenced, claim.jobId = target.1 →
      claim.tokenId ≠ target.2.tokenId
  /-- A job is only given up as failed while its claim is current. -/
  failures : ∀ held ∈ step.failureRead, ∀ job ∈ world.jobs,
    job.row.id = held.jobId → job.HeldUnder held.claim
  /-- It takes no job from the statuses that a cancellation selected. -/
  selections : SelectionsKept world step

instance (world : World) (step : Step) : Decidable (Undisturbed world step) :=
  decidable_of_iff ((∀ statement ∈ step.statements world, statement.Ends →
        ∀ job ∈ world.jobs, statement.Selects job.row →
          ∀ call ∈ world.others step, ∀ claim ∈ call.unfenced,
            claim.jobId ≠ job.row.id) ∧
      (∀ target ∈ step.claimant, ∀ call ∈ world.others step,
        ∀ held ∈ call.ownerFenced, held.jobId = target.1 →
          held.owner ≠ target.2) ∧
      (∀ target ∈ step.claimant, ∀ call ∈ world.others step,
        ∀ claim ∈ call.tokenFenced, claim.jobId = target.1 →
          claim.tokenId ≠ target.2.tokenId) ∧
      (∀ held ∈ step.failureRead, ∀ job ∈ world.jobs,
        job.row.id = held.jobId → job.HeldUnder held.claim) ∧
      SelectionsKept world step)
    ⟨fun ⟨ends, owners, tokens, failures, selections⟩ =>
      ⟨ends, owners, tokens, failures, selections⟩,
      fun ⟨ends, owners, tokens, failures, selections⟩ =>
        ⟨ends, owners, tokens, failures, selections⟩⟩

/-! ## The invariant -/

/-- A failing deployment selected other deployments only. -/
def Separate (world : World) : Prop :=
  ∀ claim report ids, Call.deployFailing claim report ids ∈ world.calls →
    claim.jobId ∉ ids

/-- Every cancellation in flight may still cancel what it selected. -/
structure Selected (world : World) : Prop where
  distinct : world.ids.Nodup
  allowed : ∀ call ∈ world.calls, ∀ job ∈ world.jobs,
    call.Allows job.row.id job.row.status
  apart : Separate world

/-- Every call in flight knows whose the job is that it will write. -/
structure Guarded (world : World) : Prop extends Selected world where
  unfenced : ∀ call ∈ world.calls, ∀ claim ∈ call.unfenced,
    ∃ job ∈ world.jobs, job.HeldUnder claim
  tokens : ∀ call ∈ world.calls, ∀ claim ∈ call.tokenFenced,
    ∀ job ∈ world.jobs, job.row.id = claim.jobId → job.row.status.Held →
      job.row.claimedByTokenId = some claim.tokenId → job.HeldUnder claim
  owners : ∀ call ∈ world.calls, ∀ held ∈ call.ownerFenced,
    ∀ job ∈ world.jobs, job.row.id = held.jobId → job.row.status.Held →
      job.row.OwnedBy held.owner → job.HeldUnder held.claim

variable {world : World} {step : Step} {job : Tracked} {statement : Statement}

theorem Separate.stepApart (separate : Separate world) (ready : step.Ready world) : step.Apart := by
  cases step with
  | cancelDeploys claim report ids => exact separate claim report ids (ready.2.1 _ rfl)
  | _ => trivial

variable {call : Call} {claim : Claim}

theorem Guarded.heldUnder (guarded : Guarded world)
    (inFlight : call ∈ world.calls) (writes : claim ∈ call.unfenced)
    (member : job ∈ world.jobs) (same : job.row.id = claim.jobId) :
    job.HeldUnder claim := by
  obtain ⟨other, known, held⟩ := guarded.unfenced call inFlight claim writes
  have equal := World.job_of_id guarded.distinct member known (same.trans held.1.symm)
  rwa [equal]

/-! ## When a statement selects a job -/

/-- What is known of a job when a statement of the step selects it. -/
structure Licensed (step : Step) (statement : Statement) (job : Tracked) :
    Prop where
  active : ∀ status ∈ statement.target, job.row.status.Active
  kept : ∀ status ∈ statement.target, status.Held → ¬ statement.Claims →
    job.row.status.Held
  behalf : ∀ claim ∈ step.behalf, job.row.id = claim.jobId →
    job.HeldUnder claim

/-- A job held under the claim of the step may be written in any way. -/
theorem Licensed.of_heldUnder (behalf : step.behalf = some claim) (held : job.HeldUnder claim) :
    Licensed step statement job where
  active := fun _ _ => held.2.1.active
  kept := fun _ _ _ _ => held.2.1
  behalf := by
    intro other writes _
    rw [behalf, Option.mem_some_iff] at writes
    exact writes ▸ held

/-- A statement on behalf of no claim takes active jobs and keeps none. -/
theorem Licensed.of_active (behalf : step.behalf = none) (active : job.row.status.Active)
    (takes : ∀ status ∈ statement.target, status.Held → statement.Claims) :
    Licensed step statement job where
  active := fun _ _ => active
  kept := fun status target held other => absurd (takes status target held) other
  behalf := by simp [behalf]

/-- A statement on other jobs that sets no status is free to do so. -/
theorem Licensed.of_other (behalf : step.behalf = some claim) (other : job.row.id ≠ claim.jobId)
    (target : ∀ status ∈ statement.target, job.row.status.Active ∧ ¬ status.Held) :
    Licensed step statement job where
  active := fun status sets => (target status sets).1
  kept := fun status sets held _ => absurd held (target status sets).2
  behalf := by
    intro own writes same
    rw [behalf, Option.mem_some_iff] at writes
    exact absurd (writes ▸ same) other

/-- A job that an owner selects by token and instance is held under its claim. -/
theorem Guarded.ownerHeld (guarded : Guarded world) {held : WorkerClaim}
    (inFlight : Call.waiting held ∈ world.calls) (member : job ∈ world.jobs)
    (same : job.row.id = held.jobId) (status : job.row.status.Held)
    (owned : job.row.OwnedBy held.owner) :
    job.HeldUnder held.claim :=
  guarded.owners _ inFlight held rfl job member same status owned

variable {requested : ReportStatus}

/-- The statements of a report select the job while it is held under the claim,
or other jobs that have failed. -/
theorem reportStatements_licensed (guarded : Guarded world) {read : JobRow}
    {report : Report} {followUpId : Option String}
    (ready : (Step.writeReport claim read requested report followUpId).Ready world)
    (member : job ∈ world.jobs) (among : statement ∈ reportStatements claim read report world.now)
    (selected : statement.Selects job.row) :
    Licensed (.writeReport claim read requested report followUpId) statement job := by
  obtain ⟨⟨admits, _, _⟩, inFlight, _⟩ := ready
  replace inFlight := inFlight _ rfl
  have running : report.status = .running ↔ requested = .running := by
    rcases admits.status with same | ⟨rfl, failed, _⟩
    · rw [same]
    · simp [failed]
  have unfenced (free : ¬ Fenced read requested)
      (same : job.row.id = claim.jobId) : job.HeldUnder claim :=
    guarded.heldUnder inFlight (by simp [Call.unfenced, free]) member same
  have fenced (isFenced : Fenced read requested)
      (same : job.row.id = claim.jobId) (held : job.row.status.Held)
      (token : job.row.claimedByTokenId = some claim.tokenId) :
      job.HeldUnder claim :=
    guarded.tokens _ inFlight claim (by simp [Call.tokenFenced, isFenced]) job
      member same held token
  unfold reportStatements at among
  split at among
  · next docs =>
    rw [List.mem_singleton] at among
    subst among
    obtain ⟨same, _, token, held⟩ := selected
    exact .of_heldUnder rfl (fenced (.inr ⟨docs.1, running.not.1 docs.2⟩) same held token)
  split at among
  · next chat =>
    rw [List.mem_singleton] at among
    subst among
    obtain ⟨same, token, status⟩ := selected
    have held : job.row.status.Held := by
      split at status
      · exact .inl status
      · exact status
    exact .of_heldUnder rfl (fenced (.inl chat) same held token)
  next notDocs notChat =>
  have free : ¬ Fenced read requested := by
    rintro (chat | ⟨docs, other⟩)
    · exact notChat chat
    · exact notDocs ⟨docs, running.not.2 other⟩
  split at among
  · rw [List.singleton_append, List.mem_cons] at among
    rcases among with rfl | resolves
    · exact .of_heldUnder rfl (unfenced free selected)
    · split at resolves
      · rw [List.mem_singleton] at resolves
        subst resolves
        refine .of_other rfl selected.2.2.2.2 ?_
        intro status target
        cases target
      · exact absurd resolves List.not_mem_nil
  · rw [List.mem_singleton] at among
    subst among
    exact .of_heldUnder rfl (unfenced free selected)

/-- Whatever a step writes, it has the licence for. -/
theorem licensed (guarded : Guarded world) (ready : step.Ready world) (member : job ∈ world.jobs)
    (among : statement ∈ step.statements world) (selected : statement.Selects job.row) :
    Licensed step statement job := by
  cases step with
  | tryClaim worker snapshot jobId sr planSnapshot cutoff =>
    cases List.mem_singleton.1 among
    exact .of_active rfl (.inl (Statement.claimQuery_holds selected.2).1) fun _ _ _ => trivial
  | sweepFailed userId =>
    cases List.mem_singleton.1 among
    refine .of_active rfl selected.2.2.1.active ?_
    rintro status ⟨⟩ held
    exact absurd held (by decide)
  | sweepRequeued userId =>
    cases List.mem_singleton.1 among
    refine .of_active rfl selected.2.2.1.active ?_
    rintro status ⟨⟩ held
    exact absurd held (by decide)
  | refresh held =>
    cases List.mem_singleton.1 among
    obtain ⟨same, _, owned, status⟩ := selected
    exact .of_heldUnder rfl (guarded.ownerHeld (ready.2.1 _ rfl) member same status owned)
  | rollback held =>
    cases List.mem_singleton.1 among
    obtain ⟨same, _, owned, status⟩ := selected
    exact .of_heldUnder rfl (guarded.ownerHeld (ready.2.1 _ rfl) member same status owned)
  | release held =>
    cases List.mem_singleton.1 among
    obtain ⟨same, claimed, owned⟩ := selected
    exact .of_heldUnder rfl (guarded.ownerHeld (ready.2.1 _ rfl) member same (.inl claimed) owned)
  | skip held reason =>
    cases List.mem_singleton.1 among
    obtain ⟨same, claimed, owned⟩ := selected
    exact .of_heldUnder rfl (guarded.ownerHeld (ready.2.1 _ rfl) member same (.inl claimed) owned)
  | writeFailure held reason =>
    cases List.mem_singleton.1 among
    exact .of_heldUnder rfl (guarded.heldUnder (ready.2.1 _ rfl) rfl member selected)
  | writeReport claim read requested report followUpId =>
    exact reportStatements_licensed guarded ready member among selected
  | cancelDeploys claim report ids =>
    have inFlight := ready.2.1 _ rfl
    simp only [Step.statements, List.mem_cons, List.not_mem_nil, or_false] at among
    rcases among with rfl | rfl
    · exact .of_heldUnder rfl (guarded.heldUnder inFlight rfl member selected)
    · have queued : job.row.status = .queued := guarded.allowed _ inFlight job member selected
      refine .of_other rfl ?_ ?_
      · intro same
        exact guarded.apart claim report ids inFlight (same ▸ selected)
      · rintro status ⟨⟩
        exact ⟨.inl queued, by decide⟩
  | cancelPbi failedJobId ids =>
    cases List.mem_singleton.1 among
    have active : job.row.status.Active := guarded.allowed _ (ready.2.1 _ rfl) job member selected
    refine .of_active rfl active ?_
    rintro status ⟨⟩ held
    exact absurd held (by decide)
  | cancelRun runId sparing taskId =>
    cases List.mem_singleton.1 among
    refine .of_active rfl selected.2.1 ?_
    rintro status ⟨⟩ held
    exact absurd held (by decide)
  | _ => exact absurd among List.not_mem_nil

/-! ## What a step does to a job -/

/-- A step leaves a job alone, or applies one licensed statement to it. -/
theorem rewrite_licensed
    (guarded : Guarded world) (ready : step.Ready world) (member : job ∈ world.jobs) :
    step.rewrite world job = job ∨ ∃ statement ∈ step.statements world, statement.Selects job.row ∧
        Licensed step statement job ∧ step.rewrite world job = job.apply statement := by
  have disjoint : step.Disjoint world := Step.disjoint_of_apart (guarded.apart.stepApart ready)
  rcases Step.rewrite_cases job disjoint with
    same | ⟨statement, among, selected, applied⟩
  · exact .inl same
  · exact .inr ⟨statement, among, selected, licensed guarded ready member among selected, applied⟩

theorem status_apply (selected : statement.Selects job.row) :
    (job.apply statement).row.status = statement.target.getD job.row.status := by
  rw [Tracked.apply_row, Statement.apply_of_selects selected, Statement.set_status]

/-- A terminal job keeps its status. -/
theorem terminal_rewrite
    (guarded : Guarded world) (ready : step.Ready world) (member : job ∈ world.jobs)
    (terminal : job.row.status.Terminal) :
    (step.rewrite world job).row.status = job.row.status := by
  rcases rewrite_licensed guarded ready member with
    same | ⟨statement, _, selected, licence, applied⟩
  · rw [same]
  · rw [applied, status_apply selected]
    cases target : statement.target with
    | none => rfl
    | some status => exact absurd (licence.active status target) terminal

/-- On behalf of a claim, a step changes its job only while it is held so. -/
theorem behalf_rewrite
    (guarded : Guarded world) (ready : step.Ready world) (member : job ∈ world.jobs)
    (behalf : claim ∈ step.behalf) (same : job.row.id = claim.jobId)
    (changes : step.rewrite world job ≠ job) :
    job.HeldUnder claim := by
  rcases rewrite_licensed guarded ready member with
    unchanged | ⟨statement, _, _, licence, _⟩
  · exact absurd unchanged changes
  · exact licence.behalf claim behalf same

/-- Only `tryClaimJob` claims. -/
theorem claimant_of_claims (among : statement ∈ step.statements world) (claims : statement.Claims)
    (selected : statement.Selects job.row) :
    ∃ owner, step.claimant = some (job.row.id, owner) ∧
      (job.apply statement).row.OwnedBy owner := by
  cases step with
  | tryClaim worker snapshot jobId sr planSnapshot cutoff =>
    cases List.mem_singleton.1 among
    refine ⟨⟨worker.tokenId, worker.instanceId⟩, ?_, ?_⟩
    · simp only [Step.claimant, selected.1]
    · rw [Tracked.apply_row, Statement.apply_of_selects selected]
      exact ⟨rfl, rfl⟩
  | writeReport claim read requested report followUpId =>
    simp only [Step.statements, reportStatements] at among
    grind [Statement.Claims]
  | cancelDeploys claim report ids =>
    simp only [Step.statements, List.mem_cons, List.not_mem_nil, or_false] at among
    rcases among with rfl | rfl
    · exact claims.elim
    · exact claims.elim
  | _ =>
    first
    | exact absurd among List.not_mem_nil
    | (cases List.mem_singleton.1 among
       exact claims.elim)

/-- A job that is held after a step was claimed by it, or was held before. -/
theorem held_rewrite
    (guarded : Guarded world) (ready : step.Ready world) (member : job ∈ world.jobs)
    (held : (step.rewrite world job).row.status.Held) :
    (∃ owner, step.claimant = some (job.row.id, owner) ∧
      (step.rewrite world job).epoch = job.epoch + 1 ∧ (step.rewrite world job).row.OwnedBy owner) ∨
    job.row.status.Held ∧ (step.rewrite world job).epoch = job.epoch ∧
      (step.rewrite world job).row.claimedByTokenId = job.row.claimedByTokenId ∧
      (step.rewrite world job).row.workerInstanceId = job.row.workerInstanceId := by
  rcases rewrite_licensed guarded ready member with
    same | ⟨statement, among, selected, licence, applied⟩
  · rw [same] at held ⊢
    exact .inr ⟨held, rfl, rfl, rfl⟩
  rw [applied] at held ⊢
  have status := status_apply selected
  by_cases claims : statement.Claims
  · obtain ⟨owner, claimant, owned⟩ := claimant_of_claims among claims selected
    exact .inl ⟨owner, claimant, if_pos ⟨claims, selected⟩, owned⟩
  · have stays : ¬ statement.Ends := by
      rintro ⟨target, sets, free⟩
      rw [status, Option.mem_def.1 sets] at held
      exact free held
    have before : job.row.status.Held := by
      cases target : statement.target with
      | none => rwa [status, target] at held
      | some next =>
        rw [status, target] at held
        exact licence.kept next target held claims
    have owner := @Statement.set_owner statement job.row stays claims
    rw [Tracked.apply_row, Statement.apply_of_selects selected]
    exact .inr ⟨before, Tracked.apply_epoch claims, owner⟩

/-! ## Selections stay selected -/

theorem Call.allows_queued (call : Call) (id : String) : call.Allows id .queued := by
  cases call with
  | cascading => exact fun _ => .inl rfl
  | deployFailing => exact fun _ => rfl
  | _ => trivial

theorem mem_queuedDeploys {productId jobId id : String} :
    id ∈ world.queuedDeploys productId jobId ↔
      ∃ job ∈ world.jobs, job.row.id = id ∧ job.row.productId = productId ∧
        job.row.kind = .deploy ∧ job.row.status = .queued ∧ id ≠ jobId := by
  simp only [World.queuedDeploys, World.rows, List.mem_map, List.mem_filter, decide_eq_true_eq]
  constructor
  · rintro ⟨_, ⟨⟨job, member, rfl⟩, product, kind, queued, other⟩, rfl⟩
    exact ⟨job, member, rfl, product, kind, queued, other⟩
  · rintro ⟨job, member, rfl, product, kind, queued, other⟩
    exact ⟨job.row, ⟨⟨job, member, rfl⟩, product, kind, queued, other⟩, rfl⟩

theorem mem_activeJobs {taskIds : List String} {failedJobId id : String} :
    id ∈ world.activeJobs taskIds failedJobId ↔
      ∃ job ∈ world.jobs, job.row.id = id ∧ id ≠ failedJobId ∧
        job.row.status.Active ∧ ∃ task ∈ job.row.taskId, task ∈ taskIds := by
  simp only [World.activeJobs, World.rows, List.mem_map, List.mem_filter, decide_eq_true_eq]
  constructor
  · rintro ⟨_, ⟨⟨job, member, rfl⟩, other, active, task⟩, rfl⟩
    exact ⟨job, member, rfl, other, active, task⟩
  · rintro ⟨job, member, rfl, other, active, task⟩
    exact ⟨job.row, ⟨⟨job, member, rfl⟩, other, active, task⟩, rfl⟩

theorem rewrite_of_no_statements (none : step.statements world = []) :
    step.rewrite world job = job := by
  rw [Step.rewrite, none, List.foldl_nil]

/-- A selection that begins allows what it selected. -/
theorem begun_allows (distinct : world.ids.Nodup) (member : job ∈ world.jobs)
    (begun : step.begun world = some call) :
    call.Allows (step.rewrite world job).row.id (step.rewrite world job).row.status := by
  cases step with
  | failDeploy claim read requested report =>
    cases begun
    rw [rewrite_of_no_statements rfl]
    intro selected
    obtain ⟨other, known, same, _, _, queued, _⟩ := mem_queuedDeploys.1 selected
    rwa [World.job_of_id distinct member known same.symm]
  | selectPbi failedJobId taskIds =>
    cases begun
    rw [rewrite_of_no_statements rfl]
    intro selected
    obtain ⟨other, known, same, _, active, _⟩ := mem_activeJobs.1 selected
    rwa [World.job_of_id distinct member known same.symm]
  | readReport jobId tokenId requested =>
    obtain ⟨found, _, rfl⟩ := Option.map_eq_some_iff.1 begun
    trivial
  | poll => cases begun; trivial
  | tryClaim => cases begun; trivial
  | refresh => cases begun; trivial
  | readFailure => cases begun; trivial
  | _ => cases begun

theorem execute_separate (separate : Separate world) : Separate (execute world step) := by
  intro claim report ids inFlight
  by_cases ready : step.Ready world
  swap
  · rw [execute_of_not_ready ready] at inFlight
    exact separate claim report ids inFlight
  rcases (mem_execute_calls ready).1 inFlight with other | begun
  · exact separate claim report ids (mem_calls_of_others other)
  · cases step with
    | failDeploy claim read requested report =>
      cases begun
      intro selected
      obtain ⟨_, _, _, _, _, _, other⟩ := mem_queuedDeploys.1 selected
      exact other rfl
    | readReport jobId tokenId requested =>
      obtain ⟨found, _, impossible⟩ := Option.map_eq_some_iff.1 begun
      cases impossible
    | _ => cases begun

theorem execute_selected
    (selected : Selected world) (kept : step.Ready world → SelectionsKept world step) :
    Selected (execute world step) := by
  by_cases ready : step.Ready world
  swap
  · rwa [execute_of_not_ready ready]
  refine ⟨execute_distinct selected.distinct, ?_, ?_⟩
  · intro call inFlight after member
    rcases (mem_execute_jobs ready).1 member with
      ⟨job, known, rfl⟩ | ⟨row, created, rfl⟩
    · rcases (mem_execute_calls ready).1 inFlight with other | begun
      · have allowed := selected.allowed call (mem_calls_of_others other) job known
        rcases Step.rewrite_cases job (Step.disjoint_of_apart (selected.apart.stepApart ready)) with
          same | ⟨statement, among, selects, applied⟩
        · rwa [same]
        · rw [applied, status_apply selects, Tracked.apply_row, Statement.apply_id]
          cases target : statement.target with
          | none => exact allowed
          | some status =>
            exact kept ready statement among status target job known selects call other allowed
      · exact begun_allows selected.distinct known begun
    · rw [Step.created_queued ready created]
      exact call.allows_queued row.id
  · exact execute_separate selected.apart

/-! ## Claims stay known -/

/-- A job that no step claimed or ended is held under the claim it was. -/
theorem Tracked.HeldUnder.rewrite (before : job.HeldUnder claim)
    (held : (step.rewrite world job).row.status.Held)
    (epoch : (step.rewrite world job).epoch = job.epoch)
    (token : (step.rewrite world job).row.claimedByTokenId = job.row.claimedByTokenId)
    (workerInstance : (step.rewrite world job).row.workerInstanceId = job.row.workerInstanceId) :
    (step.rewrite world job).HeldUnder claim :=
  ⟨Step.rewrite_id.trans before.1, held, token.trans before.2.2.1,
    workerInstance.trans before.2.2.2.1, epoch.trans before.2.2.2.2⟩

/-- No other call loses the job that it will write without a fence. -/
theorem heldUnder_rewrite (guarded : Guarded world) (ready : step.Ready world)
    (undisturbed : Undisturbed world step)
    (other : call ∈ world.others step) (writes : claim ∈ call.unfenced)
    (member : job ∈ world.jobs) (before : job.HeldUnder claim) :
    (step.rewrite world job).HeldUnder claim := by
  rcases rewrite_licensed guarded ready member with
    same | ⟨statement, among, selected, licence, applied⟩
  · rwa [same]
  have claims : ¬ statement.Claims := by
    intro claims
    have queued := claims.queued selected
    have held := before.2.1
    rw [queued] at held
    exact absurd held (by decide)
  have stays : ¬ statement.Ends := fun ends =>
    undisturbed.ends statement among ends job member selected call other claim writes before.1.symm
  have held : (job.apply statement).row.status.Held := by
    rw [status_apply selected]
    cases target : statement.target with
    | none => exact before.2.1
    | some status =>
      by_contra free
      exact stays ⟨status, target, free⟩
  have owner := @Statement.set_owner statement job.row stays claims
  have row := Statement.apply_of_selects selected
  rw [← applied] at held
  refine before.rewrite held ?_ ?_ ?_
  · rw [applied, Tracked.apply_epoch claims]
  · rw [applied, Tracked.apply_row, row, owner.1]
  · rw [applied, Tracked.apply_row, row, owner.2]

/-- A job that the query finds by its identifier is the job. -/
theorem find?_job (distinct : world.ids.Nodup) (member : job ∈ world.jobs) :
    (world.jobs.find? fun other => other.row.id = job.row.id) = some job := by
  cases found : world.jobs.find? fun other => other.row.id = job.row.id with
  | none =>
    have missed := List.find?_eq_none.1 found job member
    exact absurd (decide_eq_true rfl) missed
  | some other =>
    have same := List.find?_some found
    replace same := of_decide_eq_true same
    rw [World.job_of_id distinct (List.mem_of_find?_eq_some found) member same]

/-- What a report knows when it begins. -/
theorem readReport_heldUnder (distinct : world.ids.Nodup) {jobId tokenId : String}
    (ready : (Step.readReport jobId tokenId requested).Ready world)
    (begun : (Step.readReport jobId tokenId requested).begun world = some call) :
    ∃ job ∈ world.jobs, ∃ claim : Claim,
      call = .reporting claim job.row requested ∧ job.HeldUnder claim ∧
        ∀ other ∈ world.jobs, other.row.id = claim.jobId → other = job := by
  obtain ⟨found, looked, _, token, held⟩ := ready.1
  rw [Option.mem_def] at looked
  have known := List.mem_of_find?_eq_some looked
  have named := List.find?_some looked
  replace named := of_decide_eq_true named
  simp only [Step.begun, looked, Option.map_some, Option.some.injEq] at begun
  refine ⟨found, known, _, begun.symm, ⟨named, held, token, rfl, rfl⟩, ?_⟩
  intro other member same
  exact World.job_of_id distinct member known (same.trans named.symm)

theorem execute_unfenced (guarded : Guarded world) (ready : step.Ready world)
    (undisturbed : Undisturbed world step) (inFlight : call ∈ (execute world step).calls)
    (writes : claim ∈ call.unfenced) :
    ∃ job ∈ (execute world step).jobs, job.HeldUnder claim := by
  rcases (mem_execute_calls ready).1 inFlight with other | begun
  · obtain ⟨job, member, before⟩ := guarded.unfenced call (mem_calls_of_others other) claim writes
    exact ⟨_, (mem_execute_jobs ready).2 (.inl ⟨job, member, rfl⟩),
      heldUnder_rewrite guarded ready undisturbed other writes member before⟩
  -- The steps that begin such a call have no statements.
  have unchanged : step.statements world = [] → (∃ job ∈ world.jobs, job.HeldUnder claim) →
      ∃ job ∈ (execute world step).jobs, job.HeldUnder claim := by
    rintro none ⟨job, member, held⟩
    refine ⟨job, (mem_execute_jobs ready).2 (.inl ⟨job, member, ?_⟩), held⟩
    exact rewrite_of_no_statements none
  cases step with
  | readFailure held reason =>
    cases begun
    cases writes
    obtain ⟨job, member, same, _⟩ := ready.1
    exact unchanged rfl ⟨job, member, undisturbed.failures held rfl job member same⟩
  | readReport jobId tokenId requested =>
    obtain ⟨job, member, own, rfl, held, _⟩ := readReport_heldUnder guarded.distinct ready begun
    simp only [Call.unfenced, Option.mem_def, Option.ite_none_left_eq_some,
      Option.some.injEq] at writes
    exact unchanged rfl ⟨job, member, writes.2 ▸ held⟩
  | failDeploy _ read requested report =>
    cases begun
    cases writes
    have free : ¬ Fenced read requested := by
      have deploy := ready.1.2.1.1
      rintro (chat | ⟨docs, _⟩)
      · rw [deploy] at chat
        cases chat
      · rw [deploy] at docs
        cases docs
    exact unchanged rfl (guarded.unfenced _ (ready.2.1 _ rfl) claim (by simp [Call.unfenced, free]))
  | poll => cases begun; cases writes
  | tryClaim => cases begun; cases writes
  | refresh => cases begun; cases writes
  | selectPbi => cases begun; cases writes
  | _ => cases begun

/-- A call fenced by its token finds the job only under its own claim. -/
theorem execute_tokens (guarded : Guarded world) (ready : step.Ready world)
    (undisturbed : Undisturbed world step) (inFlight : call ∈ (execute world step).calls)
    (writes : claim ∈ call.tokenFenced) {after : Tracked}
    (member : after ∈ (execute world step).jobs) (same : after.row.id = claim.jobId)
    (held : after.row.status.Held) (token : after.row.claimedByTokenId = some claim.tokenId) :
    after.HeldUnder claim := by
  rcases (mem_execute_jobs ready).1 member with
    ⟨job, known, rfl⟩ | ⟨row, created, rfl⟩
  swap
  · rw [Step.created_queued ready created] at held
    exact absurd held (by decide)
  rw [Step.rewrite_id] at same
  rcases (mem_execute_calls ready).1 inFlight with other | begun
  · rcases held_rewrite guarded ready known held with
      ⟨owner, claimant, _, owned⟩ | ⟨before, epoch, sameToken, sameInstance⟩
    · refine absurd ?_ (undisturbed.tokens _ claimant call other claim writes same.symm)
      exact Option.some.inj (token.symm.trans owned.1)
    · refine Tracked.HeldUnder.rewrite ?_ held epoch sameToken sameInstance
      exact guarded.tokens call (mem_calls_of_others other) claim writes job
        known same before (sameToken.symm.trans token)
  · cases step with
    | readReport jobId tokenId requested =>
      obtain ⟨found, _, own, rfl, under, unique⟩ :=
        readReport_heldUnder guarded.distinct ready begun
      simp only [Call.tokenFenced, Option.mem_def,
        Option.ite_none_right_eq_some, Option.some.injEq] at writes
      rw [rewrite_of_no_statements rfl, unique job known (same.trans (writes.2 ▸ rfl)), ← writes.2]
      exact under
    | poll => cases begun; cases writes
    | tryClaim => cases begun; cases writes
    | refresh => cases begun; cases writes
    | readFailure => cases begun; cases writes
    | failDeploy => cases begun; cases writes
    | selectPbi => cases begun; cases writes
    | _ => cases begun

/-- A call fenced by token and instance, likewise. -/
theorem execute_owners (guarded : Guarded world) (ready : step.Ready world)
    (undisturbed : Undisturbed world step)
    (inFlight : call ∈ (execute world step).calls) {mine : WorkerClaim}
    (writes : mine ∈ call.ownerFenced) {after : Tracked}
    (member : after ∈ (execute world step).jobs) (same : after.row.id = mine.jobId)
    (held : after.row.status.Held) (owned : after.row.OwnedBy mine.owner) :
    after.HeldUnder mine.claim := by
  rcases (mem_execute_jobs ready).1 member with
    ⟨job, known, rfl⟩ | ⟨row, created, rfl⟩
  swap
  · rw [Step.created_queued ready created] at held
    exact absurd held (by decide)
  rw [Step.rewrite_id] at same
  -- What was held before was held under the claim, if the call was in flight.
  have older (known' : ∃ earlier ∈ world.calls, mine ∈ earlier.ownerFenced)
      (before : job.row.status.Held ∧ (step.rewrite world job).epoch = job.epoch ∧
        (step.rewrite world job).row.claimedByTokenId = job.row.claimedByTokenId ∧
        (step.rewrite world job).row.workerInstanceId = job.row.workerInstanceId) :
      (step.rewrite world job).HeldUnder mine.claim := by
    obtain ⟨earlier, flying, fenced⟩ := known'
    obtain ⟨wasHeld, epoch, sameToken, sameInstance⟩ := before
    refine Tracked.HeldUnder.rewrite ?_ held epoch sameToken sameInstance
    exact guarded.owners earlier flying mine fenced job known same wasHeld
      ⟨sameToken.symm.trans owned.1, sameInstance.symm.trans owned.2⟩
  rcases held_rewrite guarded ready known held with
    ⟨owner, claimant, epoch, claimed⟩ | before
  · have sameOwner : mine.owner = owner := by
      obtain ⟨token, workerInstance⟩ := owned
      obtain ⟨token', workerInstance'⟩ := claimed
      exact congrArg₂ Owner.mk (Option.some.inj (token.symm.trans token'))
        (Option.some.inj (workerInstance.symm.trans workerInstance'))
    rcases (mem_execute_calls ready).1 inFlight with other | begun
    · exact absurd sameOwner (undisturbed.owners _ claimant call other mine writes same.symm)
    · cases step with
      | tryClaim worker snapshot jobId sr planSnapshot cutoff =>
        cases begun
        cases writes
        have named : job.row.id = jobId := same
        have counted : world.epochOf jobId = job.epoch := by
          simp only [World.epochOf]
          rw [← named, find?_job guarded.distinct known]
          rfl
        refine ⟨Step.rewrite_id.trans same, held, owned.1, owned.2, ?_⟩
        rw [epoch, ← counted]
        rfl
      | refresh => cases claimant
      | readReport => cases claimant
      | poll => cases claimant
      | readFailure => cases claimant
      | failDeploy => cases claimant
      | selectPbi => cases claimant
      | _ => cases begun
  · rcases (mem_execute_calls ready).1 inFlight with other | begun
    · exact older ⟨call, mem_calls_of_others other, writes⟩ before
    · cases step with
      | refresh mine' =>
        cases begun
        cases writes
        exact older ⟨_, ready.2.1 _ rfl, rfl⟩ before
      | tryClaim worker snapshot jobId sr planSnapshot cutoff =>
        cases begun
        cases writes
        -- The job that is claimed was queued, so nobody held it.
        obtain ⟨_, found, member', named, accepted⟩ := ready.1
        have queued := (Statement.claimQuery_holds accepted).1
        have equal := World.job_of_id guarded.distinct known member' (same.trans named.symm)
        rw [equal, queued] at before
        exact absurd before.1 (by decide)
      | readReport jobId tokenId requested =>
        obtain ⟨found, _, rfl⟩ := Option.map_eq_some_iff.1 begun
        cases writes
      | poll => cases begun; cases writes
      | readFailure => cases begun; cases writes
      | failDeploy => cases begun; cases writes
      | selectPbi => cases begun; cases writes
      | _ => cases begun

theorem execute_guarded
    (guarded : Guarded world) (undisturbed : step.Ready world → Undisturbed world step) :
    Guarded (execute world step) := by
  by_cases ready : step.Ready world
  · have quiet := undisturbed ready
    exact
      { execute_selected guarded.toSelected fun _ => quiet.selections with
        unfenced := fun _ inFlight _ writes => execute_unfenced guarded ready quiet inFlight writes
        tokens := fun _ inFlight _ writes _ member same held token =>
          execute_tokens guarded ready quiet inFlight writes member same held
            token
        owners := fun _ inFlight _ writes _ member same held owned =>
          execute_owners guarded ready quiet inFlight writes member same held
            owned }
  · rwa [execute_of_not_ready ready]

/-- With no call in flight there is nothing to know. -/
theorem guarded_of_idle (idle : world.calls = []) (distinct : world.ids.Nodup) : Guarded world where
  distinct := distinct
  allowed := by simp [idle]
  apart := by simp [Separate, idle]
  unfenced := by simp [idle]
  tokens := by simp [idle]
  owners := by simp [idle]

end Jobs
end Scrum4Me
