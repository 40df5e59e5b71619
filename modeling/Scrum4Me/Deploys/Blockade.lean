import Scrum4Me.Deploys.Line

/-!
# A failed deploy stops the line

The calls under the lock keep the blockade: while a failure is not resolved, no automatic
deploy is queued. A write past the lock keeps it too, unless it fails a deploy while
automatic ones wait, or gives an automatic deploy back after a failure.
-/

namespace Scrum4Me
namespace Deploys

open Foundation Jobs

/-! ## Writes past the lock -/

/-- The write fails a deploy of the product. -/
def Writer.Fails (writer : Writer) (world : World) : Prop :=
  writer.target = some .failed ∧
    ∃ job ∈ world.jobs, job.Of world.product ∧ job.row.resolvedAt = none ∧
      writer.Selects job.row

instance (writer : Writer) (world : World) : Decidable (writer.Fails world) :=
  inferInstanceAs (Decidable (_ ∧ ∃ _ ∈ _, _))

/-- The write gives an automatic deploy of the product back. -/
def Writer.GivesBack (writer : Writer) (world : World) : Prop :=
  writer.target = some .queued ∧
    ∃ job ∈ world.jobs, job.Of world.product ∧ job.Automatic ∧ writer.Selects job.row

instance (writer : Writer) (world : World) : Decidable (writer.GivesBack world) :=
  inferInstanceAs (Decidable (_ ∧ ∃ _ ∈ _, _))

/-- An enqueue has found that it may create. -/
def Locked.Enqueuing : Locked → Prop
  | .enqueue _ eligible => eligible = true
  | _ => False

instance (call : Locked) : Decidable call.Enqueuing := by
  apply @Locked.casesOn (fun call => Decidable call.Enqueuing) call <;>
    intros <;> dsimp only [Locked.Enqueuing] <;> infer_instance

/-- A failure has read the queue that it cancels. -/
def Locked.Cancelling : Locked → Prop
  | .terminal _ report queued => report.status = .failed ∧ queued ≠ none
  | _ => False

instance (call : Locked) : Decidable call.Cancelling := by
  apply @Locked.casesOn (fun call => Decidable call.Cancelling) call <;>
    intros <;> dsimp only [Locked.Cancelling] <;> infer_instance

/-- Past the lock, a deploy fails only while no automatic one waits or is being
enqueued, and an automatic one is given back only while no failure is unresolved or
cancels the queue. -/
def Step.Unbroken (world : World) : Step → Prop
  | .write writer =>
      ¬ (writer.Fails world ∧ (world.Waiting ∨ ∃ call ∈ world.holder, call.Enqueuing)) ∧
        ¬ (writer.GivesBack world ∧ (world.Blocked ∨ ∃ call ∈ world.holder, call.Cancelling))
  | _ => True

instance (world : World) (step : Step) : Decidable (step.Unbroken world) := by
  apply @Step.casesOn (fun step => Decidable (step.Unbroken world)) step <;>
    intros <;> dsimp only [Step.Unbroken] <;> infer_instance

/-- The step claims an automatic deploy of the product. -/
def Step.ClaimsAutomatic (world : World) : Step → Prop
  | .write writer =>
      writer.Claims ∧ ∃ job ∈ world.jobs, job.Of world.product ∧ job.Automatic ∧
        writer.Selects job.row
  | _ => False

instance (world : World) (step : Step) : Decidable (step.ClaimsAutomatic world) := by
  apply @Step.casesOn (fun step => Decidable (step.ClaimsAutomatic world)) step <;>
    intros <;> dsimp only [Step.ClaimsAutomatic] <;> infer_instance

/-- The automatic deploys ever created for a pull request at a head. -/
def World.created (world : World) (prUrl headSha : String) : Nat :=
  world.jobs.countP fun job =>
    job.orchestrationKey = some (buildDeployOrchestrationKey prUrl headSha)

/-! ## What a write does to a job -/

namespace Writer

variable {writer : Writer} {row : JobRow}

theorem set_status : (writer.set row).status = writer.target.getD row.status := by
  cases writer with
  | issue statement => exact Statement.set_status
  | rollbackUnowned => rfl

theorem set_product :
    (writer.set row).productId = row.productId ∧ (writer.set row).kind = row.kind := by
  cases writer with
  | issue statement => cases statement <;> exact ⟨rfl, rfl⟩
  | rollbackUnowned => exact ⟨rfl, rfl⟩

theorem set_resolvedAt (free : writer.Free) : (writer.set row).resolvedAt = row.resolvedAt := by
  cases writer with
  | issue statement =>
    cases statement with
    | resolveDeploys => exact free.elim
    | _ => rfl
  | rollbackUnowned => rfl

theorem set_id : (writer.set row).id = row.id := by
  cases writer with
  | issue statement => cases statement <;> rfl
  | rollbackUnowned => rfl

/-- A job after the write is selected and set, or as it was. -/
theorem apply_cases (writer : Writer) (row : JobRow) :
    writer.Selects row ∧ writer.apply row = writer.set row ∨ writer.apply row = row := by
  by_cases selected : writer.Selects row
  · exact .inl ⟨selected, if_pos selected⟩
  · exact .inr (if_neg selected)

/-- The status that the write leaves is the one it gives, or the job was not selected or
the write gives none. -/
theorem apply_status (writer : Writer) {status : JobStatus} (found : (writer.apply row).status = status) :
    row.status = status ∨ writer.target = some status ∧ writer.Selects row := by
  rcases apply_cases writer row with ⟨selected, same⟩ | same
  · rw [same, set_status] at found
    cases target : writer.target with
    | none =>
      rw [target] at found
      exact .inl found
    | some given =>
      rw [target] at found
      exact .inr ⟨congrArg some found, selected⟩
  · rw [same] at found
    exact .inl found

end Writer

/-! ## The blockade -/

/-- What holds between two steps. -/
structure World.Stopped (world : World) : Prop where
  line : world.Blocked → ¬ world.Waiting
  enqueue : ∀ call ∈ world.holder, call.Enqueuing → ¬ world.Blocked
  cancel : ∀ jobId report ids,
    world.holder = some (.terminal jobId report (some ids)) → report.status = .failed →
      ∀ job ∈ world.jobs, job.Of world.product → job.Automatic →
        job.row.status = .queued → job.row.id ∈ ids ∨ job.row.id = jobId

variable {world : World}

/-- Without a holder only the jobs matter. -/
theorem World.Stopped.of_free (free : world.holder = none)
    (line : world.Blocked → ¬ world.Waiting) : world.Stopped where
  line := line
  enqueue := fun call held => by
    rw [free] at held
    exact absurd held (by simp)
  cancel := fun jobId report ids held => by
    rw [free] at held
    exact absurd held (by simp)

theorem stopped_unlocked (stopped : world.Stopped) : world.unlocked.Stopped :=
  .of_free rfl stopped.line

theorem stopped_lock (stopped : world.Stopped) (call : Locked) (fresh : call.Fresh) :
    World.Stopped { world with holder := some call } where
  line := stopped.line
  enqueue := by
    rintro _ ⟨⟩ enqueuing
    cases call with
    | enqueue input eligible => exact absurd (enqueuing.symm.trans fresh) (by decide)
    | _ => exact enqueuing.elim
  cancel := by
    rintro jobId report ids held failed
    cases held
    exact absurd fresh.2 (by simp)

theorem stopped_read (stopped : world.Stopped) (call : Locked) : (world.read call).Stopped := by
  cases call with
  | enqueue input eligible =>
    simp only [World.read]
    split
    · rename_i found
      exact
        { line := stopped.line
          enqueue := fun _ _ _ => found.2.2
          cancel := fun _ _ _ held => absurd held (by simp) }
    · exact stopped_unlocked stopped
  | dispatch userId free =>
    simp only [World.read]
    split
    · exact
        { line := stopped.line
          enqueue := by
            rintro _ ⟨⟩ enqueuing
            exact enqueuing.elim
          cancel := fun _ _ _ held => absurd held (by simp) }
    · exact stopped_unlocked stopped
  | terminal jobId report queued =>
    exact
      { line := stopped.line
        enqueue := by
          rintro _ ⟨⟩ enqueuing
          exact enqueuing.elim
        cancel := by
          rintro _ _ ids held failed job member of automatic waits
          cases held
          by_cases own : job.row.id = jobId
          · exact .inr own
          · exact .inl (List.mem_map.mpr ⟨job, List.mem_filter.mpr
              ⟨member, decide_eq_true ⟨of, waits, own⟩⟩, rfl⟩) }

/-! ## Commits -/

theorem insert_blocked {job : DeployJob} (queued : job.row.status = .queued)
    (blocked : (world.insert job).Blocked) : world.Blocked := by
  obtain ⟨other, member, of, unresolved⟩ := blocked
  rcases List.mem_append.mp member with before | new
  · exact ⟨other, before, of, unresolved⟩
  · rw [List.mem_singleton] at new
    rw [new, DeployJob.Unresolved, queued] at unresolved
    exact absurd unresolved.1 (by decide)

theorem insert_waiting {job : DeployJob} (waiting : (world.insert job).Waiting) :
    world.Waiting ∨ job.Automatic := by
  obtain ⟨other, member, of, automatic, queued⟩ := waiting
  rcases List.mem_append.mp member with before | new
  · exact .inl ⟨other, before, of, automatic, queued⟩
  · rw [List.mem_singleton] at new
    exact .inr (new ▸ automatic)

/-- The world after a write of any kind. -/
def World.after (world : World) (writer : Writer) : World :=
  { world with jobs := world.jobs.map fun job => { job with row := writer.apply job.row } }

section

variable {writer : Writer} {job : DeployJob}

theorem of_before (of : DeployJob.Of world.product { job with row := writer.apply job.row }) :
    job.Of world.product := by
  rcases Writer.apply_cases writer job.row with ⟨-, same⟩ | same
  · rw [DeployJob.Of, same, Writer.set_product.1, Writer.set_product.2] at of
    exact of
  · rw [DeployJob.Of, same] at of
    exact of

/-- A failure after the write was one before, or the write fails a deploy. -/
theorem after_blocked (kept : ∀ row, (writer.set row).resolvedAt = row.resolvedAt)
    (blocked : (world.after writer).Blocked) :
    world.Blocked ∨ writer.Fails world := by
  obtain ⟨_, member, of, failed, unresolved⟩ := blocked
  obtain ⟨job, before, rfl⟩ := List.mem_map.mp member
  have open' : job.row.resolvedAt = none := by
    rcases Writer.apply_cases writer job.row with ⟨-, same⟩ | same
    · rw [← kept, ← same]
      exact unresolved
    · rw [← same]
      exact unresolved
  rcases Writer.apply_status writer failed with already | ⟨target, selected⟩
  · exact .inl ⟨job, before, of_before of, already, open'⟩
  · exact .inr ⟨target, job, before, of_before of, open', selected⟩

/-- A job that waits after the write waited before, or the write gives it back. -/
theorem queued_before (before : job ∈ world.jobs)
    (of : DeployJob.Of world.product { job with row := writer.apply job.row })
    (automatic : job.Automatic) (queued : (writer.apply job.row).status = .queued) :
    job.row.status = .queued ∨ writer.GivesBack world := by
  rcases Writer.apply_status writer queued with already | ⟨target, selected⟩
  · exact .inl already
  · exact .inr ⟨target, job, before, of_before of, automatic, selected⟩

theorem after_waiting (writer : Writer) (waiting : (world.after writer).Waiting) :
    world.Waiting ∨ writer.GivesBack world := by
  obtain ⟨_, member, of, automatic, queued⟩ := waiting
  obtain ⟨job, before, rfl⟩ := List.mem_map.mp member
  rcases queued_before before of automatic queued with already | back
  · exact .inl ⟨job, before, of_before of, automatic, already⟩
  · exact .inr back

end

variable {report : Report} {jobId : String} {now : Moment}

/-- A failure takes every automatic deploy out of the queue. -/
theorem failure_empties (stopped : world.Stopped) {ids : List String}
    (held : world.holder = some (.terminal jobId report (some ids)))
    (failed : report.status = .failed) :
    ¬ ((world.write (.deployTerminal jobId report now)).write
      (.cancelDeploys ids jobId now)).Waiting := by
  rintro ⟨_, member, of, automatic, queued⟩
  obtain ⟨_, inner, rfl⟩ := List.mem_map.mp member
  obtain ⟨job, before, rfl⟩ := List.mem_map.mp inner
  have reported : report.status.jobStatus = .failed := congrArg ReportStatus.jobStatus failed
  -- The job that failed is not queued, and all others that are queued were read.
  have other : job.row.id ≠ jobId := by
    intro own
    have marked : (Statement.deployTerminal jobId report now).apply job.row =
        (Statement.deployTerminal jobId report now).set job.row := if_pos own
    rcases Writer.apply_status (.issue (.cancelDeploys ids jobId now)) queued with
      waits | ⟨target, -⟩
    · rw [marked] at waits
      exact absurd (reported.symm.trans waits) (by decide)
    · exact JobStatus.noConfusion (Option.some.inj target)
  have same : (Statement.deployTerminal jobId report now).apply job.row = job.row := if_neg other
  dsimp only at queued of
  rw [same] at queued of
  have missed : job.row.id ∉ ids := by
    intro read
    have cancelled : (Statement.cancelDeploys ids jobId now).apply job.row =
        (Statement.cancelDeploys ids jobId now).set job.row := if_pos read
    rw [cancelled] at queued
    exact JobStatus.noConfusion queued
  have kept : (Statement.cancelDeploys ids jobId now).apply job.row = job.row := if_neg missed
  rw [kept] at queued of
  rcases stopped.cancel jobId report ids held failed job before of automatic queued with
    read | own
  · exact missed read
  · exact other own

/-- A success resolves every failure. -/
theorem success_resolves (finished : report.status = .done) :
    ¬ ((world.write (.deployTerminal jobId report now)).write
      (.resolveDeploys jobId world.product.id now)).Blocked := by
  rintro ⟨_, member, of, failed, unresolved⟩
  obtain ⟨_, inner, rfl⟩ := List.mem_map.mp member
  obtain ⟨job, before, rfl⟩ := List.mem_map.mp inner
  have reported : report.status.jobStatus = .done := congrArg ReportStatus.jobStatus finished
  generalize row : (Statement.deployTerminal jobId report now).apply job.row = reached
    at of failed unresolved
  by_cases selected : (Statement.resolveDeploys jobId world.product.id now).Selects reached
  · have resolved : (Statement.resolveDeploys jobId world.product.id now).apply reached =
        (Statement.resolveDeploys jobId world.product.id now).set reached := if_pos selected
    dsimp only at unresolved
    rw [resolved] at unresolved
    exact absurd unresolved (by simp [Statement.set])
  · have same : (Statement.resolveDeploys jobId world.product.id now).apply reached =
        reached := if_neg selected
    dsimp only at of failed unresolved
    rw [same] at of failed unresolved
    have own : reached.id = jobId := by
      by_contra other
      exact selected ⟨of.1, of.2, failed, unresolved, other⟩
    have marked : (Statement.deployTerminal jobId report now).apply job.row =
        (Statement.deployTerminal jobId report now).set job.row := by
      rw [← row, Statement.apply_id] at own
      exact if_pos own
    rw [← row, marked] at failed
    exact absurd (reported.symm.trans failed) (by decide)

/-- Any other report leaves the line as it is. -/
theorem report_keeps (notFailed : report.status ≠ .failed) (stopped : world.Stopped) :
    (world.write (.deployTerminal jobId report now)).Blocked →
      ¬ (world.write (.deployTerminal jobId report now)).Waiting := by
  intro blocked waiting
  have kept : ∀ row, ((Writer.issue (.deployTerminal jobId report now)).set row).resolvedAt =
      row.resolvedAt := fun _ => rfl
  have before : world.Blocked := by
    rcases after_blocked kept blocked with before | fails
    · exact before
    · have target := Option.some.inj fails.1
      cases status : report.status with
      | failed => exact absurd status notFailed
      | _ =>
        rw [status] at target
        exact absurd target (by decide)
  rcases after_waiting (.issue (.deployTerminal jobId report now)) waiting with
    waits | back
  · exact stopped.line before waits
  · have target := Option.some.inj back.1
    cases status : report.status <;> rw [status] at target <;> exact absurd target (by decide)

theorem stopped_finish (stopped : world.Stopped) (id : String) (now : Moment)
    {call : Locked} (held : world.holder = some call) :
    (world.finish id now call).Stopped := by
  cases call with
  | enqueue input eligible =>
    simp only [World.finish]
    split
    · rename_i creates
      refine .of_free rfl fun blocked => ?_
      exact absurd (insert_blocked rfl blocked) (stopped.enqueue _ held creates.1)
    · exact stopped_unlocked stopped
  | dispatch userId free =>
    simp only [World.finish]
    split
    · refine .of_free rfl fun blocked waiting => ?_
      rcases insert_waiting waiting with before | automatic
      · exact stopped.line (insert_blocked rfl blocked) before
      · exact automatic rfl
    · exact stopped_unlocked stopped
  | terminal jobId report queued =>
    cases status : report.status with
    | failed =>
      cases queued with
      | none =>
        simp only [World.finish, status, Option.elim_none]
        exact stopped
      | some ids =>
        simp only [World.finish, status, Option.elim_some]
        exact .of_free rfl fun _ => failure_empties stopped held status
    | done =>
      simp only [World.finish, status]
      exact .of_free rfl fun blocked => absurd blocked (success_resolves status)
    | _ =>
      simp only [World.finish, status]
      exact .of_free rfl (report_keeps (by rw [status]; decide) stopped)

theorem stopped_write (stopped : world.Stopped) {writer : Writer} (free : writer.Free)
    (unbroken : (Step.write writer).Unbroken world) : (world.after writer).Stopped where
  line := by
    intro blocked waiting
    rcases after_blocked (fun _ => Writer.set_resolvedAt free) blocked with before | fails
    · rcases after_waiting writer waiting with waits | back
      · exact stopped.line before waits
      · exact unbroken.2 ⟨back, .inl before⟩
    · rcases after_waiting writer waiting with waits | back
      · exact unbroken.1 ⟨fails, .inl waits⟩
      · exact absurd (fails.1.symm.trans back.1) (by decide)
  enqueue := by
    intro call held enqueuing blocked
    rcases after_blocked (fun _ => Writer.set_resolvedAt free) blocked with before | fails
    · exact stopped.enqueue call held enqueuing before
    · exact unbroken.1 ⟨fails, .inr ⟨call, held, enqueuing⟩⟩
  cancel := by
    intro jobId report ids held failed _ member of automatic queued
    obtain ⟨job, before, rfl⟩ := List.mem_map.mp member
    have sameId : (writer.apply job.row).id = job.row.id := by
      rcases Writer.apply_cases writer job.row with ⟨-, same⟩ | same
      · rw [same, Writer.set_id]
      · rw [same]
    rcases queued_before before of automatic queued with already | back
    · dsimp only
      rw [sameId]
      exact stopped.cancel jobId report ids held failed job before (of_before of) automatic already
    · exact absurd ⟨back, .inr ⟨_, held, failed, by simp⟩⟩ unbroken.2

/-- Every step keeps the blockade. -/
theorem stopped_execute (step : Step) (enabled : step.Enabled world)
    (unbroken : step.Unbroken world) (stopped : world.Stopped) :
    (execute world step).Stopped := by
  cases step with
  | configure =>
    exact { line := stopped.line, enqueue := stopped.enqueue, cancel := stopped.cancel }
  | lock call => exact stopped_lock stopped call enabled.2
  | read =>
    cases held : world.holder with
    | none =>
      simp only [execute, held, Option.elim_none]
      exact stopped
    | some call =>
      simp only [execute, held, Option.elim_some]
      exact stopped_read stopped call
  | finish id now =>
    cases held : world.holder with
    | none =>
      simp only [execute, held, Option.elim_none]
      exact stopped
    | some call =>
      simp only [execute, held, Option.elim_some]
      exact stopped_finish stopped id now held
  | lose => exact stopped_unlocked stopped
  | write writer => exact stopped_write stopped enabled unbroken

/-! ## One deploy for each pull request and head -/

/-- No key is given twice. -/
def World.Keyed (world : World) : Prop :=
  (world.jobs.filterMap (·.orchestrationKey)).Nodup

theorem keyed_map {change : JobRow → JobRow} {jobs : List DeployJob}
    (keyed : (jobs.filterMap (·.orchestrationKey)).Nodup) :
    ((jobs.map fun job => { job with row := change job.row }).filterMap
      (·.orchestrationKey)).Nodup := by
  rw [List.filterMap_map]
  exact keyed

theorem keyed_insert {job : DeployJob} (keyed : world.Keyed)
    (new : ∀ key ∈ job.orchestrationKey, some key ∉ world.jobs.map (·.orchestrationKey)) :
    (world.insert job).Keyed := by
  unfold World.Keyed World.insert
  rw [List.filterMap_append]
  cases found : job.orchestrationKey with
  | none =>
    simp only [List.filterMap_cons, found, List.filterMap_nil, List.append_nil]
    exact keyed
  | some key =>
    simp only [List.filterMap_cons, found, List.filterMap_nil]
    refine List.nodup_append.mpr ⟨keyed, List.nodup_singleton key, ?_⟩
    rintro other before _ same rfl
    rw [List.mem_singleton] at same
    obtain ⟨holder, member, given⟩ := List.mem_filterMap.mp before
    exact new key found (List.mem_map.mpr ⟨holder, member, given.trans (congrArg some same)⟩)

theorem keyed_finish (keyed : world.Keyed) (id : String) (now : Moment) (call : Locked) :
    (world.finish id now call).Keyed := by
  cases call with
  | enqueue input eligible =>
    simp only [World.finish]
    split
    · rename_i creates
      refine keyed_insert keyed ?_
      rintro _ ⟨⟩ used
      obtain ⟨job, member, same⟩ := List.mem_map.mp used
      exact creates.2 job member same
    · exact keyed
  | dispatch userId free =>
    simp only [World.finish]
    split
    · exact keyed_insert keyed fun key found => absurd found (by simp)
    · exact keyed
  | terminal jobId report queued =>
    cases status : report.status with
    | failed =>
      cases queued with
      | none =>
        simp only [World.finish, status, Option.elim_none]
        exact keyed
      | some ids =>
        simp only [World.finish, status, Option.elim_some]
        exact keyed_map (keyed_map keyed)
    | done =>
      simp only [World.finish, status]
      exact keyed_map (keyed_map keyed)
    | _ =>
      simp only [World.finish, status]
      exact keyed_map keyed

theorem keyed_read (keyed : world.Keyed) (call : Locked) : (world.read call).Keyed := by
  cases call with
  | terminal => exact keyed
  | _ =>
    simp only [World.read]
    split <;> exact keyed

theorem keyed_execute (step : Step) (keyed : world.Keyed) : (execute world step).Keyed := by
  cases step with
  | configure => exact keyed
  | lock => exact keyed
  | read =>
    cases held : world.holder with
    | none =>
      simp only [execute, held, Option.elim_none]
      exact keyed
    | some call =>
      simp only [execute, held, Option.elim_some]
      exact keyed_read keyed call
  | finish id now =>
    cases held : world.holder with
    | none =>
      simp only [execute, held, Option.elim_none]
      exact keyed
    | some call =>
      simp only [execute, held, Option.elim_some]
      exact keyed_finish keyed id now call
  | lose => exact keyed
  | write writer => exact keyed_map keyed

theorem World.Keyed.created_le_one (keyed : world.Keyed) (prUrl headSha : String) :
    world.created prUrl headSha ≤ 1 := by
  have once := List.nodup_iff_count_le_one.mp keyed (buildDeployOrchestrationKey prUrl headSha)
  rw [List.count_filterMap] at once
  simpa [World.created, beq_eq_decide] using once

/-! ## The line -/

/-- A deploy is claimed out of the queue. -/
theorem waiting_of_claims {step : Step} (claims : step.ClaimsAutomatic world) : world.Waiting := by
  cases step with
  | write writer =>
    obtain ⟨claim, job, member, of, automatic, selected⟩ := claims
    cases writer with
    | issue statement => exact ⟨job, member, of, automatic, Statement.Claims.queued claim selected⟩
    | rollbackUnowned => exact claim.elim
  | _ => exact claims.elim

/-- For each pull request and head at most one automatic deploy is created, in every
run. Where writes past the lock neither fail a deploy while an automatic one waits nor
give one back after a failure, no automatic deploy is queued while a failure is
unresolved, and none is claimed. -/
theorem line_stopped (product : ProductRow) (steps : List Step)
    (enabled : EveryStep execute (fun world step => step.Enabled world)
      (World.initial product) steps) :
    (∀ prUrl headSha,
      (run execute (World.initial product) steps).created prUrl headSha ≤ 1) ∧
    (EveryStep execute (fun world step => step.Unbroken world) (World.initial product) steps →
      ((run execute (World.initial product) steps).Blocked →
        ¬ (run execute (World.initial product) steps).Waiting) ∧
      EveryStep execute (fun world step => step.ClaimsAutomatic world → ¬ world.Blocked)
        (World.initial product) steps) := by
  constructor
  · have initially : (World.initial product).Keyed := List.nodup_nil
    exact (@run_invariant_always _ _ execute World.Keyed
      (fun _ step keyed => keyed_execute step keyed) _ initially steps).created_le_one
  · intro unbroken
    have initially : (World.initial product).Stopped :=
      .of_free rfl fun _ waiting => by
        obtain ⟨_, member, _⟩ := waiting
        exact absurd member List.not_mem_nil
    have admitted := everyStep_and.mpr ⟨enabled, unbroken⟩
    have preserved : ∀ world step, World.Stopped world →
        Step.Enabled world step ∧ Step.Unbroken world step → (execute world step).Stopped :=
      fun _ step stopped allowed => stopped_execute step allowed.1 allowed.2 stopped
    constructor
    · exact (run_invariant preserved initially admitted).line
    · refine .of_invariant preserved ?_ initially admitted
      intro world step stopped _ claims blocked
      exact stopped.line blocked (waiting_of_claims claims)

namespace DeployRuns

def product : ProductRow := ⟨"product", true, some "release"⟩

def worker : WorkerRow where
  userId := "owner"
  tokenId := "worker"
  instanceId := "worker"
  productId := none
  runtime := .claude
  capabilities := ["deploy"]
  lastSeenAt := 0
  lastQuotaPct := none
  tier := none

def tables (row : JobRow) : WorkerTables where
  jobs := [row]
  incarnations := []
  profiles := []
  workers := []
  users := []
  now := 0

/-- A pull request at a head is merged, and its deploy is enqueued. -/
def enqueued (id headSha : String) : List Step :=
  [.lock (.enqueue ⟨"parent", "owner", "https://host/team/repo/pulls/1", headSha⟩ false),
    .read, .finish id 0]

/-- The deploy as it was enqueued. -/
def row (id headSha : String) : JobRow :=
  { newDeploy "product" id "owner" .system 0 with
    prUrl := some "https://host/team/repo/pulls/1"
    headSha := some headSha }

def claimed (row : JobRow) : Step :=
  .write (.issue (.tryClaimJob row.id worker (tables row) none "" none 0))

def failed (id : String) : List Step :=
  [.lock (.terminal id { status := .failed } none), .read, .finish "" 1]

/-- The deploy of the first head fails, and that of the second is not enqueued. -/
def stopping : List Step :=
  enqueued "first" "a" ++ [claimed (row "first" "a")] ++ failed "first" ++
    enqueued "second" "b"

/-- Both deploys are claimed when the first fails; then the lease of the second runs
out, and the sweep gives it back. -/
def resumed : List Step :=
  enqueued "first" "a" ++ enqueued "second" "b" ++
    [claimed (row "first" "a"), claimed (row "second" "b")] ++ failed "first" ++
    [.write (.issue (.staleRequeued "owner" 300001))]

/-- The deploy that was given back is claimed again. -/
def again : Step := claimed { row "second" "b" with retryCount := 1 }

end DeployRuns

open DeployRuns in
/-- After the failure the line stands. -/
theorem line_stopped_run :
    (run execute (World.initial product) stopping).Blocked ∧
      ¬ (run execute (World.initial product) stopping).Waiting := by
  have quiet : EveryStep execute (fun world step => step.Unbroken world)
      (World.initial product) stopping := by
    decide +kernel
  have line := ((line_stopped product stopping (by decide +kernel)).2 quiet).1
  have blocked : (run execute (World.initial product) stopping).Blocked := by decide +kernel
  exact ⟨blocked, line blocked⟩

open DeployRuns in
/-- An automatic deploy is queued and claimed while a failure is unresolved. -/
theorem claimed_after_failure :
    EveryStep execute (fun world step => step.Enabled world)
        (World.initial product) (resumed ++ [again]) ∧
      (run execute (World.initial product) resumed).Blocked ∧
      (run execute (World.initial product) resumed).Waiting ∧
      again.ClaimsAutomatic (run execute (World.initial product) resumed) := by
  refine ⟨?_, ?_, ?_, ?_⟩ <;> decide +kernel

end Deploys
end Scrum4Me
