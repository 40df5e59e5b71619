import Scrum4Me.Jobs.Fences

/-!
# The order of a sprint

The claim query passes over a task job as long as its snapshot shows an
unfinished job before it in the same run. The snapshot may be old when the job
is locked, but a finished job stays finished as long as workers only report on
jobs they hold, and the jobs of a run appear together. So the jobs before a
started one are finished, and the tasks of a run start in their order.
-/

namespace Scrum4Me
namespace Jobs

open Foundation

/-! ## Writes under a current claim -/

/-- The claim for which a worker reports, by an update that names the job. -/
def Step.reports : Step → Option Claim
  | .writeFailure held _ => some held.claim
  | .writeReport claim .. => some claim
  | .cancelDeploys claim .. => some claim
  | _ => none

/-- A worker's status writes happen only while its claim is current. -/
def CurrentWrites (world : World) (step : Step) : Prop :=
  ∀ claim ∈ step.reports, ∀ job ∈ world.jobs, job.row.id = claim.jobId →
    job.HeldUnder claim

instance (world : World) (step : Step) : Decidable (CurrentWrites world step) :=
  inferInstanceAs (Decidable (∀ _ ∈ _, _))

/-- The job that the statement selects by its identifier, whatever its state. -/
def Statement.byId : Statement → Option String
  | markJobTerminallyFailed jobId _ _ => some jobId
  | updateJobStatus jobId _ _ _ => some jobId
  | deployTerminal jobId _ _ => some jobId
  | _ => none

variable {world : World} {step : Step} {job : Tracked} {statement : Statement}

/-- A job in which the statement may write: a finished one stays finished, and a
job that is held afterwards is claimed, or was held. -/
structure Statement.Gentle (statement : Statement) (row : JobRow) : Prop where
  finished : row.status.Terminal → ∀ status ∈ statement.target, status.Terminal
  kept : ∀ status ∈ statement.target, status.Held → ¬ statement.Claims →
    row.status.Held

variable {row : JobRow}

theorem Statement.Gentle.of_held (held : row.status.Held) : statement.Gentle row where
  finished := fun terminal => absurd held.active terminal
  kept := fun _ _ _ _ => held

theorem Statement.Gentle.of_terminal (terminal : ∀ status ∈ statement.target, status.Terminal) :
    statement.Gentle row where
  finished := fun _ => terminal
  kept := fun status target held _ => absurd held.active (terminal status target)

/-- The statements with a guard of their own are gentle. -/
theorem Statement.gentle (selected : statement.Selects row) (guarded : statement.byId = none) :
    statement.Gentle row := by
  cases statement with
  | tryClaimJob =>
    have queued := (claimQuery_holds selected.2).1
    exact
      { finished := fun terminal => absurd (.inl queued) terminal
        kept := fun _ _ _ other => absurd trivial other }
  | staleFailed => exact .of_held selected.2.2.1
  | staleRequeued => exact .of_held selected.2.2.1
  | refreshOwnership => exact .of_held selected.2.2.2
  | rollbackClaim => exact .of_held selected.2.2.2
  | releaseMismatchedClaim => exact .of_held (.inl selected.2.1)
  | skipAgentChatJob => exact .of_held (.inl selected.2.1)
  | docsAuditTerminal => exact .of_held selected.2.2.2
  | agentChatTransition jobId tokenId report read now =>
    refine .of_held ?_
    have status := selected.2.2
    split at status
    · exact .inl status
    · exact status
  | resolveDeploys => exact .of_terminal (by rintro status ⟨⟩)
  | markJobTerminallyFailed => cases guarded
  | updateJobStatus => cases guarded
  | deployTerminal => cases guarded
  | _ => exact .of_terminal (by rintro status ⟨⟩; decide)

/-- Only reports select a job by its identifier alone. -/
theorem reports_of_byId {jobId : String} (among : statement ∈ step.statements world)
    (named : statement.byId = some jobId) :
    ∃ claim ∈ step.reports, claim.jobId = jobId := by
  cases step with
  | writeFailure held reason =>
    cases List.mem_singleton.1 among
    exact ⟨_, rfl, Option.some.inj named⟩
  | writeReport claim read requested report followUpId =>
    refine ⟨claim, rfl, ?_⟩
    simp only [Step.statements, reportStatements] at among
    grind [Statement.byId]
  | cancelDeploys claim report ids =>
    refine ⟨claim, rfl, ?_⟩
    simp only [Step.statements] at among
    grind [Statement.byId]
  | _ =>
    first
    | exact absurd among List.not_mem_nil
    | (rw [List.mem_singleton.1 among] at named
       cases named)

theorem gentle (current : CurrentWrites world step) (member : job ∈ world.jobs)
    (among : statement ∈ step.statements world) (selected : statement.Selects job.row) :
    statement.Gentle job.row := by
  cases named : statement.byId with
  | none => exact Statement.gentle selected named
  | some jobId =>
    obtain ⟨claim, reports, rfl⟩ := reports_of_byId among named
    have same : job.row.id = claim.jobId := by
      cases statement with
      | markJobTerminallyFailed => exact selected.trans (Option.some.inj named)
      | updateJobStatus => exact selected.trans (Option.some.inj named)
      | deployTerminal => exact selected.trans (Option.some.inj named)
      | _ => cases named
    exact .of_held (current claim reports job member same).2.1

/-! ## Jobs through a step -/

/-- A finished job stays finished. -/
theorem finished_rewrite (separate : Separate world) (ready : step.Ready world)
    (current : CurrentWrites world step) (member : job ∈ world.jobs)
    (terminal : job.row.status.Terminal) :
    (step.rewrite world job).row.status.Terminal := by
  rcases Step.rewrite_cases job (Step.disjoint_of_apart (separate.stepApart ready)) with
    same | ⟨statement, among, selected, applied⟩
  · rwa [same]
  · rw [applied, status_apply selected]
    cases target : statement.target with
    | none => exact terminal
    | some status => exact (gentle current member among selected).finished terminal status target

/-- A job that is held after a step was held before, or was claimed by it. -/
theorem claimed_or_held (separate : Separate world) (ready : step.Ready world)
    (current : CurrentWrites world step) (member : job ∈ world.jobs)
    (held : (step.rewrite world job).row.status.Held) :
    job.row.status.Held ∨ ∃ statement ∈ step.statements world,
      statement.Claims ∧ statement.Selects job.row := by
  rcases Step.rewrite_cases job (Step.disjoint_of_apart (separate.stepApart ready)) with
    same | ⟨statement, among, selected, applied⟩
  · rw [same] at held
    exact .inl held
  by_cases claims : statement.Claims
  · exact .inr ⟨statement, among, claims, selected⟩
  left
  rw [applied, status_apply selected] at held
  cases target : statement.target with
  | none => rwa [target] at held
  | some status =>
    rw [target] at held
    exact (gentle current member among selected).kept status target held claims

/-! ## The order -/

/-- The job is the task job number `number` of the run. -/
def Numbered (run : String) (number : Int) (row : JobRow) : Prop :=
  row.kind = .taskImplementation ∧ row.sprintRunId = some run ∧
    row.sprintSequence = some number

instance (run : String) (number : Int) (row : JobRow) :
    Decidable (Numbered run number row) :=
  inferInstanceAs (Decidable (_ ∧ _))

/-- What a snapshot tells of the jobs as they are now. -/
structure Faithful (snapshot : List JobRow) (world : World) : Prop where
  known : ∀ old ∈ snapshot, old.id ∈ world.ids
  same : ∀ old ∈ snapshot, ∀ job ∈ world.jobs, job.row.id = old.id →
    job.row.kind = old.kind ∧ job.row.sprintRunId = old.sprintRunId ∧
      job.row.sprintSequence = old.sprintSequence
  finished : ∀ old ∈ snapshot, ∀ job ∈ world.jobs, job.row.id = old.id →
    old.status.Terminal → job.row.status.Terminal
  siblings : ∀ old ∈ snapshot, ∀ run ∈ old.sprintRunId, ∀ job ∈ world.jobs,
    job.row.sprintRunId = some run → ∃ sibling ∈ snapshot,
      sibling.id = job.row.id

/-- The barrier: whatever comes before a held task job is finished. -/
structure Ordered (world : World) : Prop where
  distinct : world.ids.Nodup
  separate : Separate world
  sequenced : ∀ job ∈ world.jobs, job.row.kind = .taskImplementation →
    ∀ run ∈ job.row.sprintRunId, ∃ number, Numbered run number job.row
  numbered : ∀ first ∈ world.jobs, ∀ second ∈ world.jobs, ∀ run number,
    Numbered run number first.row → Numbered run number second.row →
      first = second
  gapless : ∀ job ∈ world.jobs, ∀ run number, Numbered run number job.row →
    0 ≤ number ∧ ∀ before, 0 ≤ before → before < number →
      ∃ earlier ∈ world.jobs, Numbered run before earlier.row
  barrier : ∀ held ∈ world.jobs, ∀ earlier ∈ world.jobs, ∀ run number before,
    Numbered run number held.row → Numbered run before earlier.row →
      before < number → held.row.status.Held → earlier.row.status.Terminal
  snapshots : ∀ worker tables, Call.polling worker tables ∈ world.calls →
    Faithful tables.jobs world

theorem numbered_rewrite {run : String} {number : Int} :
    Numbered run number (step.rewrite world job).row ↔ Numbered run number job.row := by
  obtain ⟨kind, sameRun, sequence⟩ := @Step.rewrite_static world step job
  unfold Numbered
  rw [kind, sameRun, sequence]

/-! ## Jobs that a step adds -/

variable {snapshot : List JobRow} {earlier : Tracked}

/-- The job in the table that a row of the snapshot is of. -/
theorem Faithful.current (faithful : Faithful snapshot world) {old : JobRow}
    (member : old ∈ snapshot) :
    ∃ job ∈ world.jobs, job.row.id = old.id :=
  List.mem_map.1 (faithful.known old member)

/-- A step adds jobs to new runs only. -/
theorem created_run (ready : step.Ready world) (created : row ∈ step.created world)
    {run : String} (ofRun : row.sprintRunId = some run) (member : job ∈ world.jobs) :
    job.row.sprintRunId ≠ some run := by
  cases step with
  | enqueue queued =>
    have none := ready.1.2.2
    rw [List.mem_singleton.1 created, none] at ofRun
    cases ofRun
  | startSprintRun opts plan =>
    have same : row.sprintRunId = some opts.runId := by
      simp only [Step.created] at created
      split at created
      · next sprint jobs started =>
        obtain ⟨_, _, product, rfl⟩ := startSprintRunCore_ok started
        unfold SprintStart.jobs at created
        split at created
        · rw [List.mem_singleton.1 created]
          rfl
        · obtain ⟨number, bound, rfl⟩ := List.mem_mapIdx.1 created
          rfl
      · exact absurd created List.not_mem_nil
    obtain rfl : opts.runId = run := Option.some.inj (same.symm.trans ofRun)
    exact ready.1.2 job member
  | writeReport claim read requested report followUpId =>
    simp only [Step.created, Option.mem_toList, Option.map_eq_some_iff]
      at created
    obtain ⟨id, _, rfl⟩ := created
    cases ofRun
  | _ => exact absurd created List.not_mem_nil

/-- The task jobs that a step adds to a run are numbered. -/
theorem created_numbered (ready : step.Ready world) (created : row ∈ step.created world)
    (task : row.kind = .taskImplementation) {run : String} (ofRun : row.sprintRunId = some run) :
    ∃ (opts : SprintStart) (plan : SprintPlanning) (product : ProductRow)
        (place : Nat) (planned : PlannedTask), step = .startSprintRun opts plan ∧
        step.created world = opts.jobs product plan.stories ∧
        (orderedTasks plan.stories)[place]? = some planned ∧ row = opts.taskJob place planned := by
  cases step with
  | enqueue queued =>
    have none := ready.1.2.2
    rw [List.mem_singleton.1 created, none] at ofRun
    cases ofRun
  | startSprintRun opts plan =>
    simp only [Step.created] at created ⊢
    split at created
    · next sprint jobs started =>
      obtain ⟨_, _, product, rfl⟩ := startSprintRunCore_ok started
      obtain ⟨place, planned, found, rfl⟩ := SprintStart.jobs_task created task
      exact ⟨opts, plan, product, place, planned, rfl, rfl, found, rfl⟩
    · exact absurd created List.not_mem_nil
  | writeReport claim read requested report followUpId =>
    simp only [Step.created, Option.mem_toList, Option.map_eq_some_iff]
      at created
    obtain ⟨id, _, rfl⟩ := created
    cases ofRun
  | _ => exact absurd created List.not_mem_nil

/-- Two task jobs that a step adds have two numbers. -/
theorem created_distinct {first second : JobRow} (ready : step.Ready world)
    (firstCreated : first ∈ step.created world)
    (secondCreated : second ∈ step.created world) {run : String} {number : Int}
    (firstNumbered : Numbered run number first) (secondNumbered : Numbered run number second) :
    first = second := by
  obtain ⟨opts, plan, product, place, planned, rfl, _, found, rfl⟩ :=
    created_numbered ready firstCreated firstNumbered.1 firstNumbered.2.1
  obtain ⟨others, otherPlan, _, otherPlace, other, same, _, otherFound, rfl⟩ :=
    created_numbered ready secondCreated secondNumbered.1 secondNumbered.2.1
  cases same
  have samePlace : (place : Int) = otherPlace :=
    Option.some.inj (firstNumbered.2.2.trans secondNumbered.2.2.symm)
  obtain rfl : place = otherPlace := by exact_mod_cast samePlace
  rw [Option.some.inj (found.symm.trans otherFound)]

/-- The task jobs that a step adds to a run are numbered from zero. -/
theorem created_gapless (ready : step.Ready world) (created : row ∈ step.created world)
    {run : String} {number before : Int} (numbered : Numbered run number row) :
    0 ≤ number ∧ (0 ≤ before → before < number →
      ∃ earlier ∈ step.created world, Numbered run before earlier) := by
  obtain ⟨opts, plan, product, place, planned, rfl, jobs, found, rfl⟩ :=
    created_numbered ready created numbered.1 numbered.2.1
  obtain rfl : (place : Int) = number := Option.some.inj numbered.2.2
  refine ⟨Int.natCast_nonneg place, fun natural smaller => ?_⟩
  obtain ⟨index, rfl⟩ := Int.eq_ofNat_of_zero_le natural
  have bound : index < (orderedTasks plan.stories).length := by
    have last := (List.getElem?_eq_some_iff.1 found).1
    omega
  -- A sprint that runs as one job has no task job to begin with.
  have single : ¬ product.prStrategy = .sprintBatch := by
    intro batch
    rw [jobs, SprintStart.jobs, if_pos batch, List.mem_singleton] at created
    exact absurd (congrArg JobRow.kind created) nofun
  refine ⟨opts.taskJob index (orderedTasks plan.stories)[index], ?_, rfl, numbered.2.1, rfl⟩
  rw [jobs, SprintStart.jobs, if_neg single, List.mem_mapIdx]
  exact ⟨index, bound, rfl⟩

/-! ## Every step keeps the order -/

/-- The jobs before one that the query of a worker accepts are finished. -/
theorem accepted_earlier {snapshot : WorkerTables} (faithful : Faithful snapshot.jobs world)
    {worker : WorkerRow} {jobId : String} {sr : Option SprintRunRow}
    (known : ∃ old ∈ snapshot.jobs, old.id = jobId) (member : job ∈ world.jobs)
    (named : job.row.id = jobId)
    (accepted : worker.claimQuery snapshot ⟨job.row, sr, none⟩ = .holds) {run : String}
    {number before : Int} (numbered : Numbered run number job.row)
    (present : earlier ∈ world.jobs) (earlierNumbered : Numbered run before earlier.row)
    (smaller : before < number) :
    earlier.row.status.Terminal := by
  obtain ⟨old, inSnapshot, rfl⟩ := known
  obtain ⟨_, sameRun, _⟩ := faithful.same old inSnapshot job member named
  obtain ⟨sibling, among, siblingId⟩ := faithful.siblings old inSnapshot run
    (sameRun.symm.trans numbered.2.1) earlier present earlierNumbered.2.1
  obtain ⟨kind, ofRun, sequence⟩ := faithful.same sibling among earlier present siblingId.symm
  have sprint := (Statement.claimQuery_holds accepted).2.2
  simp only [Condition.sprint, Truth.any_cons, Truth.any_nil, Truth.or_holds,
    Truth.of_holds, Truth.isNull_holds, Truth.not_holds, numbered.1, ne_eq,
    not_true_eq_false, numbered.2.1, reduceCtorEq, false_or, or_false,
    Truth.someRow_fails] at sprint
  have passed := sprint sibling among
  refine faithful.finished sibling among earlier present siblingId.symm ?_
  intro active
  exact passed (Condition.earlierSibling_holds.2
    ⟨⟨run, numbered.2.1, ofRun.symm.trans earlierNumbered.2.1⟩, kind.symm.trans earlierNumbered.1,
      ⟨before, sequence.symm.trans earlierNumbered.2.2, number, numbered.2.2, smaller⟩, active⟩)

/-- The jobs before one that a step claims are finished. -/
theorem claimed_earlier (ordered : Ordered world) (ready : step.Ready world)
    (among : statement ∈ step.statements world) (claims : statement.Claims)
    (selected : statement.Selects job.row) (member : job ∈ world.jobs) {run : String}
    {number before : Int} (numbered : Numbered run number job.row)
    (present : earlier ∈ world.jobs) (earlierNumbered : Numbered run before earlier.row)
    (smaller : before < number) :
    earlier.row.status.Terminal := by
  cases step with
  | tryClaim worker snapshot jobId sr planSnapshot cutoff =>
    obtain ⟨⟨⟨old, inSnapshot, named, _⟩, _⟩, flight, _⟩ := ready
    have faithful := ordered.snapshots worker snapshot (flight _ rfl)
    cases List.mem_singleton.1 among
    exact accepted_earlier faithful ⟨old, inSnapshot, named⟩ member
      selected.1 selected.2 numbered present earlierNumbered smaller
  | writeReport claim read requested report followUpId =>
    simp only [Step.statements, reportStatements] at among
    grind [Statement.Claims]
  | cancelDeploys claim report ids =>
    simp only [Step.statements] at among
    grind [Statement.Claims]
  | _ =>
    first
    | exact absurd among List.not_mem_nil
    | (rw [List.mem_singleton.1 among] at claims
       exact claims.elim)

/-- A snapshot stays faithful: finished jobs stay so and runs do not grow. -/
theorem Faithful.execute (faithful : Faithful snapshot world)
    (separate : Separate world) (ready : step.Ready world) (current : CurrentWrites world step) :
    Faithful snapshot (execute world step) where
  known := by
    intro old member
    obtain ⟨job, present, same⟩ := faithful.current member
    refine List.mem_map.2 ⟨step.rewrite world job, ?_, ?_⟩
    · exact (mem_execute_jobs ready).2 (.inl ⟨job, present, rfl⟩)
    · exact Step.rewrite_id.trans same
  same := by
    intro old member after present same
    rcases (mem_execute_jobs ready).1 present with
      ⟨job, known, rfl⟩ | ⟨row, created, rfl⟩
    · obtain ⟨kind, run, sequence⟩ := @Step.rewrite_static world step job
      rw [kind, run, sequence]
      exact faithful.same old member job known (Step.rewrite_id.symm.trans same)
    · exact absurd (same ▸ faithful.known old member) (ready.2.2.2 row created)
  finished := by
    intro old member after present same terminal
    rcases (mem_execute_jobs ready).1 present with
      ⟨job, known, rfl⟩ | ⟨row, created, rfl⟩
    · have before := faithful.finished old member job known
        (Step.rewrite_id.symm.trans same) terminal
      exact finished_rewrite separate ready current known before
    · exact absurd (same ▸ faithful.known old member) (ready.2.2.2 row created)
  siblings := by
    intro old member run ofRun after present sameRun
    rcases (mem_execute_jobs ready).1 present with
      ⟨job, known, rfl⟩ | ⟨row, created, rfl⟩
    · rw [Step.rewrite_id]
      exact faithful.siblings old member run ofRun job known
        (Step.rewrite_static.2.1.symm.trans sameRun)
    · obtain ⟨job, known, same⟩ := faithful.current member
      have unchanged := (faithful.same old member job known same).2.1
      exact absurd (unchanged.trans ofRun) (created_run ready created sameRun known)

/-- The table itself is a faithful snapshot. -/
theorem faithful_rows (distinct : world.ids.Nodup) : Faithful world.rows world where
  known := by
    intro old member
    obtain ⟨job, present, rfl⟩ := List.mem_map.1 member
    exact List.mem_map_of_mem present
  same := by
    intro old member job present same
    obtain ⟨other, known, rfl⟩ := List.mem_map.1 member
    rw [World.job_of_id distinct present known same]
    exact ⟨rfl, rfl, rfl⟩
  finished := by
    intro old member job present same terminal
    obtain ⟨other, known, rfl⟩ := List.mem_map.1 member
    rwa [World.job_of_id distinct present known same]
  siblings := fun _ _ _ _ job present _ => ⟨job.row, List.mem_map_of_mem present, rfl⟩

/-- A step that begins a poll has read the table as it is. -/
theorem begun_polling {worker : WorkerRow} {tables : WorkerTables}
    (begun : Call.polling worker tables ∈ step.begun world) :
    tables.jobs = world.rows ∧ step.statements world = [] ∧ step.created world = [] := by
  cases step with
  | poll => cases begun; exact ⟨rfl, rfl, rfl⟩
  | readReport jobId tokenId requested =>
    obtain ⟨found, _, impossible⟩ := Option.map_eq_some_iff.1 begun
    cases impossible
  | _ => cases begun

theorem execute_ordered (ordered : Ordered world) (current : CurrentWrites world step) :
    Ordered (execute world step) := by
  by_cases ready : step.Ready world
  swap
  · rwa [execute_of_not_ready ready]
  refine
    { distinct := execute_distinct ordered.distinct
      separate := execute_separate ordered.separate
      sequenced := ?_
      numbered := ?_
      gapless := ?_
      barrier := ?_
      snapshots := ?_ }
  · intro after present task run ofRun
    rcases (mem_execute_jobs ready).1 present with
      ⟨job, known, rfl⟩ | ⟨row, created, rfl⟩
    · obtain ⟨kind, sameRun, _⟩ := @Step.rewrite_static world step job
      obtain ⟨number, numbered⟩ := ordered.sequenced job known
        (kind.symm.trans task) run (sameRun.symm.trans ofRun)
      exact ⟨number, numbered_rewrite.2 numbered⟩
    · obtain ⟨opts, plan, product, place, planned, _, _, _, rfl⟩ :=
        created_numbered ready created task ofRun
      exact ⟨place, rfl, ofRun, rfl⟩
  · intro first firstPresent second secondPresent run number firstNumbered secondNumbered
    rcases (mem_execute_jobs ready).1 firstPresent with
      ⟨job, known, rfl⟩ | ⟨row, created, rfl⟩
    · rcases (mem_execute_jobs ready).1 secondPresent with
        ⟨other, otherKnown, rfl⟩ | ⟨row, created, rfl⟩
      · rw [ordered.numbered job known other otherKnown run number
          (numbered_rewrite.1 firstNumbered) (numbered_rewrite.1 secondNumbered)]
      · exact absurd (numbered_rewrite.1 firstNumbered).2.1
          (created_run ready created secondNumbered.2.1 known)
    · rcases (mem_execute_jobs ready).1 secondPresent with
        ⟨other, otherKnown, rfl⟩ | ⟨other, otherCreated, rfl⟩
      · exact absurd (numbered_rewrite.1 secondNumbered).2.1
          (created_run ready created firstNumbered.2.1 otherKnown)
      · rw [created_distinct ready created otherCreated firstNumbered secondNumbered]
  · intro after present run number numbered
    rcases (mem_execute_jobs ready).1 present with
      ⟨job, known, rfl⟩ | ⟨row, created, rfl⟩
    · obtain ⟨natural, below⟩ := ordered.gapless job known run number (numbered_rewrite.1 numbered)
      refine ⟨natural, fun before positive smaller => ?_⟩
      obtain ⟨earlier, there, earlierNumbered⟩ := below before positive smaller
      exact ⟨step.rewrite world earlier, (mem_execute_jobs ready).2 (.inl ⟨earlier, there, rfl⟩),
        numbered_rewrite.2 earlierNumbered⟩
    · refine ⟨(@created_gapless world step row ready created run number number numbered).1,
        fun before positive smaller => ?_⟩
      obtain ⟨earlier, there, earlierNumbered⟩ :=
        (created_gapless ready created numbered).2 positive smaller
      exact ⟨⟨earlier, 0⟩, (mem_execute_jobs ready).2 (.inr ⟨earlier, there, rfl⟩), earlierNumbered⟩
  · intro holder holderPresent earlier earlierPresent run number before
      holderNumbered earlierNumbered smaller held
    rcases (mem_execute_jobs ready).1 holderPresent with
      ⟨job, known, rfl⟩ | ⟨row, created, rfl⟩
    swap
    · rw [Step.created_queued ready created] at held
      exact absurd held (by decide)
    rcases (mem_execute_jobs ready).1 earlierPresent with
      ⟨other, otherKnown, rfl⟩ | ⟨row, created, rfl⟩
    swap
    · exact absurd (numbered_rewrite.1 holderNumbered).2.1
        (created_run ready created earlierNumbered.2.1 known)
    rw [numbered_rewrite] at holderNumbered earlierNumbered
    refine finished_rewrite ordered.separate ready current otherKnown ?_
    rcases claimed_or_held ordered.separate ready current known held with
      before | ⟨statement, among, claims, selected⟩
    · exact ordered.barrier job known other otherKnown run number _
        holderNumbered earlierNumbered smaller before
    · exact claimed_earlier ordered ready among claims selected known
        holderNumbered otherKnown earlierNumbered smaller
  · intro worker tables inFlight
    rcases (mem_execute_calls ready).1 inFlight with other | begun
    · exact (ordered.snapshots worker tables (mem_calls_of_others other)).execute
        ordered.separate ready current
    · obtain ⟨jobs, noStatements, noJobs⟩ := begun_polling begun
      have same : (execute world step).jobs = world.jobs := by
        rw [execute_of_ready ready]
        have still : step.rewrite world = id :=
          funext fun _ => rewrite_of_no_statements noStatements
        simp [noJobs, still]
      have rows : tables.jobs = (execute world step).rows := by
        rw [jobs, World.rows, World.rows, same]
      rw [rows]
      exact faithful_rows (execute_distinct ordered.distinct)

/-- Before the first run of a sprint there is no order to keep. -/
theorem ordered_of_idle (idle : world.calls = []) (distinct : world.ids.Nodup)
    (none : ∀ job ∈ world.jobs, job.row.sprintRunId = none) :
    Ordered world where
  distinct := distinct
  separate := by simp [Separate, idle]
  sequenced := by
    intro job member _ run ofRun
    cases (none job member).symm.trans ofRun
  numbered := by
    intro first member _ _ run number numbered
    cases (none first member).symm.trans numbered.2.1
  gapless := by
    intro job member run number numbered
    cases (none job member).symm.trans numbered.2.1
  barrier := by
    intro job member _ _ run number _ numbered
    cases (none job member).symm.trans numbered.2.1
  snapshots := by simp [idle]

/-! ## Starts -/

/-- The task jobs of runs that the step starts: run and number of each. -/
def Step.starts (world : World) (step : Step) : List (String × Int) :=
  if step.Ready world then
    world.jobs.filterMap fun job =>
      if job.row.kind = .taskImplementation ∧ ¬ job.row.status.Held ∧
          (step.rewrite world job).row.status.Held then
        job.row.sprintRunId.bind fun run =>
          job.row.sprintSequence.map fun number => (run, number)
      else none
  else []

/-- The starts of a run of the machine, in their order. -/
def starts : World → List Step → List (String × Int)
  | _, [] => []
  | world, step :: rest => step.starts world ++ starts (execute world step) rest

theorem mem_starts {run : String} {number : Int} :
    (run, number) ∈ step.starts world ↔
      step.Ready world ∧ ∃ job ∈ world.jobs, Numbered run number job.row ∧ ¬ job.row.status.Held ∧
        (step.rewrite world job).row.status.Held := by
  unfold Step.starts
  by_cases ready : step.Ready world
  swap
  · simp [ready]
  rw [if_pos ready, List.mem_filterMap, and_iff_right ready]
  refine exists_congr fun job => and_congr_right fun _ => ?_
  split
  · next starting =>
    simp [starting, Numbered, Option.bind_eq_some_iff]
  · next idle =>
    simp only [reduceCtorEq, false_iff]
    exact fun starting => idle ⟨starting.1.1, starting.2⟩

/-- The run is under way, and what it numbered lower is finished. -/
structure Passed (world : World) (run : String) (number : Int) : Prop where
  known : ∃ job ∈ world.jobs, job.row.sprintRunId = some run
  finished : ∀ job ∈ world.jobs, ∀ before, Numbered run before job.row →
    before < number → job.row.status.Terminal

section Passing

variable {run : String} {number : Int}

theorem Passed.after (passed : Passed world run number) (separate : Separate world)
    (current : CurrentWrites world step) :
    Passed (execute world step) run number := by
  by_cases ready : step.Ready world
  swap
  · rwa [execute_of_not_ready ready]
  obtain ⟨witness, present, ofRun⟩ := passed.known
  constructor
  · refine ⟨step.rewrite world witness, ?_, ?_⟩
    · exact (mem_execute_jobs ready).2 (.inl ⟨witness, present, rfl⟩)
    · exact Step.rewrite_static.2.1.trans ofRun
  · intro after member before numbered smaller
    rcases (mem_execute_jobs ready).1 member with
      ⟨job, known, rfl⟩ | ⟨row, created, rfl⟩
    · have terminal := passed.finished job known before (numbered_rewrite.1 numbered) smaller
      exact finished_rewrite separate ready current known terminal
    · exact absurd ofRun (created_run ready created numbered.2.1 present)

/-- A finished job is not started again. -/
theorem Passed.le_of_starts (passed : Passed world run number) (separate : Separate world)
    (current : CurrentWrites world step) {later : Int}
    (started : (run, later) ∈ step.starts world) :
    number ≤ later := by
  obtain ⟨ready, job, member, numbered, idle, held⟩ := mem_starts.1 started
  by_contra! smaller
  have terminal := passed.finished job member later numbered smaller
  rcases claimed_or_held separate ready current member held with
    before | ⟨statement, _, claims, selected⟩
  · exact idle before
  · exact terminal (.inl (claims.queued selected))

/-- A start finds everything before it finished. -/
theorem passed_of_starts (ordered : Ordered world) (current : CurrentWrites world step)
    (started : (run, number) ∈ step.starts world) :
    Passed (execute world step) run number := by
  obtain ⟨ready, job, member, numbered, _, held⟩ := mem_starts.1 started
  have after := (mem_execute_jobs ready).2 (.inl ⟨job, member, rfl⟩)
  constructor
  · exact ⟨_, after, (numbered_rewrite.2 numbered).2.1⟩
  · intro earlier present before earlierNumbered smaller
    exact (execute_ordered ordered current).barrier _ after earlier present run
      number before (numbered_rewrite.2 numbered) earlierNumbered smaller held

/-- One step starts one number of a run at most. -/
theorem le_of_starts (ordered : Ordered world) (current : CurrentWrites world step) {other : Int}
    (started : (run, number) ∈ step.starts world) (also : (run, other) ∈ step.starts world) :
    number ≤ other := by
  obtain ⟨ready, job, member, numbered, _, held⟩ := mem_starts.1 also
  by_contra! smaller
  have terminal := (passed_of_starts ordered current started).finished _
    ((mem_execute_jobs ready).2 (.inl ⟨job, member, rfl⟩)) other
    (numbered_rewrite.2 numbered) smaller
  exact terminal held.active

theorem Passed.le_of_mem_starts
    {steps : List Step} (passed : Passed world run number) (ordered : Ordered world)
    (current : EveryStep execute CurrentWrites world steps) {later : Int}
    (started : (run, later) ∈ starts world steps) :
    number ≤ later := by
  induction steps generalizing world with
  | nil => exact absurd started List.not_mem_nil
  | cons step rest ih =>
    rcases List.mem_append.1 started with now | after
    · exact passed.le_of_starts ordered.separate current.1 now
    · exact ih (passed.after ordered.separate current.1)
        (execute_ordered ordered current.1) current.2 after

/-- The tasks of a run start in the order of their numbers. -/
theorem starts_pairwise {steps : List Step} (ordered : Ordered world)
    (current : EveryStep execute CurrentWrites world steps) :
    (starts world steps).Pairwise fun first second =>
      first.1 = second.1 → first.2 ≤ second.2 := by
  induction steps generalizing world with
  | nil => exact List.Pairwise.nil
  | cons step rest ih =>
    have next := execute_ordered ordered current.1
    refine List.pairwise_append.2 ⟨?_, ih next current.2, ?_⟩
    · refine List.pairwise_of_forall_mem_list ?_
      rintro ⟨run, number⟩ started ⟨other, _⟩ also rfl
      exact le_of_starts ordered current.1 started also
    · rintro ⟨run, number⟩ started ⟨other, _⟩ also rfl
      exact (passed_of_starts ordered current.1 started).le_of_mem_starts next current.2 also

end Passing

/-! ## The barrier -/

/-- What the order of a sprint asks of a state. -/
structure InOrder (world : World) : Prop where
  /-- Everything numbered lower than a held task job is finished. -/
  barrier : ∀ holder ∈ world.jobs, ∀ earlier ∈ world.jobs, ∀ run number before,
    Numbered run number holder.row → Numbered run before earlier.row →
      before < number → holder.row.status.Held → earlier.row.status.Terminal
  /-- One task job of a run is held at most. -/
  single : ∀ first ∈ world.jobs, ∀ second ∈ world.jobs, ∀ run,
    first.row.kind = .taskImplementation →
    second.row.kind = .taskImplementation →
    first.row.sprintRunId = some run → second.row.sprintRunId = some run →
    first.row.status.Held → second.row.status.Held → first = second
  /-- The task jobs of a run have distinct numbers from zero without a gap. -/
  numbers : ∀ job ∈ world.jobs, ∀ run, job.row.kind = .taskImplementation →
    job.row.sprintRunId = some run → ∃ number, Numbered run number job.row ∧
      (∀ other ∈ world.jobs, Numbered run number other.row → other = job) ∧
      0 ≤ number ∧ ∀ before, 0 ≤ before → before < number →
        ∃ earlier ∈ world.jobs, Numbered run before earlier.row

theorem Ordered.inOrder (ordered : Ordered world) : InOrder world where
  barrier := ordered.barrier
  single := by
    intro first firstMember second secondMember run firstTask secondTask
      firstRun secondRun firstHeld secondHeld
    obtain ⟨number, numbered⟩ := ordered.sequenced first firstMember firstTask run firstRun
    obtain ⟨other, otherNumbered⟩ := ordered.sequenced second secondMember secondTask run secondRun
    rcases lt_trichotomy number other with smaller | rfl | greater
    · exact absurd firstHeld.active (ordered.barrier second secondMember first
        firstMember run other number otherNumbered numbered smaller secondHeld)
    · exact ordered.numbered first firstMember second secondMember run number numbered otherNumbered
    · exact absurd secondHeld.active (ordered.barrier first firstMember second
        secondMember run number other numbered otherNumbered greater firstHeld)
  numbers := by
    intro job member run task ofRun
    obtain ⟨number, numbered⟩ := ordered.sequenced job member task run ofRun
    exact ⟨number, numbered,
      fun other known same => ordered.numbered other known job member run number same numbered,
      ordered.gapless job member run number numbered⟩

/-- `dispatchSprintRun` numbers the open tasks in the order of the plan. -/
theorem startSprintRunCore_numbers
    {opts : SprintStart} {plan : SprintPlanning} {sprintRun : SprintRunRow} {jobs : List JobRow}
    (started : startSprintRunCore opts plan = .ok (sprintRun, jobs)) :
    (∀ job ∈ jobs, job.kind ≠ .taskImplementation) ∨
      jobs.map (·.taskId) = (orderedTasks plan.stories).map (fun planned => some planned.2.id) ∧
        jobs.map (·.sprintSequence) =
          (List.range jobs.length).map fun place : Nat => some (place : Int) := by
  obtain ⟨_, _, product, rfl⟩ := startSprintRunCore_ok started
  unfold SprintStart.jobs
  split
  · left
    intro job member
    rw [List.mem_singleton.1 member]
    exact nofun
  · right
    constructor
    · refine List.ext_getElem (by simp) fun place _ _ => ?_
      simp [SprintStart.taskJob]
    · refine List.ext_getElem (by simp) fun place _ _ => ?_
      simp [SprintStart.taskJob]

/-- The tasks of a sprint run are worked on one at a time, in the order in which
the run numbered them. -/
theorem sprint_order :
    (∀ (start : World) (steps : List Step),
      start.calls = [] → start.ids.Nodup →
      (∀ job ∈ start.jobs, job.row.sprintRunId = none) →
      EveryStep execute CurrentWrites start steps →
        InOrder (run execute start steps) ∧ (starts start steps).Pairwise fun first second =>
            first.1 = second.1 → first.2 ≤ second.2) ∧
      ∀ (opts : SprintStart) (plan : SprintPlanning) (sprintRun : SprintRunRow)
        (jobs : List JobRow),
        (plan.stories.map (·.id)).Nodup →
        startSprintRunCore opts plan = .ok (sprintRun, jobs) →
          ((∀ job ∈ jobs, job.kind ≠ .taskImplementation) ∨
            jobs.map (·.taskId) = (orderedTasks plan.stories).map
                (fun planned => some planned.2.id) ∧
              jobs.map (·.sprintSequence) =
                (List.range jobs.length).map fun place : Nat => some (place : Int)) ∧
          (orderedTasks plan.stories).Pairwise fun first second =>
            first.key ≤ second.key := by
  constructor
  · intro start steps idle distinct none current
    have initially := ordered_of_idle idle distinct none
    refine ⟨Ordered.inOrder ?_, starts_pairwise initially current⟩
    exact run_invariant (fun _ _ ordered step => execute_ordered ordered step)
      initially current
  · intro opts plan sprintRun jobs distinct started
    exact ⟨startSprintRunCore_numbers started, orderedTasks_pairwise distinct⟩

/-! ## A sprint of two tasks -/

namespace TwoTasks

def task (id : String) (position : Rat) : TaskRow where
  id := id
  code := id
  title := id
  storyId := "story"
  productId := "product"
  status := .toDo
  implementationPlan := some "plan"
  repoUrl := none
  dispatchRequestId := none
  sortOrder := position
  createdAt := 0

/-- The tasks are stored in the other order. -/
def plan : SprintPlanning where
  sprint := some (⟨"sprint", "product", .opened⟩, ⟨"product", .sprint, none⟩)
  runs := []
  stories :=
    [{ id := "story"
       sprintId := some "sprint"
       status := .inSprint
       sortOrder := 0
       createdAt := 0
       pbi := ⟨"pbi", "pbi", "pbi", .ready, 0, 0⟩
       tasks := [task "late" 2, task "early" 1] }]
  openQuestions := []

def dispatch : Step :=
  .startSprintRun
    { sprintId := "sprint"
      productId := "product"
      userId := "owner"
      runId := "run"
      jobId := fun number => toString number
      now := 0 } plan

def sprintRun : SprintRunRow := ⟨"run", "sprint", .queued⟩

def worker (name : String) : WorkerRow where
  userId := "owner"
  tokenId := name
  instanceId := name
  productId := none
  runtime := .claude
  capabilities := []
  lastSeenAt := 0
  lastQuotaPct := none
  tier := none

def tables (world : World) : WorkerTables where
  jobs := world.rows
  incarnations := []
  profiles := []
  workers := []
  users := []
  now := world.now

def idle : World where
  now := 0
  jobs := []
  calls := []

def dispatched : World := execute idle dispatch

def poll (name : String) (world : World) : Step :=
  .poll (worker name) (tables world)

def tryClaim (name jobId : String) (world : World) : Step :=
  .tryClaim (worker name) (tables world) jobId (some sprintRun) "plan" none

/-- Two workers poll at once; the second cannot have the second task. -/
def firstTask : List Step :=
  [dispatch, poll "first" dispatched, poll "second" dispatched,
    tryClaim "first" "0" dispatched, tryClaim "second" "1" dispatched]

/-- The first worker reports its task done. -/
def report : List Step :=
  (((run execute idle firstTask).jobs.find? fun job => job.row.id = "0").map
    fun job => [.readReport "0" "first" .done,
      .writeReport ⟨"0", "first", some "first", 1⟩ job.row .done
        { status := .done } none]).getD []

def finished : World := run execute idle (firstTask ++ report)

def secondTask : List Step :=
  firstTask ++ report ++ [poll "second" finished, tryClaim "second" "1" finished]

end TwoTasks

open TwoTasks in
/-- The second task starts after the first is done. -/
theorem sprint_order_two :
    InOrder (run execute idle secondTask) ∧
      starts idle secondTask = [("run", 0), ("run", 1)] ∧
      (starts idle secondTask).Pairwise (fun first second =>
        first.1 = second.1 → first.2 ≤ second.2) ∧
      (orderedTasks plan.stories).Pairwise fun first second =>
        first.key ≤ second.key := by
  have runs := sprint_order.1 idle secondTask rfl (by decide) (by decide) (by decide +kernel)
  have numbers := sprint_order.2
    { sprintId := "sprint"
      productId := "product"
      userId := "owner"
      runId := "run"
      jobId := fun number => toString number
      now := 0 } plan sprintRun _ (by decide) rfl
  exact ⟨runs.1, by decide +kernel, runs.2, numbers.2⟩

end Jobs
end Scrum4Me
