import Scrum4Me.Tasks.Machine
import Scrum4Me.Jobs.SprintOrder

/-!
# One executor for each task

The transactions that lock a task keep it to one executor. A sprint start does
not lock, so it may come between their checks and their writes, or find the
checks of another start undone: `Undivided` is what must not happen. In runs
without it each task has one active job and each sprint one active run at most.
-/

namespace Scrum4Me
namespace Tasks

open Foundation Jobs

/-! ## What is claimed -/

/-- One executor for each task, one active run for each sprint. -/
structure Exclusive (world : World) : Prop where
  executors : ∀ task, world.executors task ≤ 1
  runs : ∀ sprintId, world.runs.countP (fun run =>
    run.sprintId = sprintId ∧ run.status.Active) ≤ 1

/-- The task has an executor. -/
def World.Executed (world : World) (task : String) : Prop :=
  (∃ row ∈ world.jobs, Executes row task) ∨
    ∃ rows ∈ world.store.requests, rows.Executes task

instance (world : World) (task : String) : Decidable (world.Executed task) :=
  inferInstanceAs (Decidable (_ ∨ _))

/-- A transaction is about to create a job for the task. -/
def World.Creating (world : World) (task : String) : Prop :=
  ∃ flight ∈ world.flights, flight.checked = true ∧ flight.intake.Creates ∧
    flight.intake.taskId = task

instance (world : World) (task : String) : Decidable (world.Creating task) :=
  inferInstanceAs (Decidable (∃ _ ∈ _, _))

/-- The sprint has an active run. -/
def World.Running (world : World) (sprintId : String) : Prop :=
  ∃ run ∈ world.runs, run.sprintId = sprintId ∧ run.status.Active

instance (world : World) (sprintId : String) :
    Decidable (world.Running sprintId) :=
  inferInstanceAs (Decidable (∃ _ ∈ _, _))

/-- The sprint start finds, when it commits, its sprint without an active run
and its tasks without an executor, present or about to be; and no ended run is
made active beside another. -/
def Undivided (world : World) : Step → Prop
  | .startSprintRun _ opts plan =>
      ¬ world.Running opts.sprintId ∧ (plan.sprint.map (·.2.prStrategy) ≠ some .sprintBatch →
          ∀ planned ∈ orderedTasks plan.stories,
            ¬ world.Executed planned.2.id ∧ ¬ world.Creating planned.2.id)
  | .setRun runId status =>
      status.Active → ∀ run ∈ world.runs, run.id = runId →
        run.status.Active ∨ ¬ world.Running run.sprintId
  | _ => True

instance (world : World) (step : Step) : Decidable (Undivided world step) := by
  apply @Step.casesOn (fun step => Decidable (Undivided world step)) step <;>
    intros <;> dsimp only [Undivided] <;> infer_instance

/-! ## The invariant -/

/-- The executors of a task and the checks that rely on them. -/
structure Orderly (world : World) : Prop where
  sound : world.store.Sound
  ordinary : ∀ task, world.jobs.countP (fun row => Executes row task) ≤ 1
  apart : ∀ task, ∀ row ∈ world.jobs, Executes row task →
    ∀ rows ∈ world.store.requests, ¬ rows.Executes task
  single : ∀ task, ∀ first ∈ world.store.requests,
    ∀ second ∈ world.store.requests, first.Executes task →
      second.Executes task → first.request.id = second.request.id
  locks : (world.flights.map fun flight => flight.intake.taskId).Nodup
  dispatching : ∀ opts, ⟨.dispatch opts, true⟩ ∈ world.flights →
    ¬ world.Executed opts.taskId
  reserving : ∀ requestId task, ⟨.reserve requestId task, true⟩ ∈ world.flights →
    (∀ row ∈ world.jobs, ¬ Executes row task) ∧
      ∀ rows ∈ world.store.requests, rows.Executes task →
        rows.request.id = requestId
  runIds : (world.runs.map (·.id)).Nodup
  running : ∀ first ∈ world.runs, ∀ second ∈ world.runs,
    first.sprintId = second.sprintId → first.status.Active →
      second.status.Active → first = second

variable {world : World} {step : Step} {task : String} {tasks : List PlannedTask}
  {statement : Statement}

/-- A statement that selects a job by its identifier alone reports it as running
or ends it. -/
theorem target_of_byId {jobId : String} (named : statement.byId = some jobId)
    {status : JobStatus} (target : statement.target = some status) :
    status = .running ∨ status.Terminal := by
  have reported : ∀ report : ReportStatus,
      report.jobStatus = .running ∨ report.jobStatus.Terminal := by
    intro report
    cases report <;> decide
  cases statement with
  | markJobTerminallyFailed => cases target; exact .inr (by decide)
  | updateJobStatus jobId report => cases target; exact reported report.status
  | deployTerminal jobId report => cases target; exact reported report.status
  | _ => cases named

/-- Of the rows that a statement changes, none becomes an executor. -/
theorem executes_apply {row : JobRow}
    (held : statement.target = some .running → statement.Selects row → row.status.Held)
    (executes : Executes (statement.apply row) task) :
    Executes row task := by
  obtain ⟨_, kind, _, taskId, _⟩ := @Statement.apply_static statement row
  obtain ⟨implements, named, active⟩ := executes
  refine ⟨kind.symm.trans implements, taskId.symm.trans named, ?_⟩
  by_cases selected : statement.Selects row
  swap
  · rwa [Statement.apply_of_not_selects selected] at active
  rw [Statement.apply_of_selects selected, Statement.set_status] at active
  cases target : statement.target with
  | none => rwa [target] at active
  | some status =>
    rw [target, Option.getD_some] at active
    by_contra ended
    cases byId : statement.byId with
    | none => exact (Statement.gentle selected byId).finished ended status target active
    | some jobId =>
      rcases target_of_byId byId target with rfl | terminal
      · exact ended (held target selected).active
      · exact terminal active

/-! ## What one part of the state keeps -/

section Parts

variable (orderly : Orderly world)

include orderly

/-- A task is locked by one transaction. -/
theorem Orderly.flight_of_task {first second : Flight} (firstMember : first ∈ world.flights)
    (secondMember : second ∈ world.flights) (same : first.intake.taskId = second.intake.taskId) :
    first = second :=
  List.inj_on_of_nodup_map orderly.locks firstMember secondMember same

/-- Locks are given up. -/
theorem Orderly.withFlights {flights : List Flight} (fewer : flights.Sublist world.flights) :
    Orderly { world with flights := flights } :=
  { orderly with
    locks := orderly.locks.sublist (fewer.map _)
    dispatching := fun opts member => orderly.dispatching opts (fewer.subset member)
    reserving := fun requestId task member =>
      orderly.reserving requestId task (fewer.subset member) }

/-- The ordinary jobs change without a new executor. -/
theorem Orderly.withJobs {jobs : List JobRow}
    (fewer : ∀ task, jobs.countP (fun row => Executes row task) ≤
      world.jobs.countP fun row => Executes row task) :
    Orderly { world with jobs := jobs } := by
  have earlier : ∀ task, ∀ row ∈ jobs, Executes row task →
      ∃ old ∈ world.jobs, Executes old task := by
    intro task row member executes
    have positive : 0 < jobs.countP fun row => Executes row task :=
      List.countP_pos_iff.2 ⟨row, member, decide_eq_true executes⟩
    obtain ⟨old, known, found⟩ := List.countP_pos_iff.1 (positive.trans_le (fewer task))
    exact ⟨old, known, of_decide_eq_true found⟩
  exact
    { orderly with
      ordinary := fun task => (fewer task).trans (orderly.ordinary task)
      apart := by
        intro task row member executes
        obtain ⟨old, known, before⟩ := earlier task row member executes
        exact orderly.apart task old known before
      dispatching := by
        rintro opts member (⟨row, among, executes⟩ | managed)
        · obtain ⟨old, known, before⟩ := earlier _ row among executes
          exact orderly.dispatching opts member (.inl ⟨old, known, before⟩)
        · exact orderly.dispatching opts member (.inr managed)
      reserving := by
        intro requestId task member
        refine ⟨fun row among executes => ?_,
          (orderly.reserving requestId task member).2⟩
        obtain ⟨old, known, before⟩ := earlier task row among executes
        exact (orderly.reserving requestId task member).1 old known before }

/-- A transaction of the dispatch service, under the lock of its task where it
reserves for one. -/
theorem Orderly.withStore {input : Dispatch.Input}
    (locked : ∀ rows ∈ world.store.requests, input.Reserves rows →
      ∀ task, rows.request.identity.task = some task →
        ⟨.reserve rows.request.id task, true⟩ ∈ world.flights) :
    Orderly { world with store := Dispatch.execute world.store input } := by
  have origin : ∀ rows' ∈ (Dispatch.execute world.store input).requests,
      ∀ task, rows'.Executes task → ∃ rows ∈ world.store.requests,
          rows.request.id = rows'.request.id ∧ (rows.Executes task ∨
            input.Reserves rows ∧ ⟨.reserve rows.request.id task, true⟩ ∈ world.flights) := by
    intro rows' member task executes
    obtain ⟨rows, known, identity, before | ⟨reserves, its⟩⟩ :=
      orderly.sound.executes_origin member executes
    · exact ⟨rows, known, congrArg Dispatch.RequestIdentity.requestId identity, .inl before⟩
    · exact ⟨rows, known, congrArg Dispatch.RequestIdentity.requestId identity,
        .inr ⟨reserves, locked rows known reserves task its⟩⟩
  exact
    { orderly with
      sound := orderly.sound.next input
      apart := by
        intro task row member executes rows' among managed
        obtain ⟨rows, known, _, before | ⟨_, flight⟩⟩ := origin rows' among task managed
        · exact orderly.apart task row member executes rows known before
        · exact (orderly.reserving _ task flight).1 row member executes
      single := by
        intro task first firstMember second secondMember firstExecutes
          secondExecutes
        obtain ⟨one, oneKnown, oneId, oneOrigin⟩ := origin first firstMember task firstExecutes
        obtain ⟨other, otherKnown, otherId, otherOrigin⟩ :=
          origin second secondMember task secondExecutes
        rw [← oneId, ← otherId]
        rcases oneOrigin with oneBefore | ⟨oneReserves, oneFlight⟩
        · rcases otherOrigin with otherBefore | ⟨_, otherFlight⟩
          · exact orderly.single task one oneKnown other otherKnown oneBefore
              otherBefore
          · exact (orderly.reserving _ task otherFlight).2 one oneKnown oneBefore
        · rcases otherOrigin with otherBefore | ⟨otherReserves, _⟩
          · exact ((orderly.reserving _ task oneFlight).2 other otherKnown
              otherBefore).symm
          · exact Dispatch.Action.reserve.inj (oneReserves.action.symm.trans otherReserves.action)
      dispatching := by
        rintro opts member (ordinary | ⟨rows', among, managed⟩)
        · exact orderly.dispatching opts member (.inl ordinary)
        · obtain ⟨rows, known, _, before | ⟨_, flight⟩⟩ := origin rows' among _ managed
          · exact orderly.dispatching opts member (.inr ⟨rows, known, before⟩)
          · have same := orderly.flight_of_task member flight rfl
            cases same
      reserving := by
        intro requestId task member
        refine ⟨(orderly.reserving requestId task member).1, ?_⟩
        intro rows' among managed
        obtain ⟨rows, known, sameId, before | ⟨_, flight⟩⟩ := origin rows' among task managed
        · exact sameId.symm.trans ((orderly.reserving requestId task member).2 rows known before)
        · have same := orderly.flight_of_task member flight rfl
          cases same
          exact sameId.symm }

/-- Jobs are created for tasks without an executor, present or about to be. -/
theorem Orderly.withNewJobs {created : List JobRow}
    (distinct : ∀ task, created.countP (fun row => Executes row task) ≤ 1)
    (free : ∀ task, ∀ row ∈ created, Executes row task →
      ¬ world.Executed task ∧ ¬ world.Creating task) :
    Orderly { world with jobs := world.jobs ++ created } :=
  { orderly with
    ordinary := by
      intro task
      rw [List.countP_append]
      by_cases new : ∃ row ∈ created, Executes row task
      · obtain ⟨row, member, executes⟩ := new
        have none : world.jobs.countP (fun row => Executes row task) = 0 := by
          rw [List.countP_eq_zero]
          intro old known found
          exact (free task row member executes).1 (.inl ⟨old, known, of_decide_eq_true found⟩)
        rw [none, Nat.zero_add]
        exact distinct task
      · have none : created.countP (fun row => Executes row task) = 0 := by
          rw [List.countP_eq_zero]
          intro row member found
          exact new ⟨row, member, of_decide_eq_true found⟩
        rw [none, Nat.add_zero]
        exact orderly.ordinary task
    apart := by
      intro task row member executes rows known managed
      rcases List.mem_append.1 member with old | new
      · exact orderly.apart task row old executes rows known managed
      · exact (free task row new executes).1 (.inr ⟨rows, known, managed⟩)
    dispatching := by
      rintro opts member (⟨row, among, executes⟩ | managed)
      · rcases List.mem_append.1 among with old | new
        · exact orderly.dispatching opts member (.inl ⟨row, old, executes⟩)
        · exact (free _ row new executes).2 ⟨_, member, rfl, trivial, rfl⟩
      · exact orderly.dispatching opts member (.inr managed)
    reserving := by
      intro requestId task member
      refine ⟨fun row among executes => ?_,
        (orderly.reserving requestId task member).2⟩
      rcases List.mem_append.1 among with old | new
      · exact (orderly.reserving requestId task member).1 row old executes
      · exact (free task row new executes).2 ⟨_, member, rfl, trivial, rfl⟩ }

/-- A checked transaction that saw no executor joins the others. -/
theorem Orderly.withFlight {flight : Flight} (unlocked : ∀ other ∈ world.flights,
      other.intake.taskId ≠ flight.intake.taskId)
    (dispatching : ∀ opts, flight = ⟨.dispatch opts, true⟩ → ¬ world.Executed opts.taskId)
    (reserving : ∀ requestId task, flight = ⟨.reserve requestId task, true⟩ →
      (∀ row ∈ world.jobs, ¬ Executes row task) ∧
        ∀ rows ∈ world.store.requests, rows.Executes task → rows.request.id = requestId) :
    Orderly { world with flights := world.flights ++ [flight] } :=
  { orderly with
    locks := by
      rw [List.map_append, List.nodup_append]
      refine ⟨orderly.locks, List.nodup_singleton _, ?_⟩
      rintro _ first _ second rfl
      obtain ⟨other, member, same⟩ := List.mem_map.1 first
      exact unlocked other member (same.trans (List.mem_singleton.1 second))
    dispatching := by
      intro opts member
      rcases List.mem_append.1 member with old | new
      · exact orderly.dispatching opts old
      · exact dispatching opts (List.mem_singleton.1 new).symm
    reserving := by
      intro requestId task member
      rcases List.mem_append.1 member with old | new
      · exact orderly.reserving requestId task old
      · exact reserving requestId task (List.mem_singleton.1 new).symm }

/-- The other transactions lock other tasks. -/
theorem Orderly.erase_task {flight other : Flight} (member : flight ∈ world.flights)
    (rest : other ∈ world.flights.erase flight) :
    other.intake.taskId ≠ flight.intake.taskId := by
  have distinct : world.flights.Nodup := List.Nodup.of_map _ orderly.locks
  obtain ⟨different, known⟩ := distinct.mem_erase_iff.1 rest
  exact fun same => different (orderly.flight_of_task known member same)

/-- A run is added to a sprint without an active one. -/
theorem Orderly.withRun {run : SprintRunRow} (fresh : run.id ∉ world.runs.map (·.id))
    (idle : ¬ world.Running run.sprintId) :
    Orderly { world with runs := world.runs ++ [run] } :=
  { orderly with
    runIds := by
      rw [List.map_append, List.nodup_append]
      refine ⟨orderly.runIds, List.nodup_singleton _, ?_⟩
      rintro id known _ new rfl
      rw [List.mem_singleton.1 new] at known
      exact fresh known
    running := by
      intro first firstMember second secondMember same firstActive secondActive
      rcases List.mem_append.1 firstMember with old | new
      · rcases List.mem_append.1 secondMember with otherOld | otherNew
        · exact orderly.running first old second otherOld same firstActive
            secondActive
        · rw [List.mem_singleton.1 otherNew] at same
          exact absurd ⟨first, old, same, firstActive⟩ idle
      · rcases List.mem_append.1 secondMember with otherOld | otherNew
        · rw [List.mem_singleton.1 new] at same
          exact absurd ⟨second, otherOld, same.symm, secondActive⟩ idle
        · rw [List.mem_singleton.1 new, List.mem_singleton.1 otherNew] }

/-- No run is made active beside another. -/
theorem Orderly.withRunStatus {runId : String} {status : SprintRunStatus}
    (undivided : Undivided world (.setRun runId status)) :
    Orderly { world with
      runs := updateWhere (fun run => run.id = runId)
        (fun run => { run with status := status }) world.runs } := by
  -- The changed run is active beside no other.
  have alone : ∀ old ∈ world.runs, old.id = runId → status.Active →
      ∀ other ∈ world.runs, other.id ≠ runId → other.sprintId = old.sprintId →
        ¬ other.status.Active := by
    intro old known named active other present different same otherActive
    rcases undivided active old known named with before | idle
    · have equal := orderly.running old known other present same.symm before otherActive
      exact different (equal ▸ named)
    · exact idle ⟨other, present, same, otherActive⟩
  exact
    { orderly with
      runIds := by
        have ids := @map_updateWhere_of_unchanged _ _ SprintRunRow.id
          (fun run => run.id = runId) (fun run => { run with status := status })
          (fun _ => rfl) world.runs
        show (List.map SprintRunRow.id _).Nodup
        rw [ids]
        exact orderly.runIds
      running := by
        intro first firstMember second secondMember same firstActive
          secondActive
        rcases mem_updateWhere.1 firstMember with
          ⟨one, oneKnown, oneNamed, rfl⟩ | ⟨firstKnown, firstOther⟩
        · rcases mem_updateWhere.1 secondMember with
            ⟨two, twoKnown, twoNamed, rfl⟩ | ⟨secondKnown, secondOther⟩
          · have sameId := (of_decide_eq_true oneNamed).trans (of_decide_eq_true twoNamed).symm
            rw [List.inj_on_of_nodup_map orderly.runIds oneKnown twoKnown sameId]
          · exact absurd secondActive (alone one oneKnown
              (of_decide_eq_true oneNamed) firstActive second secondKnown
              (of_decide_eq_false secondOther) same.symm)
        · rcases mem_updateWhere.1 secondMember with
            ⟨two, twoKnown, twoNamed, rfl⟩ | ⟨secondKnown, secondOther⟩
          · exact absurd firstActive (alone two twoKnown
              (of_decide_eq_true twoNamed) secondActive first firstKnown
              (of_decide_eq_false firstOther) same)
          · exact orderly.running first firstKnown second secondKnown same
              firstActive secondActive }

end Parts

/-! ## Checks -/

theorem isOk_unit {result : Except ε Unit} : result.isOk = true ↔ result = .ok () := by
  cases result <;> simp [Except.isOk, Except.toBool]

/-- Whoever implements the task is among its active jobs. -/
theorem activeJobs_of_executed (executed : world.Executed task) : world.activeJobs task ≠ [] := by
  unfold World.activeJobs
  rcases executed with ⟨row, member, _, named, active⟩ |
    ⟨rows, known, row, member, _, named, active⟩
  · intro none
    have empty := (List.append_eq_nil_iff.1 none).1
    rw [List.map_eq_nil_iff, List.filter_eq_nil_iff] at empty
    exact empty row member (decide_eq_true ⟨named, active⟩)
  · intro none
    have empty := (List.append_eq_nil_iff.1 none).2
    rw [List.map_eq_nil_iff, List.filter_eq_nil_iff] at empty
    exact empty row (List.mem_flatMap.2 ⟨rows, known, member⟩) (decide_eq_true ⟨named, active⟩)

theorem not_executed_of_dispatch {opts : TaskDispatch} {read : TaskRead}
    (passes : Step.Passes world read (.dispatch opts)) :
    ¬ world.Executed opts.taskId := by
  intro executed
  have idle := dispatchTaskImplementation_ok (isOk_unit.1 passes)
  exact activeJobs_of_executed executed (List.head?_eq_none_iff.1 idle)

theorem alone_of_reserve {requestId : Uuid} {read : TaskRead}
    (passes : Step.Passes world read (.reserve requestId task)) :
    (∀ row ∈ world.jobs, ¬ Executes row task) ∧ ∀ rows ∈ world.store.requests, rows.Executes task →
        rows.request.id = requestId := by
  obtain ⟨rows, _, its, passed⟩ := passes
  have action : rows.request.input.action = .taskImplementation := by
    by_contra other
    simp [Dispatch.RequestIdentity.task, Dispatch.RequestRow.identity, other]
      at its
  have elsewhere := of_decide_eq_false (lockManagedTask_ok action (isOk_unit.1 passed))
  constructor
  · intro row member executes
    exact elsewhere (.inl ⟨row, member, executes.2⟩)
  · rintro other member ⟨row, own, _, named, active⟩
    by_contra different
    exact elsewhere (.inr ⟨other, member, different, row, own, named, active⟩)

/-! ## Sprint starts -/

/-- A start that succeeds has read its sprint. -/
theorem startSprintRunCore_created
    {opts : SprintStart} {plan : SprintPlanning} {run : SprintRunRow} {jobs : List JobRow}
    (started : startSprintRunCore opts plan = .ok (run, jobs)) :
    run = ⟨opts.runId, opts.sprintId, .queued⟩ ∧
      (plan.sprint.map (·.2.prStrategy) = some .sprintBatch ∧ jobs = [opts.job 0] ∨
        plan.sprint.map (·.2.prStrategy) ≠ some .sprintBatch ∧
          jobs = (orderedTasks plan.stories).mapIdx opts.taskJob) := by
  simp only [startSprintRunCore, bind_eq_ok, require_eq_ok, ensure_eq_ok,
    pure_eq_ok, Prod.mk.injEq] at started
  obtain ⟨⟨sprint, product⟩, read, _, _, _, _, _, _, _, _, rfl, rfl⟩ := started
  refine ⟨rfl, ?_⟩
  rw [read, Option.map_some]
  unfold SprintStart.jobs
  by_cases batch : product.prStrategy = .sprintBatch
  · exact .inl ⟨congrArg some batch, if_pos batch⟩
  · exact .inr ⟨fun same => batch (Option.some.inj same), if_neg batch⟩

/-- The jobs of a start implement the tasks that it read, each once. -/
theorem created_executes {opts : SprintStart} {row : JobRow}
    (member : row ∈ tasks.mapIdx opts.taskJob) (executes : Executes row task) :
    ∃ planned ∈ tasks, planned.2.id = task := by
  obtain ⟨place, bound, rfl⟩ := List.mem_mapIdx.1 member
  exact ⟨tasks[place], List.getElem_mem bound, Option.some.inj executes.2.1⟩

theorem created_countP {opts : SprintStart} (distinct : (tasks.map (·.2.id)).Nodup) :
    (tasks.mapIdx opts.taskJob).countP (fun row => Executes row task) ≤ 1 := by
  have bound : (tasks.mapIdx opts.taskJob).countP (fun row => Executes row task) ≤
        ((tasks.mapIdx opts.taskJob).map (·.taskId)).count (some task) := by
    rw [List.count, List.countP_map]
    refine List.countP_mono_left fun row _ executes => ?_
    exact beq_iff_eq.2 (of_decide_eq_true executes).2.1
  have names : (tasks.mapIdx opts.taskJob).map (·.taskId) = (tasks.map (·.2.id)).map some := by
    refine List.ext_getElem (by simp) fun place _ _ => ?_
    simp [SprintStart.taskJob]
  rw [names] at bound
  refine bound.trans (List.nodup_iff_count_le_one.1 ?_ _)
  exact distinct.map (Option.some_injective _)

/-! ## Runs -/

theorem execute_orderly
    (orderly : Orderly world) (undivided : step.Ready world → Undivided world step) :
    Orderly (execute world step) := by
  unfold execute
  split
  swap
  · exact orderly
  rename_i ready
  have undivided := undivided ready
  cases step with
  | lock intake => exact orderly.withFlight ready (fun _ => nofun) fun _ _ => nofun
  | check intake read =>
    obtain ⟨member, passes⟩ := ready
    refine (orderly.withFlights List.erase_sublist).withFlight ?_ ?_ ?_
    · intro other rest
      have apart := orderly.erase_task member rest
      exact apart
    · rintro opts ⟨⟩
      exact not_executed_of_dispatch passes
    · rintro requestId task ⟨⟩
      exact alone_of_reserve passes
  | createJob opts id now harness requiredCapability =>
    refine (orderly.withFlights List.erase_sublist).withNewJobs
      (fun task => List.countP_le_length) ?_
    intro task row member executes
    obtain rfl := List.mem_singleton.1 member
    obtain rfl : opts.taskId = task := Option.some.inj executes.2.1
    refine ⟨orderly.dispatching opts ready, ?_⟩
    rintro ⟨flight, rest, _, _, same⟩
    exact orderly.erase_task ready rest same
  | submit input env actor key =>
    have stored := @Orderly.withStore world orderly ⟨env, .submit actor input key⟩
      fun _ _ reserves => nomatch reserves.action
    exact stored.withFlights List.erase_sublist
  | reserve requestId taskId env =>
    obtain ⟨member, rows, found, its, _⟩ := ready
    have stored := @Orderly.withStore world orderly ⟨env, .reserve requestId⟩ <| by
      intro other known reserves task named
      have same : requestId = other.request.id := Dispatch.Action.reserve.inj reserves.action
      obtain ⟨stored, id⟩ := Dispatch.Store.request?_eq_some found
      have request : rows = other := orderly.sound.request_unique known stored (id.trans same)
      rw [← request, its] at named
      rw [← same, ← Option.some.inj named]
      exact member
    exact stored.withFlights List.erase_sublist
  | rollback flight => exact orderly.withFlights List.erase_sublist
  | readRuns => exact { orderly with }
  | startSprintRun start opts plan =>
    obtain ⟨_, _, _, _, _, succeeds, fresh, distinct⟩ := ready
    obtain ⟨idle, free⟩ := undivided
    cases started : startSprintRunCore opts plan with
    | error => rw [started] at succeeds; cases succeeds
    | ok result =>
      obtain ⟨run, jobs⟩ := result
      obtain ⟨rfl, created⟩ := startSprintRunCore_created started
      have withJobs : Orderly { world with jobs := world.jobs ++ jobs } := by
        rcases created with ⟨_, rfl⟩ | ⟨byTask, rfl⟩
        · refine orderly.withNewJobs (fun task => List.countP_le_length) ?_
          intro task row member executes
          rw [List.mem_singleton.1 member] at executes
          exact absurd executes.1 nofun
        · refine orderly.withNewJobs (fun task => created_countP distinct) ?_
          intro task row member executes
          obtain ⟨planned, read, rfl⟩ := created_executes member executes
          exact free byTask planned read
      have withRun : Orderly { world with
          jobs := world.jobs ++ jobs
          runs := world.runs ++ [⟨opts.runId, opts.sprintId, .queued⟩] } :=
        withJobs.withRun fresh idle
      simp only [Step.apply, started]
      exact { withRun with }
  | rollbackStart => exact { orderly with }
  | enqueue row =>
    refine orderly.withJobs fun task => ?_
    have other : ¬ Executes row task := fun executes => ready executes.1
    simp [List.countP_append, other]
  | write statement =>
    refine orderly.withJobs fun task => ?_
    rw [List.countP_map]
    refine List.countP_mono_left fun row member executes => ?_
    exact decide_eq_true (executes_apply (fun target selected => ready target row member selected)
      (of_decide_eq_true executes))
  | setRun runId status => exact orderly.withRunStatus undivided
  | dispatch input =>
    refine orderly.withStore fun rows known reserves task named => ?_
    simp only [Step.Ready, Step.LeavesTasks, reserves.action] at ready
    rcases ready rows (orderly.sound.request?_of_mem known) with
      none | refused
    · rw [none] at named
      cases named
    · rw [reserves.locked] at refused
      cases refused

theorem Orderly.exclusive (orderly : Orderly world) : Exclusive world where
  executors := by
    intro task
    unfold World.executors
    have managed : world.store.allJobs.countP (fun row => row.Executes task) ≤ 1 :=
      orderly.sound.executors_le fun first firstMember second secondMember
          firstExecutes secondExecutes =>
        orderly.sound.request_unique secondMember firstMember
          (orderly.single task first firstMember second secondMember firstExecutes secondExecutes)
    by_cases ordinary : ∃ row ∈ world.jobs, Executes row task
    · obtain ⟨row, member, executes⟩ := ordinary
      have none : world.store.allJobs.countP (fun row => row.Executes task) = 0 := by
        rw [List.countP_eq_zero]
        intro job among found
        obtain ⟨rows, known, own⟩ := List.mem_flatMap.1 among
        exact orderly.apart task row member executes rows known ⟨job, own, of_decide_eq_true found⟩
      rw [none]
      exact orderly.ordinary task
    · have none : world.jobs.countP (fun row => Executes row task) = 0 := by
        rw [List.countP_eq_zero]
        intro row member found
        exact ordinary ⟨row, member, of_decide_eq_true found⟩
      rw [none, Nat.zero_add]
      exact managed
  runs := by
    intro sprintId
    rw [List.countP_eq_length_filter]
    have distinct : world.runs.Nodup := List.Nodup.of_map _ orderly.runIds
    have nodup := distinct.filter fun run => run.sprintId = sprintId ∧ run.status.Active
    refine length_le_one nodup fun first firstMember second secondMember => ?_
    obtain ⟨known, found⟩ := List.mem_filter.1 firstMember
    obtain ⟨other, also⟩ := List.mem_filter.1 secondMember
    obtain ⟨rfl, active⟩ := of_decide_eq_true found
    obtain ⟨same, otherActive⟩ := of_decide_eq_true also
    exact orderly.running first known second other same.symm active otherActive

theorem orderly_empty : Orderly .empty where
  sound := Dispatch.Store.sound_empty
  ordinary := fun _ => Nat.zero_le 1
  apart := fun _ _ member => absurd member List.not_mem_nil
  single := fun _ _ member => absurd member List.not_mem_nil
  locks := List.nodup_nil
  dispatching := fun _ member => absurd member List.not_mem_nil
  reserving := fun _ _ member => absurd member List.not_mem_nil
  runIds := List.nodup_nil
  running := List.forall_mem_nil _

/-- In runs in which no sprint start comes between others, each task has one
executor and each sprint one active run at most. -/
theorem one_executor {steps : List Step} (undivided : EveryStep execute
      (fun world step => step.Ready world → Undivided world step) .empty steps) :
    Exclusive (run execute .empty steps) :=
  (run_invariant (fun _ _ orderly step => execute_orderly orderly step)
    orderly_empty undivided).exclusive

/-! ## Runs with a sprint start -/

namespace SprintStarts

def opts : TaskDispatch := ⟨"early", "product", "owner"⟩

def read : TaskRead where
  task := some
    { productId := "product"
      storyProductId := "product"
      status := .toDo
      repoUrl := none
      dispatchRequestId := none }
  executing := false
  repositories := ⟨none, none, none⟩

/-- The task is dispatched on its own. -/
def dispatched : List Step :=
  [.lock (.dispatch opts), .check (.dispatch opts) read,
    .createJob opts "single" 0 false none]

/-- The sprint of the task is started: its runs are read, the run is written. -/
def started (runId : String) (runs : List SprintRunRow) (plan : SprintPlanning) :
    Step :=
  .startSprintRun ⟨"sprint", "product", "owner", runs⟩
    { sprintId := "sprint"
      productId := "product"
      userId := "owner"
      runId := runId
      jobId := fun number => runId ++ toString number
      now := 0 } plan

def readRuns : Step := .readRuns "sprint" "product" "owner"

/-- The single job ends before the sprint is started. -/
def oneByOne : List Step :=
  dispatched ++ [.write (.markJobTerminallyFailed "single" "no plan" 0),
    readRuns, started "run" [] TwoTasks.plan]

/-- The sprint is started although its task has a job. -/
def twice : List Step :=
  dispatched ++ [readRuns, started "run" [] TwoTasks.plan]

/-- The sprint runs as one job. -/
def batch : SprintPlanning :=
  { TwoTasks.plan with
    sprint := some (⟨"sprint", "product", .opened⟩, ⟨"product", .sprintBatch, none⟩) }

/-- Two starts of the sprint overlap. -/
def overlapping : List Step :=
  [readRuns, readRuns, started "first" [] batch, started "second" [] batch]

end SprintStarts

open SprintStarts in
/-- A sprint that is started after the job of its task has ended. -/
theorem one_executor_sprint :
    Exclusive (run execute .empty oneByOne) ∧ (run execute .empty oneByOne).executors "early" = 1 :=
  ⟨one_executor (by decide +kernel), by decide +kernel⟩

open SprintStarts in
/-- A sprint start gives a task its second job, and overlapping starts give the
sprint a second run. -/
theorem sprint_start_divides :
    ¬ Exclusive (run execute .empty twice) ∧
      ¬ Exclusive (run execute .empty overlapping) := by
  constructor
  · intro exclusive
    exact absurd (exclusive.executors "early") (by decide +kernel)
  · intro exclusive
    exact absurd (exclusive.runs "sprint") (by decide +kernel)

end Tasks
end Scrum4Me
