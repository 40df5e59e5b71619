import Scrum4Me.Guarantees.Retries
import Scrum4Me.Lifecycle.Queries

/-!
# The jobs that implement a task

A request has one active job at most, and none while it waits. Only a
reservation makes a request active, and it does so under the lock of the task.
-/

namespace Scrum4Me
namespace Dispatch

open Foundation

/-- The job waits or is worked on. -/
def JobStatus.Active (status : JobStatus) : Prop :=
  status = .queued ∨ status = .claimed ∨ status = .running

instance (status : JobStatus) : Decidable status.Active :=
  inferInstanceAs (Decidable (_ ∨ _ ∨ _))

theorem Outcome.jobStatus_ended (outcome : Outcome) : ¬ outcome.jobStatus.Active := by
  cases outcome <;> decide

theorem liveJobStatus_active (attempt : AttemptLife) : (liveJobStatus attempt).Active := by
  unfold liveJobStatus
  split <;> decide

/-! ## Within one request -/

/-- The active jobs of the request that implement the task. -/
def Life.executors (life : Life) (task : String) : List JobLife :=
  life.jobs.filter fun j => j.task = some task ∧ j.status.Active

section Requests

variable {life : Life} {past : List Episode} {current : Option Episode}
  {task : String} {j : JobLife}

theorem Life.mem_executors :
    j ∈ life.executors task ↔ j ∈ life.jobs ∧ j.task = some task ∧ j.status.Active := by
  simp [Life.executors]

/-- An active job belongs to the open episode. -/
theorem Life.History.active_current (history : life.History past current) (member : j ∈ life.jobs)
    (active : j.status.Active) :
    ∃ e, current = some e ∧ e.job = some j := by
  rw [history.flat.jobs] at member
  obtain ⟨e, inside, job⟩ := List.mem_filterMap.mp member
  rcases List.mem_append.mp inside with old | new
  · exfalso
    rcases (history.closed e old).2 with
      ⟨-, -, cancelled⟩ | ⟨-, -, outcome, -, -, -, status⟩
    · rw [cancelled j job] at active
      exact absurd active (by decide)
    · rw [status j job] at active
      exact outcome.jobStatus_ended active
  · exact ⟨e, Option.mem_toList.mp new, job⟩

/-- The job of the open episode is active. -/
theorem Life.History.current_active
    {e : Episode} (history : life.History past (some e)) (job : e.job = some j) :
    j.status.Active := by
  rcases history.agrees with ⟨⟨-, -, -, queued⟩, -⟩ |
    ⟨s, ⟨-, -, a, -, -, status⟩, -⟩
  · rw [queued j job]
    decide
  · rw [status j job]
    exact liveJobStatus_active a

theorem Life.History.executors_length (history : life.History past current) :
    (life.executors task).length ≤ 1 := by
  have distinct := history.flat.jobIds
  rw [← history.flat.jobs] at distinct
  refine length_le_one ((List.Nodup.of_map _ distinct).filter _) ?_
  intro first firstExecutes second secondExecutes
  obtain ⟨firstMember, -, firstActive⟩ := Life.mem_executors.mp firstExecutes
  obtain ⟨secondMember, -, secondActive⟩ := Life.mem_executors.mp secondExecutes
  obtain ⟨e, rfl, job⟩ := history.active_current firstMember firstActive
  obtain ⟨e', same, job'⟩ := history.active_current secondMember secondActive
  obtain rfl := Option.some.inj same
  exact Option.some.inj (job.symm.trans job')

/-- What setting a job to an ended status leaves active was active. -/
theorem Life.active_setJob
    {id : Option Uuid} {status : JobStatus} (member : j ∈ (life.setJob id status).jobs)
    (active : j.status.Active) (before : ∀ old ∈ life.jobs, some old.id = id → status.Active →
      old.status.Active) :
    ∃ k ∈ life.jobs, k.status.Active ∧ k.task = j.task := by
  rcases mem_updateWhere.mp member with ⟨old, inside, found, rfl⟩ | ⟨kept, -⟩
  · exact ⟨old, inside, before old inside (of_decide_eq_true found) active, rfl⟩
  · exact ⟨j, kept, active, rfl⟩

variable {free : Uuid → Prop}

/-- A change makes no request active, except for a reservation. -/
theorem Life.History.active_apply (history : life.History past current) (change : Change)
    (allowed : change.Allowed free life) (member : j ∈ (change.apply life).jobs)
    (active : j.status.Active) :
    (∃ k ∈ life.jobs, k.status.Active ∧ k.task = j.task) ∨ (∃ candidateId slotId route jobId,
        change = .reserve candidateId slotId route jobId) ∧ j.task = life.identity.task := by
  have ended : ∀ {id : Option Uuid} (outcome : Outcome),
      j ∈ (life.setJob id outcome.jobStatus).jobs →
        ∃ k ∈ life.jobs, k.status.Active ∧ k.task = j.task :=
    fun outcome inside => Life.active_setJob inside active
      fun _ _ _ impossible => absurd impossible outcome.jobStatus_ended
  cases change with
  | reserve candidateId slotId route jobId =>
    rcases List.mem_append.mp member with old | new
    · exact .inl ⟨j, old, active, rfl⟩
    · obtain ⟨id, -, rfl⟩ := List.mem_map.mp new
      exact .inr ⟨⟨candidateId, slotId, route, jobId, rfl⟩, rfl⟩
  | retire candidate => exact .inl (ended .cancelled member)
  | abandon candidate result =>
    cases candidate with
    | none => exact .inl ⟨j, member, active, rfl⟩
    | some row => exact .inl (ended .cancelled member)
  | claim candidate slotId attemptId key =>
    obtain ⟨own, -, -, state, unclaimed, -⟩ := allowed
    left
    refine Life.active_setJob member active fun old inside named _ => ?_
    obtain ⟨e, rfl, rfl, queued, -⟩ := history.unclaimed_current own
      (by rw [state]; decide) unclaimed
    have job := history.flat.jobOf (by simp) inside named.symm
    exact history.current_active job
  | start x scope =>
    obtain ⟨own, -, state, -⟩ := allowed
    left
    refine Life.active_setJob member active fun old inside named _ => ?_
    obtain ⟨e, s, rfl, candidate, -⟩ := history.execution_open own
      (.inr (.inl (by rw [state]; decide)))
    rw [← candidate] at named
    have job := history.flat.jobOf (by simp) inside named.symm
    exact history.current_active job
  | finish x result submitted => exact .inl (ended result.outcome member)
  | recover x result submitted => exact .inl (ended result.outcome member)
  | retry x authorizationId => exact .inl (ended .failed member)
  | _ => exact .inl ⟨j, member, active, rfl⟩

/-- A path makes no request active, except by a reservation. -/
theorem Life.Consistent.active_applyAll (consistent : life.Consistent) {changes : List Change}
    (path : life.Path free changes) (member : j ∈ (life.applyAll changes).jobs)
    (active : j.status.Active) :
    (∃ k ∈ life.jobs, k.status.Active ∧ k.task = j.task) ∨ (∃ candidateId slotId route jobId,
        .reserve candidateId slotId route jobId ∈ changes) ∧ j.task = life.identity.task := by
  induction changes generalizing life with
  | nil => exact .inl ⟨j, member, active, rfl⟩
  | cons change rest ih =>
    obtain ⟨allowed, path⟩ := path
    rcases ih (consistent.apply change allowed) path member
      with ⟨k, inside, alive, same⟩ |
        ⟨⟨candidateId, slotId, route, jobId, later⟩, task⟩
    · obtain ⟨past, current, consistent⟩ := consistent
      rcases consistent.history.active_apply change allowed inside alive with
        ⟨old, oldMember, oldActive, sameTask⟩ |
          ⟨⟨candidateId, slotId, route, jobId, rfl⟩, task⟩
      · exact .inl ⟨old, oldMember, oldActive, sameTask.trans same⟩
      · exact .inr ⟨⟨candidateId, slotId, route, jobId, List.mem_cons_self⟩, same.symm.trans task⟩
    · rw [identity_apply] at task
      exact .inr ⟨⟨candidateId, slotId, route, jobId, List.mem_cons_of_mem _ later⟩, task⟩

end Requests

/-! ## Within the store -/

/-- The input reserves capacity for the request, which waits, under the lock of
its task. -/
structure Input.Reserves (input : Input) (rows : RequestRows) : Prop where
  action : input.action = .reserve rows.request.id
  locked : input.env.lockManagedTask rows.request = .ok ()
  waiting : rows.request.state = .waiting

section Stores

variable {env : Env} {store store' : Store} {input : Input} {answer : Answer}
  {rows rows' : RequestRows} {j : JobLife}

/-- Only a reservation reserves. -/
theorem Action.Makes.reserves
    {action : Action} {changes : List Change} (makes : action.Makes changes)
    {candidateId slotId : Uuid} {route : Route} {jobId : Option Uuid}
    (reserves : .reserve candidateId slotId route jobId ∈ changes) :
    ∃ id, action = .reserve id := by
  have begins : (Change.reserve candidateId slotId route jobId).Begins := trivial
  cases action with
  | reserve id => exact ⟨id, rfl⟩
  | recover => exact absurd begins (RecoveryPath.not_begins makes _ reserves)
  | cancel =>
    rcases makes with rfl | ⟨earlier, key, digest, path, rfl⟩
    · exact absurd reserves List.not_mem_nil
    · rcases List.mem_append.mp reserves with early | last
      · exact absurd begins (path.not_begins _ early)
      · exact absurd (List.mem_singleton.mp last) nofun
  | submitStop => exact absurd begins (StopPath.not_begins makes _ reserves)
  | submitHistoricalStop => exact absurd begins (StopPath.not_begins makes _ reserves)
  | submitClaimBoundStop => exact absurd begins (StopPath.not_begins makes _ reserves)
  | closeSignedOff => exact absurd begins (StopPath.not_begins makes _ reserves)
  | _ =>
    exfalso
    simp only [Action.Makes] at makes
    grind

/-- Without the lock of its task a request is not reserved for. -/
theorem reserve_refused
    {code : DispatchErrorCode} (refused : env.lockManagedTask rows.request = .error code)
    (consistent : (lifeOf rows).Consistent) (reserved : reserveRequest env store rows = .ok rows') :
    ∃ changes, Refines store.Free rows rows' changes ∧ ∀ candidateId slotId route jobId,
        .reserve candidateId slotId route jobId ∉ changes := by
  have unauthorized : ∃ error, authorizeReservation env rows.request = .error error := by
    unfold authorizeReservation
    cases env.authorizeDispatch (requestActor rows.request) rows.request.input .claim with
    | error error => exact ⟨error, rfl⟩
    | ok => exact ⟨code, refused⟩
  obtain ⟨error, unauthorized⟩ := unauthorized
  have rejected : rows.request.state = .waiting →
      reserveRequest.reserveAuthorized env store rows = .ok rows' →
      ∃ changes, Refines store.Free rows rows' changes ∧ ∀ candidateId slotId route jobId,
          .reserve candidateId slotId route jobId ∉ changes := by
    intro waiting written
    simp only [reserveRequest.reserveAuthorized, unauthorized] at written
    split at written
    · rcases rejectUnstarted_refines consistent written with
        refines | ⟨c, row, -, refines⟩
      · exact ⟨_, refines, by simp⟩
      · exact ⟨_, refines, by simp⟩
    · obtain rfl := Except.ok.inj written
      rcases recordWaitingReason_refines waiting _ with
        refines | ⟨reason, refines⟩
      · exact ⟨_, refines, by simp⟩
      · exact ⟨_, refines, by simp⟩
  simp only [reserveRequest] at reserved
  split at reserved
  · obtain rfl := Except.ok.inj reserved
    exact ⟨[], .quiet rfl, by simp⟩
  · rename_i possible
    have waiting := not_not.mp (not_or.mp (not_or.mp possible).2).1
    split at reserved
    · simp only [bind_eq_ok] at reserved
      obtain ⟨-, -, reserved⟩ := reserved
      exact rejected waiting reserved
    · exact rejected waiting reserved

/-- The rows that the reservation of a request writes. -/
theorem reserve_written {id : Uuid} (sound : store.Sound)
    (committed : perform store ⟨env, .reserve id⟩ = .ok (store', answer)) :
    ∃ rows rows', rows ∈ store.requests ∧ rows.request.id = id ∧ rows'.request.id = id ∧
      reserveRequest env store rows = .ok rows' ∧
      store' = { store.put rows' with clock := env.clock } := by
  obtain ⟨changed, transacted, -, keys, rfl⟩ := perform_eq_ok committed
  obtain ⟨rows, rows', found, written, rfl⟩ := onRows_eq_ok transacted
  have member := target?_mem found
  have named : rows.request.id = id := (store.request?_eq_some found).2
  have written := (silently_eq_ok.mp written).1
  have sameId : rows'.request.id = rows.request.id := by
    rcases reserve_refines (keepsKeys sound.keys keys member)
        (sound.consistent rows member) written with
      refines | ⟨_, _, -, refines⟩ | ⟨_, refines⟩ | ⟨_, _, _, _, refines⟩
    all_goals exact refines.sameId
  exact ⟨rows, rows', member, named, sameId.trans named, written, rfl⟩

/-- A reservation writes the rows of its request, and no others. -/
theorem Store.Sound.reserve_rows
    {id : Uuid} (sound : store.Sound) (action : input.action = .reserve id)
    (member : rows ∈ store.requests) (member' : rows' ∈ (execute store input).requests)
    (sameId : rows'.request.id = rows.request.id) :
    rows' = rows ∨ rows.request.id = id ∧ reserveRequest input.env store rows = .ok rows' := by
  obtain ⟨env, action⟩ := input
  cases action
  rcases sound.execute_cases ⟨env, .reserve id⟩ with
    ⟨⟨answer, committed⟩, -⟩ | same
  swap
  · rw [same] at member'
    exact .inl (sound.request_unique member member' sameId)
  obtain ⟨target, target', known, named, named', written, stored⟩ := reserve_written sound committed
  rw [stored] at member'
  rcases mem_updateWhere.mp member' with ⟨-, -, -, rfl⟩ | ⟨untouched, -⟩
  · have its : rows.request.id = id := sameId.symm.trans named'
    obtain rfl := sound.request_unique known member (its.trans named.symm)
    exact .inr ⟨its, written⟩
  · exact .inl (sound.request_unique member untouched sameId)

/-- Where an active job of a request comes from: the request was active, or the
step reserves for it. -/
theorem Store.Sound.active_origin
    (sound : store.Sound) (member : rows' ∈ (execute store input).requests)
    (inside : j ∈ (lifeOf rows').jobs) (active : j.status.Active) :
    ∃ rows ∈ store.requests, rows.request.identity = rows'.request.identity ∧
      ((∃ k ∈ (lifeOf rows).jobs, k.status.Active ∧ k.task = j.task) ∨
        input.Reserves rows ∧ j.task = rows.request.identity.task) := by
  cases sound.origin member with
  | submitted life =>
    rw [life] at inside
    exact absurd inside List.not_mem_nil
  | kept rows own life =>
    rw [life] at inside
    have identity : rows'.request.identity = rows.request.identity := congrArg Life.identity life
    exact ⟨rows, own, identity.symm, .inl ⟨j, inside, active, rfl⟩⟩
  | changed rows changes own evolves =>
    have identity : rows.request.identity = rows'.request.identity := by
      have kept := identity_applyAll changes (lifeOf rows)
      rw [← evolves.refines.life] at kept
      exact kept.symm
    refine ⟨rows, own, identity, ?_⟩
    have consistent := sound.consistent rows own
    rw [evolves.refines.life] at inside
    rcases consistent.active_applyAll evolves.refines.path inside active with
      earlier | ⟨⟨candidateId, slotId, route, jobId, reserves⟩, task⟩
    · exact .inl earlier
    obtain ⟨id, action⟩ := evolves.makes.reserves reserves
    have waiting : rows.request.state = .waiting := by
      have makes := evolves.makes
      rw [action] at makes
      rcases makes with rfl | ⟨_, _, rfl⟩ | ⟨_, rfl⟩ | ⟨_, _, _, _, rfl⟩
      · exact absurd reserves List.not_mem_nil
      · exact absurd (List.mem_singleton.mp reserves) nofun
      · exact absurd (List.mem_singleton.mp reserves) nofun
      · exact evolves.refines.path.1.1
    rw [← evolves.refines.life] at inside
    rcases sound.reserve_rows action own member
        (congrArg RequestIdentity.requestId identity).symm with
      rfl | ⟨rfl, written⟩
    · exact .inl ⟨j, inside, active, rfl⟩
    cases locked : input.env.lockManagedTask rows.request with
    | ok => exact .inr ⟨⟨action, locked, waiting⟩, task⟩
    | error code =>
      obtain ⟨others, refines, none⟩ := reserve_refused locked consistent written
      rw [refines.life] at inside
      rcases consistent.active_applyAll refines.path inside active with
        earlier | ⟨⟨candidateId, slotId, route, jobId, impossible⟩, -⟩
      · exact .inl earlier
      · exact absurd impossible (none candidateId slotId route jobId)

end Stores

/-! ## The jobs table -/

/-- The job implements the task now. -/
def JobRow.Executes (row : JobRow) (task : String) : Prop :=
  row.kind = .taskImplementation ∧ row.taskId = some task ∧ row.status.Active

instance (row : JobRow) (task : String) : Decidable (row.Executes task) :=
  inferInstanceAs (Decidable (_ ∧ _))

/-- Some job of the request implements the task now. -/
def RequestRows.Executes (rows : RequestRows) (task : String) : Prop :=
  ∃ j ∈ rows.jobs, j.Executes task

instance (rows : RequestRows) (task : String) : Decidable (rows.Executes task) :=
  inferInstanceAs (Decidable (∃ _ ∈ _, _))

section Tables

variable {store : Store} {rows rows' : RequestRows} {task : String}

theorem JobRow.executes_life {row : JobRow} :
    row.Executes task ↔ row.life.task = some task ∧ row.life.status.Active := by
  unfold JobRow.Executes JobRow.life
  by_cases implements : row.kind = .taskImplementation <;> simp [implements]

theorem RequestRows.executes_life :
    rows.Executes task ↔ ∃ j ∈ (lifeOf rows).jobs, j.task = some task ∧ j.status.Active := by
  simp only [RequestRows.Executes, JobRow.executes_life, lifeOf, List.mem_map,
    exists_exists_and_eq_and]

/-- A request has one executor of a task at most. -/
theorem executors_request (consistent : (lifeOf rows).Consistent) :
    rows.jobs.countP (fun row => row.Executes task) ≤ 1 := by
  obtain ⟨past, current, consistent⟩ := consistent
  have count : rows.jobs.countP (fun row => row.Executes task) =
      ((lifeOf rows).executors task).length := by
    simp only [Life.executors, lifeOf, ← List.countP_eq_length_filter,
      List.countP_map, JobRow.executes_life, Function.comp_def]
  rw [count]
  exact consistent.history.executors_length

/-- Where an executor comes from. -/
theorem Store.Sound.executes_origin (sound : store.Sound) {input : Input}
    (member : rows' ∈ (execute store input).requests) (executes : rows'.Executes task) :
    ∃ rows ∈ store.requests, rows.request.identity = rows'.request.identity ∧ (rows.Executes task ∨
        input.Reserves rows ∧ rows.request.identity.task = some task) := by
  obtain ⟨j, inside, implements, active⟩ := RequestRows.executes_life.mp executes
  obtain ⟨rows, own, identity, ⟨k, kept, alive, same⟩ | ⟨reserves, task⟩⟩ :=
    sound.active_origin member inside active
  · exact ⟨rows, own, identity, .inl (RequestRows.executes_life.mpr
      ⟨k, kept, same.trans implements, alive⟩)⟩
  · exact ⟨rows, own, identity, .inr ⟨reserves, task.symm.trans implements⟩⟩

/-- With one executing request at most there is one executor at most. -/
theorem Store.Sound.executors_le (sound : store.Sound)
    (single : ∀ first ∈ store.requests, ∀ second ∈ store.requests,
      first.Executes task → second.Executes task → first = second) :
    store.allJobs.countP (fun row => row.Executes task) ≤ 1 := by
  rw [Store.allJobs, List.countP_flatMap]
  have distinct := sound.keys.requests
  have bounds : ∀ rows ∈ store.requests, rows.jobs.countP (fun row => row.Executes task) ≤ 1 :=
    fun rows member => executors_request (sound.consistent rows member)
  revert distinct bounds single
  generalize store.requests = requests
  intro single distinct bounds
  induction requests with
  | nil => exact Nat.zero_le 1
  | cons first rest ih =>
    rw [List.map_cons, List.sum_cons]
    by_cases executes : first.Executes task
    · have others : ((rest.map (List.countP (fun row => row.Executes task) ∘
          RequestRows.jobs)).sum) = 0 := by
        rw [List.sum_eq_zero_iff_forall_eq_nat]
        intro count counted
        obtain ⟨rows, member, rfl⟩ := List.mem_map.mp counted
        rw [Function.comp_apply, List.countP_eq_zero]
        intro row own also
        have same := single first List.mem_cons_self rows (List.mem_cons_of_mem _ member) executes
          ⟨row, own, of_decide_eq_true also⟩
        subst same
        exact (List.nodup_cons.mp distinct).1 (List.mem_map_of_mem member)
      rw [others]
      exact bounds first List.mem_cons_self
    · have none : first.jobs.countP (fun row => row.Executes task) = 0 := by
        rw [List.countP_eq_zero]
        intro row own also
        exact executes ⟨row, own, of_decide_eq_true also⟩
      rw [Function.comp_apply, none, Nat.zero_add]
      exact ih (fun one oneMember other otherMember => single one
          (List.mem_cons_of_mem _ oneMember) other
          (List.mem_cons_of_mem _ otherMember))
        (List.nodup_cons.mp distinct).2
        (fun rows member => bounds rows (List.mem_cons_of_mem _ member))

end Tables

end Dispatch
end Scrum4Me
