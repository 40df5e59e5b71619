import Scrum4Me.Lifecycle.History

/-!
# How a change carries a history on

For every change, the history of the life it leads to: the open episode goes on,
is closed, or a new one is opened.
-/

namespace Scrum4Me
namespace Dispatch

open Foundation

namespace Life.History

variable {life life' : Life} {past : List Episode} {current : Option Episode}
  {e : Episode} {x : Execution} {free : Uuid → Prop}

/-! ## The columns of the open episode -/

theorem candidates_current (history : life.History past (some e)) :
    life.candidates = past.map Episode.candidate ++ [e.candidate] := by
  simpa using history.flat.candidates

theorem reservations_current (history : life.History past (some e)) :
    life.reservations = past.map Episode.reservation ++ [e.reservation] := by
  simpa using history.flat.reservations

theorem attempts_current (history : life.History past (some e)) :
    life.attempts = past.filterMap Episode.attempt ++ e.attempt.toList := by
  simpa [filterMap_cons_toList] using history.flat.attempts

theorem jobs_current (history : life.History past (some e)) :
    life.jobs = past.filterMap Episode.job ++ e.job.toList := by
  simpa [filterMap_cons_toList] using history.flat.jobs

theorem setCandidate_current
    (history : life.History past (some e)) {id : Uuid} (own : id = e.candidate.id)
    (change : CandidateLife → CandidateLife) :
    updateWhere (fun row => row.id = id) change life.candidates =
      past.map Episode.candidate ++ [change e.candidate] := by
  subst own
  simpa using history.flatCurrent.updateCandidate change

theorem setReservation_current
    (history : life.History past (some e)) {id : Uuid} (own : id = e.candidate.id)
    (isOpen : e.reservation.isOpen = true) (change : ReservationLife → ReservationLife) :
    updateWhere (fun row => row.candidateId = id ∧ row.isOpen = true) change life.reservations =
      past.map Episode.reservation ++ [change e.reservation] := by
  subst own
  simpa using history.flatCurrent.updateReservation isOpen change

theorem setAttempt_current (history : life.History past (some e)) {a : AttemptLife}
    (attempt : e.attempt = some a) (change : AttemptLife → AttemptLife) :
    updateWhere (fun row => row.id = a.id) change life.attempts =
      past.filterMap Episode.attempt ++ [change a] := by
  simpa using history.flatCurrent.updateAttempt attempt change

theorem setJob_current (history : life.History past (some e)) {id : Option Uuid}
    (own : id = e.candidate.jobId) (change : JobLife → JobLife) :
    updateWhere (fun row => some row.id = id) change life.jobs =
      past.filterMap Episode.job ++ (e.job.map change).toList := by
  subst own
  simpa using history.flatCurrent.updateJob change

/-! ## Opening an episode -/

theorem reserve (history : life.History past current) {candidateId slotId : Uuid} {route : Route}
    {jobId : Option Uuid} (allowed :
      (Change.reserve candidateId slotId route jobId).Allowed free life) :
    ∃ e, ((Change.reserve candidateId slotId route jobId).apply life).History past (some e) := by
  obtain ⟨waiting, -, freshCandidate, freshJob, -⟩ := allowed
  obtain rfl : current = none := by
    cases current with
    | none => rfl
    | some e =>
      rcases history.agrees with ⟨-, state⟩ | ⟨s, -, state⟩
      · rw [waiting] at state
        cases state
      · rw [waiting] at state
        cases s <;> simp [ExecutionState.dispatchState] at state
  have flat := history.flat
  simp only [Option.toList_none, List.append_nil] at flat
  rw [flat.candidates, List.map_map] at freshCandidate
  refine
    ⟨{ candidate :=
         { id := candidateId
           generation := life.generation + 1
           route := route
           state := .reserved
           slotId := slotId
           jobId := jobId
           claimed := false }
       reservation := { candidateId := candidateId, slotId := slotId, isOpen := true }
       job := jobId.map fun id => { id := id, status := .queued, task := life.identity.task }
       attempt := none }, ?_, history.closed, ?_⟩
  · refine
      { candidates := by
          simp [Change.apply, Life.announced, Life.moved, flat.candidates]
        reservations := by simp [Change.apply, Life.announced, Life.moved, flat.reservations]
        attempts := by simp [Change.apply, Life.announced, Life.moved, flat.attempts]
        jobs := ?_
        candidateIds := ?_
        attemptIds := by simpa using flat.attemptIds
        jobIds := ?_
        linked := ?_
        generations := ?_ }
    · cases jobId <;> simp [Change.apply, Life.announced, Life.moved, flat.jobs]
    · rw [Option.toList_some, List.map_append]
      refine List.nodup_append.mpr ⟨flat.candidateIds, by simp, ?_⟩
      intro id member other new same
      obtain rfl : other = candidateId := by simpa using new
      exact freshCandidate (by simpa [same] using member)
    · cases jobId with
      | none => simpa using flat.jobIds
      | some id =>
        have absent := freshJob id rfl
        rw [flat.jobs] at absent
        rw [Option.toList_some, List.filterMap_append, List.map_append]
        refine List.nodup_append.mpr ⟨flat.jobIds, by simp, ?_⟩
        intro old member other new same
        obtain rfl : other = id := by simpa using new
        exact absent (by simpa [same] using member)
    · intro episode member
      rcases mem_inserted.mp member with old | rfl
      · exact flat.linked episode old
      · exact
          { reservation := rfl
            slot := rfl
            job := by cases jobId <;> rfl
            attempt := by simp
            claimed := rfl }
    · have generations := flat.generations
      rw [Option.toList_some, List.map_append, generations]
      simp [Change.apply, Life.announced, Life.moved, List.range'_concat, Nat.add_comm]
  · exact .inl ⟨⟨rfl, rfl, rfl, by cases jobId <;> simp⟩, rfl⟩

/-! ## Closing an unclaimed episode -/

/-- Retiring the open candidate closes its episode. -/
theorem retireCandidate
    (history : life.History past (some e)) (life' : Life) (unclaimed : e.Unclaimed)
    (candidates : life'.candidates = (Change.retireCandidate e.candidate life).candidates)
    (reservations : life'.reservations = (Change.retireCandidate e.candidate life).reservations)
    (attempts : life'.attempts = life.attempts)
    (jobs : life'.jobs = (Change.retireCandidate e.candidate life).jobs)
    (generation : life'.generation = life.generation) (agrees : Agrees life'.state none) :
    ∃ e', life'.History (past ++ [e']) none := by
  have linked := history.flat.linked e (by simp)
  obtain ⟨isOpen, -, noAttempt, -⟩ := unclaimed
  refine
    ⟨{ e with
       candidate := { e.candidate with state := .retired }
       reservation := { e.reservation with isOpen := false }
       job := e.job.map fun row => { row with status := .cancelled } },
     history.close ⟨rfl, rfl, rfl, ?_⟩ ?_ generation ?_ ?_ ?_ ?_ ?_ agrees⟩
  · cases e.job <;> rfl
  · exact
      { reservation := linked.reservation
        slot := linked.slot
        job := by
          show e.candidate.jobId = _
          rw [linked.job]
          cases e.job <;> rfl
        attempt := linked.attempt
        claimed := linked.claimed }
  · rw [candidates]
    exact history.setCandidate_current rfl _
  · rw [reservations]
    exact history.setReservation_current rfl isOpen _
  · rw [attempts]
    exact history.attempts_current
  · rw [jobs]
    exact history.setJob_current rfl _
  · refine ⟨rfl, .inl ⟨rfl, noAttempt, ?_⟩⟩
    cases e.job <;> simp

variable {candidate : CandidateLife} {submitted : ResultHash} {s : ExecutionState}

theorem retire (history : life.History past current)
    (allowed : (Change.retire candidate).Allowed free life) :
    ∃ e', ((Change.retire candidate).apply life).History (past ++ [e']) none := by
  obtain ⟨member, -, -, -, reserved, unclaimed⟩ := allowed
  obtain ⟨e, rfl, rfl, own, -⟩ := history.unclaimed_current member
    (by rw [reserved]; decide) unclaimed
  exact history.retireCandidate _ own rfl rfl rfl rfl rfl (.inl rfl)

variable {result : ResultRow}

theorem abandon (history : life.History past current) {candidate : Option CandidateLife}
    (allowed : (Change.abandon candidate result).Allowed free life) :
    ∃ past', ((Change.abandon candidate result).apply life).History past' none := by
  obtain ⟨notTerminal, -, -, -, -, about⟩ := allowed
  have ends : Agrees result.outcome.dispatchState none := .inr result.outcome.terminal_dispatchState
  cases candidate with
  | some row =>
    obtain ⟨member, -, isOpen, unclaimed⟩ := about
    obtain ⟨e, rfl, rfl, own, -⟩ := history.unclaimed_current member isOpen unclaimed
    obtain ⟨e', closed⟩ :=
      history.retireCandidate ((Change.abandon (some e.candidate) result).apply life)
        own rfl rfl rfl rfl rfl ends
    exact ⟨_, closed⟩
  | none =>
    obtain rfl : current = none := by
      cases current with
      | none => rfl
      | some e =>
        exfalso
        have closed := about e.candidate (history.flat.mem_candidates.mpr ⟨e, by simp, rfl⟩)
          history.generation_current
        rcases history.agrees with ⟨⟨-, state, -⟩, -⟩ | ⟨s, ⟨-, state, -⟩, -⟩
        · exact closed (by rw [state]; decide)
        · exact closed (by rw [state]; cases s <;> decide)
    exact ⟨past, history.congr rfl rfl rfl rfl rfl ends⟩

/-! ## Moving the open execution -/

/-- An execution stays linked where only states, statuses and marks change. -/
theorem linked_moved {a : AttemptLife} (linked : e.Linked) (attempt : e.attempt = some a)
    (state : CandidateState) (isOpen : Bool) (moved : AttemptLife)
    (sameCandidate : moved.candidateId = a.candidateId) {status : JobLife → JobLife}
    (sameJob : ∀ j, (status j).id = j.id) :
    Episode.Linked
      { candidate := { e.candidate with state := state }
        reservation := { e.reservation with isOpen := isOpen }
        attempt := some moved
        job := e.job.map status } where
  reservation := linked.reservation
  slot := linked.slot
  job := by
    show e.candidate.jobId = _
    rw [linked.job, Option.map_map]
    exact congrArg (Option.map · e.job) (funext sameJob).symm
  attempt := by
    intro b same
    obtain rfl := Option.some.inj same
    exact sameCandidate.trans (linked.attempt a attempt)
  claimed := by
    show e.candidate.claimed = _
    rw [linked.claimed, attempt]
    rfl

/-- The open execution moves to another state. -/
theorem move (history : life.History past (some e)) (s : ExecutionState)
    (change : AttemptLife → AttemptLife) (status : JobLife → JobLife)
    (isOpen : e.reservation.isOpen = true) (candidate : e.candidate = x.candidate)
    (attempt : e.attempt = some x.attempt) (sameId : (change x.attempt).id = x.attempt.id)
    (sameCandidate : (change x.attempt).candidateId = x.attempt.candidateId)
    (attemptState : (change x.attempt).state = s.attemptState) (sameJob : ∀ j, (status j).id = j.id)
    (jobStatus : ∀ j ∈ e.job, (status j).status = liveJobStatus (change x.attempt))
    (candidates : life'.candidates = (life.setCandidate x.candidate.id fun row =>
        { row with state := s.candidateState }).candidates)
    (reservations : life'.reservations = life.reservations)
    (attempts : life'.attempts = (life.setAttempt x.attempt.id change).attempts)
    (jobs : life'.jobs = past.filterMap Episode.job ++ (e.job.map status).toList)
    (generation : life'.generation = life.generation) (state : life'.state = s.dispatchState) :
    ∃ e', life'.History past (some e') := by
  have linked := history.flat.linked e (by simp)
  refine
    ⟨{ e with
       candidate := { e.candidate with state := s.candidateState }
       attempt := some (change x.attempt)
       job := e.job.map status },
     history.advance ⟨rfl, rfl, ?_, ?_⟩ ?_ generation ?_ ?_ ?_ jobs ?_⟩
  · rw [attempt, Option.map_some, Option.map_some, sameId]
  · rw [Option.map_map]
    exact congrArg (Option.map · e.job) (funext sameJob)
  · exact linked_moved linked attempt _ _ _ sameCandidate sameJob
  · rw [candidates]
    exact history.setCandidate_current (by rw [candidate]) _
  · rw [reservations]
    exact history.reservations_current
  · rw [attempts]
    exact history.setAttempt_current attempt _
  · refine .inr ⟨s, ⟨isOpen, rfl, change x.attempt, rfl, attemptState, ?_⟩, .inl state⟩
    intro j member
    obtain ⟨old, oldMember, rfl⟩ := Option.map_eq_some_iff.mp member
    exact jobStatus old oldMember

/-- A move that leaves the job alone keeps its status right. -/
theorem moveExecution (history : life.History past (some e)) (s' : ExecutionState)
    (executing : e.Executing s) (candidate : e.candidate = x.candidate)
    (attempt : e.attempt = some x.attempt) {change : AttemptLife → AttemptLife}
    (sameId : (change x.attempt).id = x.attempt.id)
    (sameCandidate : (change x.attempt).candidateId = x.attempt.candidateId)
    (sameStart : (change x.attempt).started = x.attempt.started)
    (attemptState : (change x.attempt).state = s'.attemptState) :
    ∃ e', (Change.moveExecution x change s'.candidateState s'.dispatchState
      life).History past (some e') := by
  obtain ⟨isOpen, -, a, own, -, live⟩ := executing
  rw [attempt] at own
  obtain rfl := Option.some.inj own
  refine history.move s' change id isOpen candidate attempt sameId
    sameCandidate attemptState (fun _ => rfl) ?_ rfl rfl rfl ?_ rfl rfl
  · intro j member
    rw [id_eq, live j member, liveJobStatus, liveJobStatus, sameStart]
  · rw [Option.map_id, id_eq]
    exact history.jobs_current

theorem claim (history : life.History past current) {slotId attemptId : Uuid} {key : ClaimKey}
    (allowed : (Change.claim candidate slotId attemptId key).Allowed free life) :
    ∃ e', ((Change.claim candidate slotId attemptId key).apply life).History past (some e') := by
  obtain ⟨member, -, -, reserved, unclaimed, -, fresh, -⟩ := allowed
  obtain ⟨e, rfl, rfl, own, -⟩ := history.unclaimed_current member
    (by rw [reserved]; decide) unclaimed
  have linked := history.flat.linked e (by simp)
  obtain ⟨isOpen, -, noAttempt, -⟩ := own
  have columns := history.attempts_current
  rw [noAttempt, Option.toList_none, List.append_nil] at columns
  refine
    ⟨{ candidate :=
         { e.candidate with
           state := .claimed
           slotId := slotId
           claimed := true }
       reservation := { e.reservation with slotId := slotId }
       job := e.job.map fun row => { row with status := .claimed }
       attempt := some
         { id := attemptId
           candidateId := e.candidate.id
           claim := key
           state := .claimed
           scopeId := none
           started := false
           stopped := false
           revoked := false } }, ?_, history.closed, ?_⟩
  · have flat := history.flat
    have ids := flat.candidateIds
    have attemptIds := flat.attemptIds
    have jobIds := flat.jobIds
    have generations := flat.generations
    rw [columns] at fresh
    simp only [Option.toList_some, List.filterMap_append, List.map_append,
      filterMap_cons_toList, List.filterMap_nil, List.append_nil, noAttempt,
      Option.toList_none, List.map_cons, List.map_nil, ← Option.toList_map]
      at ids attemptIds jobIds generations
    refine
      { candidates := by
          rw [Option.toList_some, List.map_append]
          exact history.setCandidate_current rfl _
        reservations := by
          rw [Option.toList_some, List.map_append]
          exact history.setReservation_current rfl isOpen _
        attempts := by
          rw [Option.toList_some, List.filterMap_append]
          show life.attempts ++ _ = _
          rw [columns]
          rfl
        jobs := by
          rw [Option.toList_some, List.filterMap_append,
            filterMap_cons_toList, List.filterMap_nil, List.append_nil]
          exact history.setJob_current rfl _
        candidateIds := by simpa using ids
        attemptIds := ?_
        jobIds := ?_
        linked := ?_
        generations := by
          simpa [Change.apply, Change.consume, Life.announced, Life.moved,
            Life.setJob, Life.setCandidate, Life.setReservation]
            using generations }
    · rw [Option.toList_some, List.filterMap_append, List.map_append]
      refine List.nodup_append.mpr ⟨attemptIds, by simp, ?_⟩
      intro id old other new same
      obtain rfl : other = attemptId := by simpa using new
      exact fresh (by rwa [← same])
    · cases job : e.job <;>
        simpa [job, filterMap_cons_toList] using jobIds
    · intro episode inside
      rcases mem_inserted.mp inside with old | rfl
      · exact flat.linked episode (by simp [old])
      · exact
          { reservation := linked.reservation
            slot := rfl
            job := by
              show e.candidate.jobId = _
              rw [linked.job]
              cases e.job <;> rfl
            attempt := by
              intro a same
              obtain rfl := Option.some.inj same
              rfl
            claimed := rfl }
  · refine .inr ⟨.claimed, ⟨isOpen, rfl, _, rfl, rfl, ?_⟩, .inl rfl⟩
    cases e.job <;> simp [liveJobStatus]

theorem start {scope : RuntimeScope} (history : life.History past current)
    (allowed : (Change.start x scope).Allowed free life) :
    ∃ e', ((Change.start x scope).apply life).History past (some e') := by
  obtain ⟨inLife, -, claimed, -, state⟩ := allowed
  obtain ⟨e, s, rfl, candidate, attempt, executing, -⟩ :=
    history.execution_open inLife (.inr (.inl (by rw [claimed]; decide)))
  refine history.move .running (fun row =>
      { row with
        state := .running
        scopeId := some scope.scopeId
        started := true })
    (fun row => { row with status := .running })
    executing.1 candidate attempt rfl rfl rfl (fun _ => rfl) (fun _ _ => rfl) rfl rfl rfl ?_ rfl rfl
  exact history.setJob_current (by rw [candidate]) _

theorem resume (history : life.History past current)
    (allowed : (Change.resume x).Allowed free life) :
    ∃ e', ((Change.resume x).apply life).History past (some e') := by
  obtain ⟨inLife, -, uncertain, -⟩ := allowed
  obtain ⟨e, s, rfl, candidate, attempt, executing, -⟩ :=
    history.execution_open inLife (.inr (.inl (by rw [uncertain]; decide)))
  exact history.moveExecution .running executing candidate attempt rfl rfl rfl rfl

theorem lapse (history : life.History past current) (allowed : (Change.lapse x).Allowed free life) :
    ∃ e', ((Change.lapse x).apply life).History past (some e') := by
  obtain ⟨inLife, -, state, -⟩ := allowed
  obtain ⟨e, s, rfl, candidate, attempt, executing, -⟩ :=
    history.execution_open inLife (.inr (.inl (by rcases state with h | h <;> rw [h] <;> decide)))
  exact history.moveExecution .uncertain executing candidate attempt rfl rfl rfl rfl

theorem requestStop (history : life.History past current)
    (allowed : (Change.requestStop x).Allowed free life) :
    ∃ e', ((Change.requestStop x).apply life).History past (some e') := by
  obtain ⟨inLife, -, -, -, isOpen⟩ := allowed
  obtain ⟨e, s, rfl, candidate, attempt, executing, -⟩ :=
    history.execution_open inLife (isOpen.imp_right fun alive => .inl alive)
  exact history.moveExecution .cancelRequested executing candidate attempt rfl rfl rfl rfl

/-- The stop of an attempt that has not stopped before leaves the history as it
was, but for its marks. -/
theorem stop (history : life.History past current) (mark : StopMark) (inLife : x.In life)
    (running : x.attempt.stopped = false) :
    ∃ e, current = some e ∧ ∃ e', ((Change.stop x mark).apply life).History past (some e') := by
  obtain ⟨e, s, rfl, candidate, attempt, executing, state⟩ :=
    history.execution_open inLife (.inr (.inr running))
  have linked := history.flat.linked e (by simp)
  refine ⟨e, rfl,
    { e with
      attempt := some { x.attempt with stopped := true, revoked := true } },
    history.advance ⟨rfl, rfl, ?_, rfl⟩ ?_ rfl
      history.candidates_current history.reservations_current
      (history.setAttempt_current attempt _) history.jobs_current ?_⟩
  · rw [attempt]
    rfl
  · exact
      { reservation := linked.reservation
        slot := linked.slot
        job := linked.job
        attempt := by
          intro a same
          obtain rfl := Option.some.inj same
          exact linked.attempt x.attempt attempt
        claimed := by
          show e.candidate.claimed = _
          rw [linked.claimed, attempt]
          rfl }
  · obtain ⟨isOpen, candidateState, a, own, attemptState, live⟩ := executing
    rw [attempt] at own
    obtain rfl := Option.some.inj own
    exact .inr ⟨s, ⟨isOpen, candidateState, _, rfl, attemptState, live⟩, state⟩

/-! ## Closing the open execution -/

/-- An episode that an execution ended with an outcome. -/
def Ended (e : Episode) (attemptId : Uuid) (outcome : Outcome) : Prop :=
  ∃ a, e.attempt = some a ∧ a.id = attemptId ∧
    a.state = outcome.attemptState ∧
    ∀ j ∈ e.job, j.status = outcome.jobStatus

/-- Closing the open execution with an outcome closes its episode. -/
theorem closeExecution (history : life.History past (some e)) (life' : Life)
    (executing : e.Executing s) (candidate : e.candidate = x.candidate)
    (attempt : e.attempt = some x.attempt) (stopped : x.attempt.stopped = true) {outcome : Outcome}
    (candidates : life'.candidates = (Change.closeExecution x outcome life).candidates)
    (reservations : life'.reservations = (Change.closeExecution x outcome life).reservations)
    (attempts : life'.attempts = (Change.closeExecution x outcome life).attempts)
    (jobs : life'.jobs = (Change.closeExecution x outcome life).jobs)
    (generation : life'.generation = life.generation) (agrees : Agrees life'.state none) :
    ∃ e', Ended e' x.attempt.id outcome ∧ life'.History (past ++ [e']) none := by
  have linked := history.flat.linked e (by simp)
  have jobStatus : ∀ j ∈ e.job.map fun row =>
      ({ row with status := outcome.jobStatus } : JobLife),
      j.status = outcome.jobStatus := by
    cases e.job <;> simp
  refine
    ⟨{ candidate := { e.candidate with state := .finished }
       reservation := { e.reservation with isOpen := false }
       attempt := some
         { x.attempt with state := outcome.attemptState, revoked := true }
       job := e.job.map fun row => { row with status := outcome.jobStatus } },
     ⟨_, rfl, rfl, rfl, jobStatus⟩,
     history.close ⟨rfl, rfl, ?_, ?_⟩ ?_ generation ?_ ?_ ?_ ?_ ?_ agrees⟩
  · rw [attempt]
    rfl
  · cases e.job <;> rfl
  · exact linked_moved linked attempt _ _ _ (by rfl) (by intro j; rfl)
  · rw [candidates]
    exact history.setCandidate_current (by rw [candidate]) _
  · rw [reservations]
    exact history.setReservation_current (by rw [candidate]) executing.1 _
  · rw [attempts]
    exact history.setAttempt_current attempt _
  · rw [jobs]
    exact history.setJob_current (by rw [candidate]) _
  · exact ⟨rfl, .inr ⟨rfl, _, outcome, rfl, rfl, stopped, jobStatus⟩⟩

/-- The result of the open execution closes it. -/
theorem conclude (history : life.History past current)
    (inLife : x.In life) (generation : x.candidate.generation = life.generation)
    (stopped : x.attempt.stopped = true) (notWaiting : life.state ≠ .waiting)
    (notTerminal : ¬ life.state.Terminal) :
    ∃ e', Ended e' x.attempt.id result.outcome ∧
      (Change.conclude x result submitted life).History (past ++ [e']) none := by
  obtain ⟨e, s, rfl, candidate, attempt, executing, -⟩ :=
    history.execution_current inLife generation (history.busy_of_state notWaiting notTerminal)
  exact history.closeExecution _ executing candidate attempt stopped rfl rfl rfl
    rfl rfl (.inr result.outcome.terminal_dispatchState)

theorem retry (history : life.History past current) {authorizationId : Uuid}
    (allowed : (Change.retry x authorizationId).Allowed free life) :
    ∃ e', ((Change.retry x authorizationId).apply life).History (past ++ [e']) none := by
  obtain ⟨inLife, generation, stopped, -, uncertain, -⟩ := allowed
  obtain ⟨e, s, rfl, candidate, attempt, executing, -⟩ :=
    history.execution_current inLife generation (history.busy_of_state (by rw [uncertain]; decide)
        (by rw [uncertain]; decide))
  obtain ⟨e', -, closed⟩ :=
    history.closeExecution ((Change.retry x authorizationId).apply life)
      executing candidate attempt stopped rfl rfl rfl rfl rfl (.inl rfl)
  exact ⟨e', closed⟩

/-! ## The one change that leaves an execution behind -/

/-- An earlier attempt that finishes a request in `CANCEL_REQUESTED` closes its
own episode once more, and the open execution stays. -/
theorem finishStale (history : life.History past current)
    (allowed : (Change.finish x result submitted).Allowed free life)
    (stale : (Change.finish x result submitted).Stale life) :
    ∃ past', ((Change.finish x result submitted).apply life).History past' current := by
  obtain ⟨inLife, stopped, -, -, -, -, -, -, cancelled, own⟩ := allowed
  have requested := own.resolve_left stale
  have outcome := cancelled requested
  obtain ⟨e, member, candidate, attempt⟩ := history.flat.execution inLife
  rcases List.mem_append.mp member with old | new
  · obtain ⟨before, later, rfl⟩ := List.append_of_mem old
    have linked := history.flat.linked e member
    have isClosed := (history.closed e old).1
    have flat : life.Flat (before ++ e :: (later ++ current.toList)) := by simpa using history.flat
    have jobStatus : ∀ j ∈ e.job.map fun row =>
        ({ row with status := result.outcome.jobStatus } : JobLife),
        j.status = result.outcome.jobStatus := by
      cases e.job <;> simp
    refine ⟨before ++
        { candidate := { e.candidate with state := .finished }
          reservation := e.reservation
          attempt := some
            { x.attempt with
              state := result.outcome.attemptState
              revoked := true }
          job := e.job.map fun row =>
            { row with status := result.outcome.jobStatus } } :: later,
        ?_, ?_, ?_⟩
    · rw [List.append_assoc, List.cons_append]
      refine flat.replace ⟨rfl, rfl, ?_, ?_⟩ ?_ rfl ?_ ?_ ?_ ?_
      · rw [attempt]
        rfl
      · cases e.job <;> rfl
      · exact linked_moved linked attempt _ _ _ (by rfl) (by intro j; rfl)
      · refine Eq.trans ?_ (flat.updateCandidate fun row => { row with state := .finished })
        rw [candidate]
        rfl
      · have unchanged := flat.updateReservation_closed isClosed
          fun row => { row with isOpen := false }
        rw [candidate] at unchanged
        refine Eq.trans unchanged ?_
        simpa using flat.reservations
      · exact flat.updateAttempt attempt _
      · refine Eq.trans ?_ (flat.updateJob fun row =>
          { row with status := result.outcome.jobStatus })
        rw [candidate]
        rfl
    · intro episode inside
      rcases List.mem_append.mp inside with first | rest
      · exact history.closed episode (by simp [first])
      · rcases List.mem_cons.mp rest with rfl | last
        · exact ⟨isClosed, .inr ⟨rfl, _, result.outcome, rfl, rfl, stopped, jobStatus⟩⟩
        · exact history.closed episode (by simp [last])
    · show Agrees result.outcome.dispatchState current
      rw [outcome]
      cases current with
      | none => exact .inr (by decide)
      | some newest =>
        rcases history.agrees with ⟨-, state⟩ | ⟨s, executing, state⟩
        · rw [requested] at state
          cases state
        · refine .inr ⟨s, executing, .inr ⟨rfl, ?_⟩⟩
          rcases state with same | ⟨ended, -⟩
          · rw [requested] at same
            cases s <;> first
              | rfl
              | simp [ExecutionState.dispatchState] at same
          · rw [requested] at ended
            cases ended
  · exfalso
    obtain rfl : current = some e := by simpa [eq_comm] using new
    exact stale (by rw [← candidate]; exact history.generation_current)

end Life.History

end Dispatch
end Scrum4Me
