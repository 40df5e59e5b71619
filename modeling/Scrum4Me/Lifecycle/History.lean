import Scrum4Me.Lifecycle.Episode

/-!
# The history of a request

The episodes of a request are closed, except perhaps the newest one, and the
state of the request says what the newest one is doing. Every change keeps this
shape. One state falls outside of it: a request that an earlier attempt has
cancelled while its current execution is still being stopped.
-/

namespace Scrum4Me
namespace Dispatch

open Foundation

/-- The states that request, candidate and attempt share while the attempt may
hold capacity. -/
inductive ExecutionState
  | claimed | running | uncertain | cancelRequested
  deriving DecidableEq

namespace ExecutionState

def dispatchState : ExecutionState → DispatchState
  | claimed => .claimed
  | running => .running
  | uncertain => .uncertain
  | cancelRequested => .cancelRequested

def candidateState : ExecutionState → CandidateState
  | claimed => .claimed
  | running => .running
  | uncertain => .uncertain
  | cancelRequested => .cancelRequested

def attemptState : ExecutionState → AttemptState
  | claimed => .claimed
  | running => .running
  | uncertain => .uncertain
  | cancelRequested => .cancelRequested

end ExecutionState

/-- The job of a live execution: running exactly when the attempt started. -/
def liveJobStatus (attempt : AttemptLife) : JobStatus :=
  if attempt.started then .running else .claimed

namespace Episode

/-- Nothing of the episode holds capacity any more. -/
def Closed (e : Episode) : Prop :=
  e.reservation.isOpen = false ∧ (e.candidate.state = .retired ∧ e.attempt = none ∧
        (∀ j ∈ e.job, j.status = .cancelled) ∨
      e.candidate.state = .finished ∧
        ∃ attempt outcome, e.attempt = some attempt ∧
          attempt.state = Outcome.attemptState outcome ∧
          attempt.stopped = true ∧
          ∀ j ∈ e.job, j.status = outcome.jobStatus)

/-- A slot is reserved, and nobody has claimed it. -/
def Unclaimed (e : Episode) : Prop :=
  e.reservation.isOpen = true ∧ e.candidate.state = .reserved ∧
    e.attempt = none ∧ ∀ j ∈ e.job, j.status = .queued

/-- An attempt holds the slot. -/
def Executing (e : Episode) (s : ExecutionState) : Prop :=
  e.reservation.isOpen = true ∧ e.candidate.state = s.candidateState ∧
    ∃ attempt, e.attempt = some attempt ∧ attempt.state = s.attemptState ∧
      ∀ j ∈ e.job, j.status = liveJobStatus attempt

end Episode

/-- What the state of a request says about its newest episode. -/
def Agrees (state : DispatchState) : Option Episode → Prop
  | none => state = .waiting ∨ state.Terminal
  | some e =>
      e.Unclaimed ∧ state = .reserved ∨
        ∃ s, e.Executing s ∧ (state = s.dispatchState ∨
            state = .cancelled ∧ s = .cancelRequested)

/-- The closed episodes of a request and its open one. -/
structure Life.History
    (life : Life) (past : List Episode) (current : Option Episode) : Prop where
  flat : life.Flat (past ++ current.toList)
  closed : ∀ e ∈ past, e.Closed
  agrees : Agrees life.state current

namespace Life.History

variable {life life' : Life} {past : List Episode} {current : Option Episode}
  {e e' : Episode} {x : Execution}

theorem flatCurrent (history : life.History past (some e)) :
    life.Flat (past ++ e :: []) := history.flat

/-- The newest episode belongs to the request's generation. -/
theorem generation_current (history : life.History past (some e)) :
    e.candidate.generation = life.generation := by
  have generations := history.flat.generations
  have length := congrArg List.length generations
  simp only [Option.toList_some, List.length_map, List.length_append,
    List.length_cons, List.length_nil, List.length_range'] at length
  have last := congrArg List.getLast? generations
  rw [← length, Nat.zero_add, List.range'_concat] at last
  simp only [Option.toList_some, List.map_append, List.map_cons, List.map_nil,
    List.getLast?_concat, Option.some.injEq] at last
  omega

/-- A closed episode of the request's generation is the newest one, and no
episode is open. -/
theorem current_eq_none (history : life.History past current) (member : e ∈ past)
    (generation : e.candidate.generation = life.generation) :
    current = none := by
  cases current with
  | none => rfl
  | some newest =>
    exfalso
    obtain ⟨earlier, split⟩ := history.flat.newest (List.mem_append_left _ member) generation
    have same : newest = e := by
      have last := congrArg List.getLast? split
      simpa using last
    have distinct := history.flat.candidateIds
    rw [same] at distinct
    simp only [Option.toList_some, List.map_append, List.map_cons, List.map_nil] at distinct
    exact (List.nodup_append.mp distinct).2.2 _
      (List.mem_map_of_mem (f := fun e => e.candidate.id) member) _
      List.mem_cons_self rfl

/-- The execution of the request's generation is the open episode, unless the
request is waiting or has ended. -/
theorem execution_current (history : life.History past current) (inLife : x.In life)
    (generation : x.candidate.generation = life.generation) (busy : current = none → False) :
    ∃ e s, current = some e ∧ e.candidate = x.candidate ∧
      e.attempt = some x.attempt ∧ e.Executing s ∧ (life.state = s.dispatchState ∨
        life.state = .cancelled ∧ s = .cancelRequested) := by
  obtain ⟨e, member, candidate, attempt⟩ := history.flat.execution inLife
  rcases List.mem_append.mp member with old | new
  · rw [← candidate] at generation
    exact (busy (history.current_eq_none old generation)).elim
  · obtain rfl : current = some e := by simpa [eq_comm] using new
    rcases history.agrees with ⟨unclaimed, -⟩ | ⟨s, executing, state⟩
    · rw [unclaimed.2.2.1] at attempt
      cases attempt
    · exact ⟨e, s, rfl, candidate, attempt, executing, state⟩

/-- While a request is in execution, some episode is open. -/
theorem busy_of_state (history : life.History past current) (notWaiting : life.state ≠ .waiting)
    (notTerminal : ¬ life.state.Terminal) :
    current = none → False := by
  rintro rfl
  exact history.agrees.elim notWaiting notTerminal

/-- An execution whose attempt has not ended, or has not stopped, is the open
episode. -/
theorem execution_open (history : life.History past current) (inLife : x.In life) (notEnded :
      x.candidate.state.Open ∨ ¬ x.attempt.state.Terminal ∨ x.attempt.stopped = false) :
    ∃ e s, current = some e ∧ e.candidate = x.candidate ∧
      e.attempt = some x.attempt ∧ e.Executing s ∧ (life.state = s.dispatchState ∨
        life.state = .cancelled ∧ s = .cancelRequested) := by
  obtain ⟨e, member, candidate, attempt⟩ := history.flat.execution inLife
  rcases List.mem_append.mp member with old | new
  · exfalso
    rcases (history.closed e old).2 with ⟨-, noAttempt, -⟩ | ⟨state, a, outcome, own, ended, stopped, -⟩
    · rw [noAttempt] at attempt
      cases attempt
    · rw [attempt] at own
      obtain rfl := Option.some.inj own
      rcases notEnded with isOpen | alive | running
      · rw [← candidate, state] at isOpen
        exact isOpen.1 rfl
      · rw [ended] at alive
        exact alive outcome.terminal_attemptState
      · rw [stopped] at running
        cases running
  · obtain rfl : current = some e := by simpa [eq_comm] using new
    rcases history.agrees with ⟨unclaimed, -⟩ | ⟨s, executing, state⟩
    · rw [unclaimed.2.2.1] at attempt
      cases attempt
    · exact ⟨e, s, rfl, candidate, attempt, executing, state⟩

/-- The candidate of the request's generation, while it is open and unclaimed,
is the open episode. -/
theorem unclaimed_current (history : life.History past current) {c : CandidateLife}
    (member : c ∈ life.candidates) (isOpen : c.state.Open) (unclaimed : c.claimed = false) :
    ∃ e, current = some e ∧ e.candidate = c ∧ e.Unclaimed ∧ life.state = .reserved := by
  obtain ⟨e, episodeMember, rfl⟩ := history.flat.mem_candidates.mp member
  have noAttempt : e.attempt = none := by
    have := (history.flat.linked e episodeMember).claimed
    rw [unclaimed] at this
    simpa using this.symm
  rcases List.mem_append.mp episodeMember with old | new
  · exfalso
    rcases (history.closed e old).2 with ⟨state, -⟩ | ⟨state, -⟩
    · exact isOpen.2 state
    · exact isOpen.1 state
  · obtain rfl : current = some e := by simpa [eq_comm] using new
    rcases history.agrees with ⟨own, state⟩ | ⟨s, ⟨-, -, a, attempt, -⟩, -⟩
    · exact ⟨e, rfl, rfl, own, state⟩
    · rw [noAttempt] at attempt
      cases attempt

/-! ## Building the next history -/

/-- The open episode goes on in another version. -/
theorem advance
    (history : life.History past (some e)) (sameKeys : e.SameKeys e') (linked : e'.Linked)
    (generation : life'.generation = life.generation) (candidates : life'.candidates =
      past.map Episode.candidate ++ [e'.candidate]) (reservations : life'.reservations =
      past.map Episode.reservation ++ [e'.reservation]) (attempts : life'.attempts =
      past.filterMap Episode.attempt ++ e'.attempt.toList)
    (jobs : life'.jobs = past.filterMap Episode.job ++ e'.job.toList)
    (agrees : Agrees life'.state (some e')) :
    life'.History past (some e') where
  flat := history.flatCurrent.replace sameKeys linked generation candidates
    reservations (by simpa using attempts) (by simpa using jobs)
  closed := history.closed
  agrees := agrees

/-- The open episode is closed. -/
theorem close (history : life.History past (some e)) (sameKeys : e.SameKeys e') (linked : e'.Linked)
    (generation : life'.generation = life.generation) (candidates : life'.candidates =
      past.map Episode.candidate ++ [e'.candidate]) (reservations : life'.reservations =
      past.map Episode.reservation ++ [e'.reservation]) (attempts : life'.attempts =
      past.filterMap Episode.attempt ++ e'.attempt.toList)
    (jobs : life'.jobs = past.filterMap Episode.job ++ e'.job.toList) (closed : e'.Closed)
    (agrees : Agrees life'.state none) :
    life'.History (past ++ [e']) none where
  flat := by
    have flat := history.flatCurrent.replace sameKeys linked generation
      candidates reservations (by simpa using attempts) (by simpa using jobs)
    simpa using flat
  closed := by
    intro episode member
    rcases mem_inserted.mp member with old | rfl
    · exact history.closed episode old
    · exact closed
  agrees := agrees

/-- Nothing that the history depends on changed, except perhaps the state. -/
theorem congr (history : life.History past current)
    (candidates : life'.candidates = life.candidates)
    (reservations : life'.reservations = life.reservations)
    (attempts : life'.attempts = life.attempts) (jobs : life'.jobs = life.jobs)
    (generation : life'.generation = life.generation) (agrees : Agrees life'.state current) :
    life'.History past current where
  flat :=
    { candidates := candidates.trans history.flat.candidates
      reservations := reservations.trans history.flat.reservations
      attempts := attempts.trans history.flat.attempts
      jobs := jobs.trans history.flat.jobs
      candidateIds := history.flat.candidateIds
      attemptIds := history.flat.attemptIds
      jobIds := history.flat.jobIds
      linked := history.flat.linked
      generations := by rw [history.flat.generations, generation] }
  closed := history.closed
  agrees := agrees

end Life.History

end Dispatch
end Scrum4Me
