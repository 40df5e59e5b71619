import Scrum4Me.Refinement.StopEvidence
import Scrum4Me.Refinement.Selection

/-!
# Refinement of recovery and cancellation

An operator's decision ends the execution it stopped; a cancellation requests a
stop, abandons what nobody claimed, or finishes what has stopped.
-/

namespace Scrum4Me
namespace Dispatch

open Foundation

section Recovery

variable {free : Uuid → Prop} {env : Env} {store : Store}
  {registry : Registry} {rows rows' : RequestRows}
  {x : ArtifactAttempt}

/-! ## Recovering -/

/-- The last change of a recovery. -/
inductive RecoveryEnd (mode : RecoveryMode) : Change → Prop
  | closed (x : Execution) (result : ResultRow) (submitted : ResultHash)
      (outcome : result.outcome = .failed → mode = .closeFailed) :
      RecoveryEnd mode (.recover x result submitted)
  | retried (x : Execution) (authorizationId : Uuid) :
      RecoveryEnd mode (.retry x authorizationId)

/-- The paths of a recovery decision. -/
inductive RecoveryPath (mode : RecoveryMode) : List Change → Prop
  | replayed : RecoveryPath mode []
  | decided (change : Change) (ends : RecoveryEnd mode change) :
      RecoveryPath mode [change]
  | stoppedAndDecided (x : Execution) (mark : StopMark) (change : Change)
      (ends : RecoveryEnd mode change) :
      RecoveryPath mode [.stop x mark, change]

variable {mode : RecoveryMode} {c : CandidateRow} {y : Execution}

/-- No recovery is stale. -/
theorem RecoveryPath.fresh
    {changes : List Change} (path : RecoveryPath mode changes) (life : Life) :
    life.Fresh changes := by
  cases path with
  | replayed => trivial
  | decided change ends => cases ends <;> exact ⟨not_false, trivial⟩
  | stoppedAndDecided x mark change ends => cases ends <;> exact ⟨not_false, not_false, trivial⟩

/-- The decision, from the life that the accepted stop leads to. -/
theorem decideRecovery_change (free : Uuid → Prop) {stop : AcceptedStop}
    (keys : stop.rows.KeepsKeys rows') (own : y.Of stop.x) (inLife : y.In (lifeOf stop.rows))
    (stopped : stop.x.a.stoppedAt ≠ none → y.attempt.stopped = true)
    (state : stop.x.r.state = (lifeOf stop.rows).state)
    (generation : y.candidate.generation = (lifeOf stop.rows).generation)
    (unfinished : (lifeOf stop.rows).state = .uncertain ∨
      (lifeOf stop.rows).state = .cancelRequested) (noResult : (lifeOf stop.rows).results = [])
    (decided : decideRecovery env stop mode = .ok rows') :
    ∃ change, RecoveryEnd mode change ∧
      change.Allowed free (lifeOf stop.rows) ∧ lifeOf rows' = change.apply (lifeOf stop.rows) := by
  cases mode with
  | retrySameContract =>
    simp only [decideRecovery, authorizeRetry, bind_eq_ok, ensure_eq_ok, pure_eq_ok] at decided
    obtain ⟨-, uncertain, -, -, -, -, closed, closing, rfl⟩ := decided
    obtain ⟨ended, marked, settled⟩ := terminalizeAttempt_spec own closing
    have sameId : closed.request.id = stop.rows.request.id := sameId_of_life ended rfl
    have events := (keys sameId).events
    simp only [transition, RequestRows.announce, RequestRows.setRequest,
      RequestRows.writeDispatchOutbox, RequestRows.insertEvent,
      List.map_append, List.map_cons, List.map_nil] at events
    refine ⟨.retry y (closed.nextEventId env), .retried _ _,
      ⟨inLife, generation, stopped marked, settled, state ▸ uncertain, ?_⟩, ?_⟩
    · intro member
      have sameAuthorizations :
          (lifeOf stop.rows).authorizations = (lifeOf closed).authorizations := by
        rw [ended]
        rfl
      rw [sameAuthorizations] at member
      obtain ⟨fact, granted, sameId⟩ := List.mem_map.mp member
      obtain ⟨event, recorded, read⟩ := List.mem_filterMap.mp granted
      have named : event.id = fact.eventId := by
        unfold EventRow.retryAuthorized? at read
        split at read
        · obtain rfl := Option.some.inj read
          rfl
        · cases read
      exact (List.nodup_append.mp events).2.2 event.id
        (List.mem_map_of_mem recorded) _ List.mem_cons_self
        (named.trans sameId)
    · rw [transition, lifeOf_announce]
      have authorized := lifeOf_insertAuthorization closed env
        (some stop.x.a.id) (.service none) stop.x.a.id stop.x.r.inputHash
        stop.x.r.generation stop.id
      rw [ended] at authorized
      exact congrArg (fun life : Life => Life.announced .waiting none
        { life with
          authority := some (closed.nextEventId env) }) authorized
  | closeCancelled =>
    simp only [decideRecovery, bind_eq_ok, pure_eq_ok] at decided
    obtain ⟨finished, decided, rfl⟩ := decided
    obtain ⟨row, attempt, records, life, marked, settled⟩ := finishResult_spec own noResult decided
    have outcome : row.outcome = .cancelled := records.outcome
    exact ⟨_, .closed y row _ (by rw [outcome]; exact fun same => by cases same),
      ⟨inLife, generation, stopped marked, settled, noResult, attempt,
        unfinished, by rw [outcome]; exact fun same => by cases same⟩, life⟩
  | closeFailed =>
    simp only [decideRecovery, bind_eq_ok, pure_eq_ok] at decided
    obtain ⟨finished, decided, rfl⟩ := decided
    obtain ⟨row, attempt, records, life, marked, settled⟩ := finishResult_spec own noResult decided
    have outcome : row.outcome = .failed := records.outcome
    exact ⟨_, .closed y row _ fun _ => rfl,
      ⟨inLife, generation, stopped marked, settled, noResult, attempt,
        unfinished, by rw [outcome]; exact fun same => by cases same⟩, life⟩

variable {expectedVersion : Nat} {actionId : String}

theorem recover_refines {actor : Actor} {evidence : StopEvidence}
    (consistent : (lifeOf rows).Consistent) (keys : rows.KeepsKeys rows')
    (recovered : recoverDispatch env registry rows actor actionId
      expectedVersion evidence mode = .ok rows') :
    ∃ changes, RecoveryPath mode changes ∧ Refines free rows rows' changes := by
  simp only [recoverDispatch, bind_eq_ok, ensure_eq_ok] at recovered
  obtain ⟨-, -, x, locked, -, -, recovered⟩ := recovered
  obtain ⟨lockedIn, -⟩ := lockArtifactAttempt_spec locked
  split at recovered
  · simp only [bind_eq_ok, ensure_eq_ok, pure_eq_ok] at recovered
    obtain ⟨-, -, rfl⟩ := recovered
    exact ⟨[], .replayed, .quiet rfl⟩
  · simp only [bind_eq_ok, ensure_eq_ok, pure_eq_ok] at recovered
    obtain ⟨-, ⟨-, generation, -, state, -⟩, stop, accepted, decided, decision, rfl⟩ := recovered
    have accepted := acceptRecoveryStop_spec accepted
    rw [lockedIn.r] at generation state
    have noResult : (lifeOf rows).results = [] := by
      obtain ⟨past, current, consistent⟩ := consistent
      refine (consistent.results.pending ?_).1
      show ¬ rows.request.state.Terminal
      rcases state with h | h <;> rw [h] <;> decide
    have decidedKeys : rows.KeepsKeys decided := by
      intro sameId
      have keys := keys sameId
      have events := keys.events
      simp only [RequestRows.insertEvent, List.map_append] at events
      exact { keys with events := (List.nodup_append.mp events).1 }
    have recorded : lifeOf (decided.insertEvent env (some x.a.id)
        (.user actor.userId) (.recoveryAction
          { principalKey := actor.principalKey
            purpose := .recovery
            actionId := actionId }
          { id := x.r.id
            expectedVersion := expectedVersion
            evidence := evidence
            mode := mode })) = lifeOf decided :=
      lifeOf_insertEvent _ _ _ _ trivial
    cases accepted with
    | replayed sameRows sameAttempt _ _ =>
      obtain ⟨change, ends, allowed, life⟩ := decideRecovery_change free
        (y := x.execution) (by rw [sameRows]; exact decidedKeys)
        (by rw [sameAttempt]; exact x.execution_of)
        (by rw [sameRows]; exact lockedIn.inLife)
        (by rw [sameAttempt]; exact Option.isSome_iff_ne_none.mpr)
        (by rw [sameRows, sameAttempt, lockedIn.r]; rfl)
        (by rw [sameRows]; exact generation.symm)
        (by rw [sameRows]; exact state) (by rw [sameRows]; exact noResult)
        decision
      rw [sameRows] at allowed life
      exact ⟨_, .decided change ends, Refines.thenQuiet (.one allowed life) recorded⟩
    | accepted mark receipt stopped own request _ first unstarted =>
      obtain ⟨change, ends, allowed, life⟩ := decideRecovery_change free
        (fun sameId => decidedKeys (sameId.trans (sameId_of_life stopped rfl)))
        own
        (by rw [stopped]; exact lockedIn.inLife.stop mark)
        (fun _ => rfl) (by rw [request, stopped, lockedIn.r]; rfl)
        (by rw [stopped]; exact generation.symm)
        (by rw [stopped]; exact state) (by rw [stopped]; exact noResult)
        decision
      rw [stopped] at allowed life
      exact ⟨_, .stoppedAndDecided x.execution mark change ends,
        Refines.thenQuiet (.two (stop_allowed lockedIn first unstarted) allowed life) recorded⟩

/-! ## Cancelling -/

/-- The paths of a cancellation, before it is recorded. -/
inductive CancelPath : List Change → Prop
  | unchanged : CancelPath []
  | abandoned (candidate : Option CandidateLife) (result : ResultRow) :
      CancelPath [.abandon candidate result]
  | requested (x : Execution) : CancelPath [.requestStop x]
  | finished (x : Execution) (result : ResultRow) (submitted : ResultHash) :
      CancelPath [.finish x result submitted]
  | requestedAndFinished (x y : Execution) (result : ResultRow) (submitted : ResultHash) :
      CancelPath [.requestStop x, .finish y result submitted]

/-- A cancellation ends with a request that is being stopped or has ended. -/
structure Cancels
    (free : Uuid → Prop) (rows rows' : RequestRows) (changes : List Change) :
    Prop where
  shape : CancelPath changes
  refines : Refines free rows rows' changes
  fresh : (lifeOf rows).Fresh changes
  ends : (lifeOf rows').state = .cancelRequested ∨ (lifeOf rows').state.Terminal

theorem cancelUnclaimed_cancels
    {candidate : Option CandidateRow} (consistent : (lifeOf rows).Consistent)
    (notTerminal : ¬ rows.request.state.Terminal) (about : match candidate with
      | none => rows.openCandidate? = none
      | some c => rows.openCandidate? = some c)
    (cancelled : cancelUnclaimed env rows candidate = .ok rows') :
    ∃ changes, Cancels free rows rows' changes := by
  simp only [cancelUnclaimed, assertRetryIfClaimed, bind_eq_ok,
    ensure_eq_ok, pure_eq_ok] at cancelled
  obtain ⟨_, asserted, _, unclaimed, inserted, insertion, rfl⟩ := cancelled
  have authorized : (lifeOf rows).claimed = true → (lifeOf rows).RetryAuthorized := by
    apply retryAuthorized_of_claimed
    intro claimed
    rw [if_pos claimed] at asserted
    simp only [bind_eq_ok] at asserted
    obtain ⟨authorization, granted, -⟩ := asserted
    exact ⟨authorization, granted⟩
  have noResult : (lifeOf rows).results = [] := by
    obtain ⟨past, current, consistent⟩ := consistent
    exact (consistent.results.pending notTerminal).1
  cases candidate with
  | none =>
    obtain ⟨row, attempt, records, sameId, life⟩ := insertResult_spec noResult insertion
    have outcome : row.outcome = .cancelled := records.outcome
    have ended : lifeOf ((transition env inserted.1 .cancelled
        (some inserted.2)).insertEvent env none (.service none)
        (if rows.request.firstClaimedAt ≠ none then
          .cancelRecoveredUnstarted inserted.2
        else
          .cancelUnclaimed inserted.2)) =
        (Change.abandon none row).apply (lifeOf rows) := by
      refine (lifeOf_insertEvent _ _ _ _ (by split <;> trivial)).trans ?_
      rw [transition, lifeOf_announce, life, ← sameId]
      simp only [Change.apply, outcome]
      rfl
    refine ⟨_, .abandoned none row, .one ⟨notTerminal, authorized, noResult,
      attempt, by rw [outcome]; decide, openCandidate?_eq_none about⟩ ended,
      ⟨not_false, trivial⟩, .inr ?_⟩
    rw [ended]
    exact row.outcome.terminal_dispatchState
  | some c =>
    obtain ⟨member, generation, isOpen⟩ := openCandidate?_eq_some about
    have closed := closeUnclaimed_life env rows c
    obtain ⟨row, attempt, records, sameId, life⟩ :=
      insertResult_spec (by rw [closed]; exact noResult) insertion
    have outcome : row.outcome = .cancelled := records.outcome
    have ended : lifeOf ((transition env inserted.1 .cancelled
        (some inserted.2)).insertEvent env none (.service none)
        (if rows.request.firstClaimedAt ≠ none then
          .cancelRecoveredUnstarted inserted.2
        else
          .cancelUnclaimed inserted.2)) =
        (Change.abandon (some c.life) row).apply (lifeOf rows) := by
      refine (lifeOf_insertEvent _ _ _ _ (by split <;> trivial)).trans ?_
      rw [transition, lifeOf_announce, life, closed, ← sameId]
      simp only [Change.apply, outcome]
      rfl
    refine ⟨_, .abandoned (some c.life) row, .one ⟨notTerminal, authorized,
      noResult, attempt, by rw [outcome]; decide,
      List.mem_map_of_mem member, generation, isOpen,
      isSome_eq_false (unclaimed c rfl)⟩ ended, ⟨not_false, trivial⟩, .inr ?_⟩
    rw [ended]
    exact row.outcome.terminal_dispatchState

/-- The rows that a lock finds by the keys of a candidate and its attempt. -/
theorem execution_of_locked (consistent : (lifeOf rows).Consistent) (locked : x.LockedIn rows)
    {a : AttemptRow} (candidate : c ∈ rows.candidates) (attempt : a ∈ rows.attempts)
    (own : a.candidateId = c.id) (sameId : x.a.id = a.id) :
    x.c.life = c.life := by
  obtain ⟨past, current, consistent⟩ := consistent
  have flat := consistent.history.flat
  have sameAttempt : x.a.life = a.life :=
    consistent.history.attemptsDistinct.eq (List.mem_map_of_mem locked.a)
      (List.mem_map_of_mem attempt) sameId
  have sameCandidate : x.a.candidateId = a.candidateId :=
    congrArg AttemptLife.candidateId sameAttempt
  obtain ⟨first, firstMember, firstOwn⟩ := flat.mem_candidates.mp (List.mem_map_of_mem locked.c)
  obtain ⟨second, secondMember, secondOwn⟩ := flat.mem_candidates.mp (List.mem_map_of_mem candidate)
  have same := flat.episode_unique firstMember secondMember (by
    rw [firstOwn, secondOwn]
    show x.c.id = c.id
    rw [← locked.linked, sameCandidate, own])
  rw [← firstOwn, ← secondOwn, same]

theorem requestStop_life (env : Env) {attemptId : Uuid}
    (notRequested : rows.request.state ≠ .cancelRequested)
    (attempt : y.attempt.id = attemptId) (candidate : y.candidate.id = c.id) :
    lifeOf (requestStop env rows c attemptId) = (Change.requestStop y).apply (lifeOf rows) := by
  rw [requestStop, if_neg notRequested]
  refine (lifeOf_insertEvent _ _ _ _ (by trivial)).trans ?_
  rw [transition, lifeOf_announce,
    lifeOf_updateCandidate _ _ (fun row => { row with state := .cancelRequested }) fun _ => rfl,
    lifeOf_updateAttempt _ _ (fun row => { row with state := .cancelRequested, revoked := true })]
  · rw [← attempt, ← candidate]
    rfl
  · intro row
    cases revoked : row.revokedAt <;> simp [AttemptRow.life, revoked]

/-- Finishing the cancellation of an attempt that stopped before. -/
theorem cancelStopped_change (free : Uuid → Prop) {moved : RequestRows}
    {finished : RequestRows × ResultReceipt} (own : y.Of x) (inLife : y.In (lifeOf moved))
    (stopped : x.a.stoppedAt ≠ none → y.attempt.stopped = true)
    (generation : y.candidate.generation = (lifeOf moved).generation)
    (requested : (lifeOf moved).state = .cancelRequested) (noResult : (lifeOf moved).results = [])
    (written : finishResult env moved x requesterCancelledResult
      (.canonical requesterCancelledResult) none = .ok finished) :
    ∃ row submitted, (Change.finish y row submitted).Allowed free (lifeOf moved) ∧
      ¬ (Change.finish y row submitted).Stale (lifeOf moved) ∧
      lifeOf finished.1 = (Change.finish y row submitted).apply (lifeOf moved) := by
  obtain ⟨row, attempt, records, life, marked, settled⟩ := finishResult_spec own noResult written
  exact ⟨row, _, finish_allowed inLife (stopped marked) settled noResult attempt
    requested records.outcome, not_not.mpr generation, life⟩

theorem cancelAttempt_cancels {a : AttemptRow} (consistent : (lifeOf rows).Consistent)
    (notTerminal : ¬ rows.request.state.Terminal) (found : rows.openCandidate? = some c)
    (attempt : rows.attempts.find? (fun a => a.candidateId = c.id) = some a)
    (cancelled : cancelAttempt env registry rows c a = .ok rows') :
    ∃ changes, Cancels free rows rows' changes := by
  simp only [cancelAttempt, bind_eq_ok] at cancelled
  obtain ⟨x, locked, cancelled⟩ := cancelled
  obtain ⟨lockedIn, sameId⟩ := lockArtifactAttempt_spec locked
  obtain ⟨member, generation, isOpen⟩ := openCandidate?_eq_some found
  have matched := List.find?_some attempt
  have sameLife : x.c.life = c.life := execution_of_locked consistent lockedIn
    member (List.mem_of_find?_eq_some attempt) (of_decide_eq_true matched)
    sameId
  have current : x.execution.candidate.generation = (lifeOf rows).generation := by
    rw [ArtifactAttempt.execution, sameLife]
    exact generation
  have noResult : (lifeOf rows).results = [] := by
    obtain ⟨past, now, consistent⟩ := consistent
    exact (consistent.results.pending notTerminal).1
  by_cases requested : rows.request.state = .cancelRequested
  · have unchanged : requestStop env rows c a.id = rows := by rw [requestStop, if_pos requested]
    rw [unchanged] at cancelled
    split at cancelled
    · simp only [bind_eq_ok, pure_eq_ok] at cancelled
      obtain ⟨finished, written, rfl⟩ := cancelled
      obtain ⟨row, submitted, allowed, fresh, life⟩ := cancelStopped_change free
        x.execution_of lockedIn.inLife Option.isSome_iff_ne_none.mpr current
        requested noResult written
      refine ⟨_, .finished x.execution row submitted, .one allowed life, ⟨fresh, trivial⟩, .inr ?_⟩
      rw [life]
      exact row.outcome.terminal_dispatchState
    · simp only [pure_eq_ok] at cancelled
      obtain rfl := cancelled
      exact ⟨[], .unchanged, .quiet rfl, trivial, .inl requested⟩
  · have life := requestStop_life env requested (y := x.execution) sameId
      (congrArg CandidateLife.id sameLife)
    have allowed : (Change.requestStop x.execution).Allowed free (lifeOf rows) := by
      refine ⟨lockedIn.inLife, current, notTerminal, requested, .inl ?_⟩
      rw [ArtifactAttempt.execution, sameLife]
      exact isOpen
    split at cancelled
    · simp only [bind_eq_ok, pure_eq_ok] at cancelled
      obtain ⟨finished, written, rfl⟩ := cancelled
      obtain ⟨row, submitted, next, fresh, ended⟩ := cancelStopped_change free
        (y := x.execution.moved (fun row => { row with state := .cancelRequested, revoked := true })
          .cancelRequested)
        ⟨rfl, rfl, rfl⟩
        (by
          rw [life]
          exact lockedIn.inLife.moveExecution rfl .cancelRequested .cancelRequested)
        Option.isSome_iff_ne_none.mpr (by rw [life]; exact current)
        (by rw [life]; rfl) (by rw [life]; exact noResult) written
      rw [life] at next fresh ended
      refine ⟨_, .requestedAndFinished x.execution _ row submitted,
        .two allowed next ended, ⟨not_false, fresh, trivial⟩, .inr ?_⟩
      rw [ended]
      exact row.outcome.terminal_dispatchState
    · simp only [pure_eq_ok] at cancelled
      obtain rfl := cancelled
      refine ⟨_, .requested x.execution, .one allowed life, ⟨not_false, trivial⟩, .inl ?_⟩
      rw [life]
      rfl

theorem cancelInProgress_cancels (free : Uuid → Prop) (consistent : (lifeOf rows).Consistent)
    (cancelled : cancelInProgress env registry rows = .ok rows') :
    ∃ changes, Cancels free rows rows' changes := by
  unfold cancelInProgress at cancelled
  split at cancelled
  · rename_i ended
    obtain rfl := Except.ok.inj cancelled
    exact ⟨[], .unchanged, .quiet rfl, trivial, .inr ended⟩
  · rename_i notTerminal
    split at cancelled
    · rename_i missing
      exact cancelUnclaimed_cancels consistent notTerminal missing cancelled
    · rename_i c found
      split at cancelled
      · rename_i a attempt
        exact cancelAttempt_cancels consistent notTerminal found attempt cancelled
      · exact cancelUnclaimed_cancels consistent notTerminal found cancelled

theorem cancel_refines {actor : Actor} (consistent : (lifeOf rows).Consistent)
    (cancelled : cancelDispatch env registry rows actor actionId expectedVersion = .ok rows') :
    rows' = rows ∨ ∃ changes key digest, CancelPath changes ∧
        Refines free rows rows' (changes ++ [.recordCancel key digest]) ∧
        (lifeOf rows).Fresh (changes ++ [.recordCancel key digest]) := by
  simp only [cancelDispatch, bind_eq_ok, ensure_eq_ok] at cancelled
  obtain ⟨-, -, -, -, -, -, cancelled⟩ := cancelled
  split at cancelled
  · simp only [bind_eq_ok, ensure_eq_ok, pure_eq_ok] at cancelled
    obtain ⟨-, -, rfl⟩ := cancelled
    exact .inl rfl
  · simp only [bind_eq_ok, ensure_eq_ok, pure_eq_ok] at cancelled
    obtain ⟨-, -, -, -, moved, progress, rfl⟩ := cancelled
    obtain ⟨changes, cancels⟩ := cancelInProgress_cancels free consistent progress
    have life := cancels.refines.life
    have ends := cancels.ends
    rw [life] at ends
    refine .inr ⟨changes,
      { principalKey := actor.principalKey
        purpose := .cancel
        actionId := actionId },
      { id := rows.request.id, expectedVersion := expectedVersion },
      cancels.shape, ⟨?_, ?_⟩, ?_⟩
    · exact (Life.path_append _ _ _ _).mpr ⟨cancels.refines.path, ends, trivial⟩
    · rw [lifeOf_insertCancelAction, life, Life.applyAll_append]
      rfl
    · exact (Life.fresh_append _ _ _).mpr ⟨cancels.fresh, not_false, trivial⟩

end Recovery

end Dispatch
end Scrum4Me
