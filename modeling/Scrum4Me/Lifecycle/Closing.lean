import Scrum4Me.Lifecycle.Abstraction

/-!
# Locks and closings as changes

The parts that several transactions share: what a lock guarantees about the life
of its request, and which change the helpers that stop and close an attempt make.
-/

namespace Scrum4Me
namespace Dispatch

open Foundation

/-! ## Locks -/

/-- The snapshot is of rows that the request holds. -/
structure ArtifactAttempt.LockedIn (x : ArtifactAttempt) (rows : RequestRows) :
    Prop where
  r : x.r = rows.request
  a : x.a ∈ rows.attempts
  c : x.c ∈ rows.candidates
  linked : x.a.candidateId = x.c.id

structure Locked.LockedIn (x : Locked) (rows : RequestRows) : Prop where
  r : x.r = rows.request
  a : x.a ∈ rows.attempts
  c : x.c ∈ rows.candidates
  linked : x.a.candidateId = x.c.id

def ArtifactAttempt.execution (x : ArtifactAttempt) : Execution :=
  { candidate := x.c.life, attempt := x.a.life }

def Locked.execution (x : Locked) : Execution :=
  { candidate := x.c.life, attempt := x.a.life }

theorem candidate?_eq_some {rows : RequestRows} {id : Uuid} {c : CandidateRow}
    (found : rows.candidate? id = some c) :
    c ∈ rows.candidates ∧ c.id = id := by
  have sameId := List.find?_some found
  exact ⟨List.mem_of_find?_eq_some found, of_decide_eq_true sameId⟩

theorem attempt?_eq_some {rows : RequestRows} {id : Uuid} {a : AttemptRow}
    (found : rows.attempt? id = some a) :
    a ∈ rows.attempts ∧ a.id = id := by
  have sameId := List.find?_some found
  exact ⟨List.mem_of_find?_eq_some found, of_decide_eq_true sameId⟩

section Locks

variable {env : Env} {registry : Registry} {rows : RequestRows} {attemptId : Uuid}

theorem lockArtifactAttempt_spec {x : ArtifactAttempt}
    (locked : lockArtifactAttempt env registry rows attemptId = .ok x) :
    x.LockedIn rows ∧ x.a.id = attemptId := by
  simp only [lockArtifactAttempt, bind_eq_ok, require_eq_ok, ensure_eq_ok, pure_eq_ok] at locked
  obtain ⟨a, foundAttempt, c, foundCandidate, -, -, s, -, i, -, p, -, -, -, rfl⟩ := locked
  obtain ⟨attempt, sameId⟩ := attempt?_eq_some foundAttempt
  obtain ⟨candidate, own⟩ := candidate?_eq_some foundCandidate
  exact ⟨⟨rfl, attempt, candidate, own.symm⟩, sameId⟩

theorem lock_spec {candidateId : Uuid} {x : Locked}
    (locked : lock registry rows candidateId attemptId = .ok x) :
    x.LockedIn rows ∧ x.a.id = attemptId := by
  simp only [lock, bind_eq_ok, require_eq_ok, pure_eq_ok] at locked
  obtain ⟨c, foundCandidate, a, foundAttempt, i, -, s, -, rfl⟩ := locked
  have candidate := (candidate?_eq_some foundCandidate).1
  have attempt := List.mem_of_find?_eq_some foundAttempt
  have matched := List.find?_some foundAttempt
  obtain ⟨sameId, own⟩ := of_decide_eq_true matched
  exact ⟨⟨rfl, attempt, candidate, own⟩, sameId⟩

theorem lock_incarnation {candidateId : Uuid} {x : Locked}
    (locked : lock registry rows candidateId attemptId = .ok x) :
    registry.incarnation? x.a.incarnationId = some x.i := by
  simp only [lock, bind_eq_ok, require_eq_ok, pure_eq_ok] at locked
  obtain ⟨c, -, a, -, i, found, s, -, rfl⟩ := locked
  exact found

theorem lockAuthorized_spec {actor : Actor} {authority : Authority} {x : ArtifactAttempt}
    (locked : lockAuthorized env registry rows actor authority = .ok x) :
    x.LockedIn rows ∧ x.a.id = authority.attemptId := by
  simp only [lockAuthorized, bind_eq_ok, pure_eq_ok] at locked
  obtain ⟨y, locked, -, -, -, -, rfl⟩ := locked
  exact lockArtifactAttempt_spec locked

theorem ArtifactAttempt.LockedIn.inLife {x : ArtifactAttempt} (locked : x.LockedIn rows) :
    x.execution.In (lifeOf rows) where
  attempt := List.mem_map_of_mem locked.a
  candidate := List.mem_map_of_mem locked.c
  linked := locked.linked

theorem Locked.LockedIn.inLife {x : Locked} (locked : x.LockedIn rows) :
    x.execution.In (lifeOf rows) where
  attempt := List.mem_map_of_mem locked.a
  candidate := List.mem_map_of_mem locked.c
  linked := locked.linked

end Locks

/-! ## Executions after a change -/

/-- The execution after its stop was accepted. -/
def Execution.stopped (x : Execution) : Execution :=
  { x with attempt := { x.attempt with stopped := true, revoked := true } }

/-- The execution after a move. -/
def Execution.moved (x : Execution) (change : AttemptLife → AttemptLife)
    (state : CandidateState) : Execution :=
  { candidate := { x.candidate with state := state }
    attempt := change x.attempt }

theorem Execution.In.stop {x : Execution} {life : Life} (inLife : x.In life) (mark : StopMark) :
    x.stopped.In ((Change.stop x mark).apply life) where
  attempt := mem_updateWhere.mpr (.inl ⟨_, inLife.attempt, by simp, rfl⟩)
  candidate := inLife.candidate
  linked := inLife.linked

theorem Execution.In.moveExecution {x : Execution} {life : Life} (inLife : x.In life)
    {change : AttemptLife → AttemptLife}
    (sameCandidate : (change x.attempt).candidateId = x.attempt.candidateId)
    (candidate : CandidateState) (state : DispatchState) :
    (x.moved change candidate).In (Change.moveExecution x change candidate state life) where
  attempt := mem_updateWhere.mpr (.inl ⟨_, inLife.attempt, by simp, rfl⟩)
  candidate := mem_updateWhere.mpr (.inl ⟨_, inLife.candidate, by simp, rfl⟩)
  linked := sameCandidate.trans inLife.linked

/-! ## Closing -/

section Closing

variable {env : Env} {rows rows' : RequestRows} {x : ArtifactAttempt}
  {y : Execution} {result : DispatchResult}

/-- The rows of the execution that a transaction holds a snapshot of. -/
structure Execution.Of (y : Execution) (x : ArtifactAttempt) : Prop where
  attempt : y.attempt.id = x.a.id
  candidate : y.candidate.id = x.c.id
  job : y.candidate.jobId = x.c.jobId

theorem ArtifactAttempt.execution_of (x : ArtifactAttempt) :
    x.execution.Of x := ⟨rfl, rfl, rfl⟩

theorem terminalizeAttempt_spec {outcome : Outcome} (own : y.Of x)
    (closed : terminalizeAttempt env rows x outcome = .ok rows') :
    lifeOf rows' = Change.closeExecution y outcome (lifeOf rows) ∧
      x.a.stoppedAt ≠ none ∧ ¬ (lifeOf rows).Unresolved := by
  simp only [terminalizeAttempt, bind_eq_ok, ensure_eq_ok, pure_eq_ok]
    at closed
  obtain ⟨-, ⟨stopped, settled⟩, rfl⟩ := closed
  refine ⟨?_, stopped, by rwa [unresolved_lifeOf]⟩
  rw [lifeOf_releaseReservation,
    lifeOf_updateCandidate _ _ (fun row => { row with state := .finished }) fun _ => rfl,
    lifeOf_updateJobOf _ _ outcome.jobStatus fun _ => rfl,
    lifeOf_updateAttempt _ _ (fun row =>
        { row with state := outcome.attemptState, revoked := true })]
  · rw [Change.closeExecution, own.attempt, own.candidate, own.job]
  · intro row
    cases revoked : row.revokedAt <;> simp [AttemptRow.life, revoked]

/-- The row of a canonical result. -/
structure ResultRow.Records
    (row : ResultRow) (result : DispatchResult) : Prop where
  outcome : row.outcome = result.outcome
  payload : row.payload = result

theorem insertResult_spec {attemptId : Option Uuid} {inserted : RequestRows × Uuid}
    (noResult : (lifeOf rows).results = [])
    (written : insertResult env rows attemptId result = .ok inserted) :
    ∃ row : ResultRow, row.attemptId = attemptId ∧ row.Records result ∧ row.id = inserted.2 ∧
      lifeOf inserted.1 = Change.insertResult row (lifeOf rows) := by
  rw [insertResult, (result?_eq_none rows).mpr noResult] at written
  obtain rfl := Except.ok.inj written
  exact ⟨_, rfl, ⟨rfl, rfl⟩, rfl, rfl⟩

/-- Finishing with a first result concludes the execution. -/
theorem finishResult_spec
    {hash : ResultHash} {usage : Option RawUsage} {finished : RequestRows × ResultReceipt}
    (own : y.Of x) (noResult : (lifeOf rows).results = [])
    (written : finishResult env rows x result hash usage = .ok finished) :
    ∃ row : ResultRow, row.attemptId = some y.attempt.id ∧ row.Records result ∧
      lifeOf finished.1 = Change.conclude y row hash (lifeOf rows) ∧
      x.a.stoppedAt ≠ none ∧ ¬ (lifeOf rows).Unresolved := by
  simp only [finishResult, bind_eq_ok, pure_eq_ok] at written
  obtain ⟨inserted, insertion, closed, closing, -, -, rfl⟩ := written
  obtain ⟨row, attempt, records, sameId, life⟩ := insertResult_spec noResult insertion
  obtain ⟨ended, stopped, settled⟩ := terminalizeAttempt_spec own closing
  refine ⟨row, by rw [attempt, own.attempt], records, ?_, stopped, ?_⟩
  · refine (lifeOf_insertAcceptance _ _ _ _ _ _).trans ?_
    rw [lifeOf_writeUsageOf, ended, transition, lifeOf_announce, life,
      Change.conclude, records.outcome, sameId, own.attempt]
    rfl
  · rw [transition, lifeOf_announce, life] at settled
    exact settled

/-- A stopped cancellation is finished, or nothing happens. -/
theorem finishStoppedCancellation_spec
    (own : y.Of x) (written : finishStoppedCancellation env rows x = .ok rows') :
    rows' = rows ∨ x.r.state = .cancelRequested ∧ (lifeOf rows).results = [] ∧
        x.a.stoppedAt ≠ none ∧ ¬ (lifeOf rows).Unresolved ∧
        ∃ row : ResultRow, row.attemptId = some y.attempt.id ∧
          row.Records stoppedCancellationResult ∧ lifeOf rows' = Change.conclude y row
            (.canonical stoppedCancellationResult) (lifeOf rows) := by
  unfold finishStoppedCancellation at written
  split at written
  · exact .inl (Except.ok.inj written).symm
  · rename_i requested
    split at written
    · exact .inl (Except.ok.inj written).symm
    · rename_i pending
      have noResult := (result?_eq_none rows).mp (not_not.mp pending)
      simp only [bind_eq_ok, pure_eq_ok] at written
      obtain ⟨finished, written, rfl⟩ := written
      obtain ⟨row, attempt, records, life, stopped, settled⟩ :=
        finishResult_spec own noResult written
      exact .inr ⟨not_not.mp (not_or.mp requested).1, noResult, stopped,
        settled, row, attempt, records, life⟩

/-! ## Stopping -/

/-- A recorded stop is the change of that name. -/
theorem recordStop_spec (acceptance : StopAcceptance) (actor : EventActor) :
    lifeOf (recordStop env rows x acceptance actor).rows = (Change.stop x.execution
        { receiptId := rows.nextEventId env
          unscoped := acceptance.kind.unscoped }).apply (lifeOf rows) := by
  simp only [recordStop]
  rw [lifeOf_updateAttempt _ _ (fun row => { row with stopped := true, revoked := true }),
    lifeOf_insertStop]
  · rfl
  · intro row
    cases revoked : row.revokedAt <;> simp [AttemptRow.life, revoked]

/-- What accepting a stop did: nothing, where it was accepted before, or the
change. -/
inductive StopAccepted
    (rows : RequestRows) (x : ArtifactAttempt) (stop : AcceptedStop) : Prop
  | replayed (sameRows : stop.rows = rows) (sameAttempt : stop.x = x)
      (notFresh : stop.fresh = false)
      (recorded : ∃ fact ∈ (lifeOf rows).stops,
        fact.attemptId = some x.a.id ∧ fact.receiptId = stop.id)
  | accepted (mark : StopMark) (receipt : mark.receiptId = stop.id) (life : lifeOf stop.rows =
        (Change.stop x.execution mark).apply (lifeOf rows))
      (own : x.execution.stopped.Of stop.x)
      (request : stop.x.r = x.r)
      (fresh : stop.fresh = true)
      (first : ¬ (lifeOf rows).StopOf x.a.id)
      (unstarted : mark.unscoped = true → x.a.startedAt = none)

theorem recordStop_accepted
    {acceptance : StopAcceptance} (actor : EventActor) (first : rows.stopsOf x.a.id = [])
    (unstarted : acceptance.kind.unscoped = true → x.a.startedAt = none) :
    StopAccepted rows x (recordStop env rows x acceptance actor) :=
  .accepted _ rfl (recordStop_spec acceptance actor) ⟨rfl, rfl, rfl⟩ rfl rfl
    (fun accepted => (stopOf_lifeOf rows x.a.id).mp accepted first) unstarted

theorem replayed_accepted {fact : StopFact} {others : List StopFact}
    (recorded : rows.stopsOf x.a.id = fact :: others) :
    StopAccepted rows x { rows := rows, x := x, id := fact.eventId, fresh := false } := by
  have chosen : fact ∈ rows.stopsOf x.a.id := by rw [recorded]; simp
  obtain ⟨member, named⟩ := List.mem_filter.mp chosen
  exact .replayed rfl rfl rfl ⟨fact.life, List.mem_map_of_mem member, of_decide_eq_true named, rfl⟩

variable {stop : AcceptedStop} {actor : Actor} {e : StopEvidence}

theorem acceptStopInTransaction_spec
    (written : acceptStopInTransaction env rows x e actor = .ok stop) :
    StopAccepted rows x stop := by
  simp only [acceptStopInTransaction, bind_eq_ok, require_eq_ok, ensure_eq_ok] at written
  obtain ⟨-, -, a, -, -, -, body, -, -, -, staged, -, -, -, -, -, -, -, written⟩ := written
  split at written
  · rename_i recorded
    simp only [bind_eq_ok, ensure_eq_ok, pure_eq_ok] at written
    obtain ⟨-, -, rfl⟩ := written
    exact replayed_accepted recorded
  · rename_i first
    obtain rfl := Except.ok.inj written
    apply recordStop_accepted _ first
    intro unscoped
    revert unscoped
    dsimp only
    split <;> exact fun unscoped => by cases unscoped

theorem acceptAttestedStop_spec (written : acceptAttestedStop env rows x e actor = .ok stop) :
    StopAccepted rows x stop := by
  simp only [acceptAttestedStop, bind_eq_ok, require_eq_ok, ensure_eq_ok]
    at written
  obtain ⟨a, -, -, -, body, -, -, -, since, -, -, -, staged, -, -, -, written⟩ := written
  split at written
  · rename_i recorded
    simp only [bind_eq_ok, ensure_eq_ok, pure_eq_ok] at written
    obtain ⟨-, -, rfl⟩ := written
    exact replayed_accepted recorded
  · rename_i first
    obtain rfl := Except.ok.inj written
    exact recordStop_accepted _ first fun unscoped => by cases unscoped

theorem acceptRecoveryStop_spec (written : acceptRecoveryStop env rows x e actor = .ok stop) :
    StopAccepted rows x stop := by
  unfold acceptRecoveryStop at written
  split at written
  · exact acceptStopInTransaction_spec written
  · exact acceptAttestedStop_spec written

theorem acceptClaimBoundStop_spec {reason : String} {observedAt : Option Timestamp}
    (written : acceptClaimBoundStopInTransaction env rows x reason observedAt actor = .ok stop) :
    StopAccepted rows x stop ∧ (stop.fresh = true → unscopedSignature rows x) := by
  simp only [acceptClaimBoundStopInTransaction, bind_eq_ok, require_eq_ok, ensure_eq_ok] at written
  obtain ⟨-, -, observed, -, written⟩ := written
  split at written
  · rename_i recorded
    simp only [bind_eq_ok, ensure_eq_ok, pure_eq_ok] at written
    obtain ⟨-, -, rfl⟩ := written
    exact ⟨replayed_accepted recorded, fun fresh => by cases fresh⟩
  · rename_i first
    simp only [bind_eq_ok, ensure_eq_ok, pure_eq_ok] at written
    obtain ⟨-, signature, -, -, -, -, stored, storing, rfl⟩ := written
    refine ⟨?_, fun _ => signature⟩
    have silent := lifeOf_insertArtifact storing
    refine .accepted { receiptId := stored.1.nextEventId env, unscoped := true } rfl ?_
      ⟨rfl, rfl, rfl⟩ rfl rfl
      (fun accepted => (stopOf_lifeOf rows x.a.id).mp accepted first)
      fun _ => signature.2.1
    rw [recordStop_spec, silent]
    rfl

theorem acceptSignedOffStop_spec (written : acceptSignedOffUnstartedStopInTransaction env rows x =
      some stop) :
    StopAccepted rows x stop ∧ stop.fresh = true ∧ unscopedSignature rows x := by
  unfold acceptSignedOffUnstartedStopInTransaction at written
  split at written
  · rename_i signedOff
    obtain ⟨-, signature, first⟩ := signedOff
    obtain rfl := Option.some.inj written
    exact ⟨recordStop_accepted _ first fun _ => signature.2.1, rfl, signature⟩
  · cases written

end Closing

end Dispatch
end Scrum4Me
