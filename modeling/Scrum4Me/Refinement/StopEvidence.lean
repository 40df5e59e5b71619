import Scrum4Me.Refinement.Basic

/-!
# Refinement of accepted stops

An accepted stop is one change, and finishing the request it belongs to is
another. Only here can a change be stale.
-/

namespace Scrum4Me
namespace Dispatch

open Foundation

section StopEvidence

variable {free : Uuid → Prop} {env : Env} {store : Store}
  {registry : Registry} {rows rows' : RequestRows}

/-! ## Stopping -/

/-- A stop of an earlier attempt that finds its request ready to be cancelled. -/
structure ArtifactAttempt.StaleIn
    (x : ArtifactAttempt) (rows : RequestRows) : Prop where
  generation : x.c.generation ≠ x.r.generation
  requested : x.r.state = .cancelRequested
  pending : rows.result? = none
  settled : ¬ rows.UnresolvedPublication

section Stops

variable {x : ArtifactAttempt}

/-- Finishing a cancellation is allowed to any stopped attempt of the request. -/
theorem finish_allowed {life : Life} {y : Execution} {row : ResultRow} {submitted : ResultHash}
    (inLife : y.In life) (stopped : y.attempt.stopped = true)
    (settled : ¬ life.Unresolved) (noResult : life.results = [])
    (attempt : row.attemptId = some y.attempt.id)
    (requested : life.state = .cancelRequested) (outcome : row.outcome = .cancelled) :
    (Change.finish y row submitted).Allowed free life := by
  refine ⟨inLife, stopped, settled, noResult, attempt, ?_, ?_, ?_, fun _ => outcome, .inr requested⟩
  · rw [requested]
    decide
  · rw [requested]
    decide
  · rw [outcome]
    nofun

theorem stop_allowed
    (locked : x.LockedIn rows) {mark : StopMark} (first : ¬ (lifeOf rows).StopOf x.a.id)
    (unstarted : mark.unscoped = true → x.a.startedAt = none) :
    (Change.stop x.execution mark).Allowed free (lifeOf rows) :=
  ⟨locked.inLife, first, fun own => isSome_eq_false (unstarted own)⟩

/-- The paths of accepting a stop, which may finish its request. -/
inductive StopPath : List Change → Prop
  | replayed : StopPath []
  | stopped (x : Execution) (mark : StopMark) : StopPath [.stop x mark]
  | finished (x : Execution) (result : ResultRow) (submitted : ResultHash) :
      StopPath [.finish x result submitted]
  | stoppedAndFinished (x y : Execution) (mark : StopMark) (result : ResultRow)
      (submitted : ResultHash) :
      StopPath [.stop x mark, .finish y result submitted]

variable {proof : AttemptProof} {stop : AcceptedStop} {e : StopEvidence}

theorem stop_refines (free : Uuid → Prop) (locked : x.LockedIn rows)
    (accepted : StopAccepted rows x stop)
    (written : finishStoppedCancellation env stop.rows stop.x = .ok rows') :
    ∃ changes, StopPath changes ∧ Refines free rows rows' changes ∧
      ((lifeOf rows).Fresh changes ∨ x.StaleIn rows) := by
  cases accepted with
  | replayed sameRows sameAttempt _ _ =>
    rw [sameRows, sameAttempt] at written
    rcases finishStoppedCancellation_spec x.execution_of written with
      rfl | ⟨requested, noResult, stopped, settled, row, attempt, records, life⟩
    · exact ⟨[], .replayed, .quiet rfl, .inl trivial⟩
    · have outcome : row.outcome = .cancelled := records.outcome
      refine ⟨_, .finished x.execution row _, .one (finish_allowed locked.inLife
          (Option.isSome_iff_ne_none.mpr stopped) settled noResult attempt
          (by rwa [locked.r] at requested) outcome) life, ?_⟩
      by_cases generation : x.c.generation = x.r.generation
      · refine .inl ⟨?_, trivial⟩
        rw [locked.r] at generation
        exact not_not.mpr generation
      · exact .inr ⟨generation, requested, (result?_eq_none rows).mpr noResult,
          by rwa [unresolved_lifeOf] at settled⟩
  | accepted mark receipt life own request _ first unstarted =>
    have allowed : (Change.stop x.execution mark).Allowed free
        (lifeOf rows) := stop_allowed locked first unstarted
    rcases finishStoppedCancellation_spec own written with
      same | ⟨requested, noResult, stopped, settled, row, attempt, records, finished⟩
    · refine ⟨_, .stopped x.execution mark, .one allowed ?_, .inl ⟨not_false, trivial⟩⟩
      rw [same, life]
    · rw [life] at noResult settled finished
      rw [request] at requested
      have outcome : row.outcome = .cancelled := records.outcome
      refine ⟨_, .stoppedAndFinished x.execution x.execution.stopped mark
        row _, .two allowed (finish_allowed (locked.inLife.stop mark) rfl settled noResult
            attempt (by rwa [locked.r] at requested) outcome) finished, ?_⟩
      by_cases generation : x.c.generation = x.r.generation
      · refine .inl ⟨not_false, ?_, trivial⟩
        rw [locked.r] at generation
        exact not_not.mpr generation
      · exact .inr ⟨generation, requested, (result?_eq_none rows).mpr noResult,
          fun unresolved => settled ((unresolved_lifeOf rows).mpr unresolved)⟩

variable {receiptId : Uuid} {actor : Actor}

theorem submitStop_refines
    (submitted : submitStop env registry rows actor proof e = .ok (rows', receiptId)) :
    ∃ changes, StopPath changes ∧ Refines free rows rows' changes ∧ ((lifeOf rows).Fresh changes ∨
        ∃ x, lockArtifactAttempt env registry rows proof.attemptId = .ok x ∧ x.StaleIn rows) := by
  simp only [submitStop, bind_eq_ok, pure_eq_ok, Prod.mk.injEq] at submitted
  obtain ⟨x, locked, -, -, -, -, stop, accepted, closed, finished, rfl, -⟩ := submitted
  obtain ⟨changes, path, refines, fresh⟩ := stop_refines free
    (lockArtifactAttempt_spec locked).1 (acceptStopInTransaction_spec accepted)
    finished
  exact ⟨changes, path, refines, fresh.imp_right fun stale => ⟨x, locked, stale⟩⟩

theorem submitHistoricalStop_refines {binding : StartBinding}
    (submitted : submitHistoricalStop env registry rows actor binding e = .ok (rows', receiptId)) :
    ∃ changes, StopPath changes ∧ Refines free rows rows' changes ∧ ((lifeOf rows).Fresh changes ∨
        ∃ x, lockArtifactAttempt env registry rows binding.attemptId = .ok x ∧ x.StaleIn rows) := by
  simp only [submitHistoricalStop, bind_eq_ok, pure_eq_ok, Prod.mk.injEq]
    at submitted
  obtain ⟨x, locked, -, -, -, -, stop, accepted, closed, finished, rfl, -⟩ := submitted
  obtain ⟨changes, path, refines, fresh⟩ := stop_refines free
    (lockArtifactAttempt_spec locked).1 (acceptStopInTransaction_spec accepted)
    finished
  exact ⟨changes, path, refines, fresh.imp_right fun stale => ⟨x, locked, stale⟩⟩

/-- Closing a request with the unscoped stop that was just accepted. -/
theorem closeStopped_refines {result : DispatchResult} (locked : x.LockedIn rows)
    (accepted : StopAccepted rows x stop) (fresh : stop.fresh = true)
    (signature : unscopedSignature rows x) (failed : result.outcome = .failed)
    (closed : closeStopped env stop result = .ok rows') :
    ∃ changes, StopPath changes ∧ Refines free rows rows' changes ∧
      (lifeOf rows).Fresh changes := by
  obtain ⟨-, -, -, state, -, generation, -, -, noResult, settled⟩ := signature
  cases accepted with
  | replayed _ _ notFresh _ =>
    rw [fresh] at notFresh
    cases notFresh
  | accepted mark receipt life own request same first unstarted =>
    have allowed : (Change.stop x.execution mark).Allowed free
        (lifeOf rows) := stop_allowed locked first unstarted
    unfold closeStopped at closed
    split at closed
    · obtain ⟨changes, path, refines, fresh | stale⟩ :=
        stop_refines free locked (.accepted mark receipt life own request same first unstarted)
          closed
      · exact ⟨changes, path, refines, fresh⟩
      · exact (stale.generation generation.symm).elim
    · rename_i notRequested
      simp only [bind_eq_ok, pure_eq_ok] at closed
      obtain ⟨finished, closed, rfl⟩ := closed
      have pending := (result?_eq_none rows).mp noResult
      obtain ⟨row, attempt, records, concluded, -, idle⟩ :=
        finishResult_spec own (by rw [life]; exact pending) closed
      rw [life] at concluded idle
      have outcome : row.outcome = .failed := records.outcome.trans failed
      rw [request] at notRequested
      rw [locked.r] at state notRequested generation
      refine ⟨_, .stoppedAndFinished x.execution x.execution.stopped mark
        row _, .two allowed ⟨locked.inLife.stop mark, rfl, idle, pending,
          attempt, ?_, ?_, ?_, fun requested => ?_, .inl generation.symm⟩
          concluded, not_false, not_not.mpr generation.symm, trivial⟩
      · show ¬ rows.request.state.Terminal
        rcases state with h | h | h <;> rw [h] <;> decide
      · show rows.request.state ≠ .waiting
        rcases state with h | h | h <;> rw [h] <;> decide
      · rw [outcome]
        exact fun same => by cases same
      · exact (notRequested requested).elim

theorem submitClaimBoundStop_refines {reason : String} {observedAt : Option Timestamp}
    (submitted : submitClaimBoundStop env registry rows actor proof reason
      observedAt = .ok (rows', receiptId)) :
    ∃ changes, StopPath changes ∧ Refines free rows rows' changes ∧
      (lifeOf rows).Fresh changes := by
  simp only [submitClaimBoundStop, bind_eq_ok] at submitted
  obtain ⟨x, locked, -, -, -, -, stop, accepted, submitted⟩ := submitted
  obtain ⟨accepted, signature⟩ := acceptClaimBoundStop_spec accepted
  split at submitted
  · rename_i fresh
    simp only [bind_eq_ok, pure_eq_ok, Prod.mk.injEq] at submitted
    obtain ⟨closed, closing, rfl, -⟩ := submitted
    exact closeStopped_refines (lockArtifactAttempt_spec locked).1 accepted
      fresh (signature fresh) rfl closing
  · rename_i notFresh
    simp only [pure_eq_ok, Prod.mk.injEq] at submitted
    obtain ⟨rfl, -⟩ := submitted
    cases accepted with
    | replayed sameRows => exact ⟨[], .replayed, .quiet (congrArg lifeOf sameRows), trivial⟩
    | accepted _ _ _ _ _ fresh => exact (notFresh fresh).elim

theorem closeSignedOff_refines {attemptId : Uuid} {closed : Bool}
    (swept : closeSignedOffUnstartedAttempt env registry rows attemptId = .ok (rows', closed)) :
    ∃ changes, StopPath changes ∧ Refines free rows rows' changes ∧
      (lifeOf rows).Fresh changes := by
  simp only [closeSignedOffUnstartedAttempt, bind_eq_ok] at swept
  obtain ⟨x, locked, swept⟩ := swept
  split at swept
  · simp only [pure_eq_ok, Prod.mk.injEq] at swept
    obtain ⟨rfl, -⟩ := swept
    exact ⟨[], .replayed, .quiet rfl, trivial⟩
  · rename_i stop accepted
    obtain ⟨accepted, fresh, signature⟩ := acceptSignedOffStop_spec accepted
    simp only [bind_eq_ok, pure_eq_ok, Prod.mk.injEq] at swept
    obtain ⟨closed, closing, rfl, -⟩ := swept
    exact closeStopped_refines (lockArtifactAttempt_spec locked).1 accepted
      fresh signature rfl closing

end Stops

end StopEvidence

end Dispatch
end Scrum4Me
