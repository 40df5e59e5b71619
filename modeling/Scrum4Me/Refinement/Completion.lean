import Scrum4Me.Refinement.StopEvidence

/-!
# Refinement of result acceptance

Of the three transactions only the last one changes the life of its request.
-/

namespace Scrum4Me
namespace Dispatch

open Foundation

section Completion

variable {free : Uuid → Prop} {env : Env} {store : Store} {registry : Registry}
  {rows rows' : RequestRows} {x : ArtifactAttempt} {submission : Submission} {authority : Authority}
  {actor : Actor}

theorem terminal_quiet {old : ResultRow} :
    lifeOf (terminal env rows x submission old).1 = lifeOf rows := by
  unfold terminal
  split
  · rfl
  · have recorded : lifeOf (rows.insertEvent env (some x.a.id) (.service none)
        (.lateResult submission.hash submission.result)) = lifeOf rows :=
      lifeOf_insertEvent _ _ _ _ trivial
    simp only
    split
    · rw [lifeOf_writeUsageOf, recorded]
    · exact recorded

theorem acceptPrepare_quiet {preparation : Preparation}
    (accepted : acceptPrepare env registry rows actor authority submission =
      .ok (rows', preparation)) :
    lifeOf rows' = lifeOf rows := by
  simp only [acceptPrepare, bind_eq_ok] at accepted
  obtain ⟨x, -, accepted⟩ := accepted
  split at accepted
  · simp only [pure_eq_ok, Prod.mk.injEq] at accepted
    obtain ⟨rfl, -⟩ := accepted
    exact terminal_quiet
  · simp only [bind_eq_ok, ensure_eq_ok, pure_eq_ok, Prod.mk.injEq]
      at accepted
    obtain ⟨-, -, -, -, -, -, rfl, -⟩ := accepted
    rfl

theorem recordVerification_quiet {artifactId : Uuid} {allowed : Bool}
    (recorded : recordVerification env registry rows actor authority
      artifactId allowed = .ok rows') :
    lifeOf rows' = lifeOf rows := by
  simp only [recordVerification, bind_eq_ok, pure_eq_ok] at recorded
  obtain ⟨x, -, rfl⟩ := recorded
  exact lifeOf_insertEvent _ _ _ _ trivial

theorem acceptFinish_refines {result : DispatchResult} {receipt : ResultReceipt}
    (accepted : acceptFinish env registry rows actor authority submission
      result = .ok (rows', receipt)) :
    Refines free rows rows' [] ∨ ∃ y row, Refines free rows rows' [.finish y row submission.hash] ∧
        (lifeOf rows).Fresh [.finish y row submission.hash] := by
  simp only [acceptFinish, bind_eq_ok] at accepted
  obtain ⟨x, locked, accepted⟩ := accepted
  obtain ⟨lockedIn, -⟩ := lockAuthorized_spec locked
  split at accepted
  · simp only [pure_eq_ok] at accepted
    refine .inl (.quiet ?_)
    rw [← show (terminal env rows x submission _).1 = rows' from
      congrArg Prod.fst accepted]
    exact terminal_quiet
  · rename_i pending
    simp only [bind_eq_ok, ensure_eq_ok] at accepted
    obtain ⟨-, ⟨generation, -⟩, accepted⟩ := accepted
    have noResult := (result?_eq_none rows).mp pending
    rw [lockedIn.r] at generation accepted
    have fresh : ∀ row, (lifeOf rows).Fresh [.finish x.execution row submission.hash] :=
      fun row => ⟨not_not.mpr generation.symm, trivial⟩
    split at accepted
    · rename_i requested
      have late : lifeOf (rows.insertEvent env (some x.a.id) (.service none)
          (.lateResult submission.hash submission.result)) = lifeOf rows :=
        lifeOf_insertEvent _ _ _ _ trivial
      obtain ⟨row, attempt, records, life, marked, settled⟩ :=
        finishResult_spec x.execution_of (by rw [late]; exact noResult) accepted
      rw [late] at life settled
      exact .inr ⟨x.execution, row, .one (finish_allowed lockedIn.inLife
          (Option.isSome_iff_ne_none.mpr marked) settled noResult attempt
          requested records.outcome) life, fresh row⟩
    · rename_i notRequested
      simp only [bind_eq_ok, ensure_eq_ok] at accepted
      obtain ⟨-, state, accepted⟩ := accepted
      obtain ⟨row, attempt, records, life, marked, settled⟩ :=
        finishResult_spec x.execution_of noResult accepted
      refine .inr ⟨x.execution, row, .one ⟨lockedIn.inLife,
        Option.isSome_iff_ne_none.mpr marked, settled, noResult, attempt, ?_,
        ?_, fun _ => state, fun requested => (notRequested requested).elim,
        .inl generation.symm⟩ life, fresh row⟩
      · show ¬ rows.request.state.Terminal
        rcases state with h | h <;> rw [h] <;> decide
      · show rows.request.state ≠ .waiting
        rcases state with h | h <;> rw [h] <;> decide

end Completion

end Dispatch
end Scrum4Me
