import Scrum4Me.Refinement.Selection

/-!
# Refinement of claims, starts and leases

The transactions on a live attempt: each of them moves request, candidate and
attempt together.
-/

namespace Scrum4Me
namespace Dispatch

open Foundation

section Attempts

variable {free : Uuid → Prop} {env : Env} {store : Store}
  {registry : Registry} {rows rows' : RequestRows}

/-! ## Claiming -/

theorem consumeRetryAuthorization_life (attemptId : Uuid) :
    lifeOf (consumeRetryAuthorization env rows attemptId) =
      Change.consume attemptId (lifeOf rows) := by
  unfold consumeRetryAuthorization
  cases authority : rows.request.retryAuthorizationEventId with
  | none => simp [Change.consume, lifeOf, authority]
  | some authorization =>
    have consumed := lifeOf_insertConsumption rows env none (.service none) authorization attemptId
    have own : (lifeOf rows).authority = some authorization := authority
    simp only [Change.consume, own, Option.toList_some, List.map_cons, List.map_nil]
    exact congrArg (fun life : Life => { life with authority := none }) consumed

theorem writeClaim_life (env : Env) (rows : RequestRows) (c : CandidateRow) (i : IncarnationRow)
    (claimKey : String) :
    lifeOf (writeClaim env rows c i claimKey) =
      (Change.claim c.life i.slotId (env.uuid .attempt rows.attempts.length)
        { incarnationId := i.id, key := claimKey }).apply (lifeOf rows) := by
  rw [writeClaim, state, lifeOf_announce, consumeRetryAuthorization_life]
  refine congrArg (Life.announced _ _) (congrArg (Change.consume _)
    ((lifeOf_insertEvent _ _ _ _ (by trivial)).trans ?_))
  rw [lifeOf_appendAttempt, lifeOf_updateJobOf _ _ .claimed fun _ => rfl,
    lifeOf_updateCandidate _ _ (fun row =>
        { row with state := .claimed, slotId := i.slotId, claimed := true })
      fun _ => rfl,
    lifeOf_markClaimed,
    lifeOf_updateReservation _ _ (fun row => { row with slotId := i.slotId }) fun _ => rfl]
  rfl

variable {actor : Actor}

/-- A claim either is of a slot that the candidate held already, or of a free
one. -/
theorem slot_of_claimable {i : IncarnationRow} {c : CandidateRow}
    (claimable : ClaimableBy env store actor i rows c) :
    i.slotId = c.reservedSlotId ∨ store.Free i.slotId := by
  obtain ⟨p, -, -, -, pool, found, member, -⟩ := claimable
  obtain ⟨s, offered, sameId, isFree⟩ := free_of_eligible (List.mem_of_find?_eq_some found) member
  obtain ⟨registered, inCapacity, rfl⟩ := List.mem_map.mp offered
  by_cases own : registered.id = c.reservedSlotId
  · rw [if_pos own] at sameId
    exact .inl (sameId.symm.trans own)
  · rw [if_neg own] at sameId isFree
    rw [openReservation_of_capacity inCapacity, sameId] at isFree
    exact .inr (of_decide_eq_false isFree)

variable {session : IncarnationRow × SlotRow} {proof : AttemptProof} {claimKey : String}
  {sessionCredential : Credential}

theorem claimCandidate_refines {candidateId : Uuid} {x : Locked}
    (claimed : claimCandidate env store actor session claimKey rows
      candidateId = .ok (some (rows', x))) (keys : rows.KeepsKeys rows') :
    ∃ c slotId attemptId, Refines store.Free rows rows' [.claim c slotId attemptId
        { incarnationId := session.1.id, key := claimKey }] := by
  unfold claimCandidate at claimed
  extract_lets r i retryRefused at claimed
  split at claimed
  · cases claimed
  · rename_i claimable
    simp only [not_or, not_not, not_and] at claimable
    obtain ⟨reserved, -, refused⟩ := claimable
    simp only [bind_eq_ok] at claimed
    obtain ⟨-, -, claimed⟩ := claimed
    split at claimed
    · cases claimed
    · rename_i c found
      split at claimed
      · cases claimed
      · rename_i current
        simp only [not_or, not_not] at current
        obtain ⟨candidateState, generation, unclaimed, -⟩ := current
        simp only [bind_eq_ok] at claimed
        obtain ⟨-, -, -, -, claimed⟩ := claimed
        split at claimed
        · rename_i claimable
          simp only [bind_eq_ok, ensure_eq_ok, pure_eq_ok, Option.some.injEq,
            Prod.mk.injEq] at claimed
          obtain ⟨-, -, rfl, -⟩ := claimed
          have life := writeClaim_life env rows c session.1 claimKey
          have attempts := (keys (sameId_of_life life rfl)).attempts
          have appended := congrArg (fun life : Life => life.attempts.map AttemptLife.id) life
          refine ⟨c.life, session.1.slotId,
            env.uuid .attempt rows.attempts.length, .one ⟨?_, reserved,
              generation, candidateState, ?_, ?_, ?_, ?_⟩ life⟩
          · exact List.mem_map_of_mem (candidate?_eq_some found).1
          · simp [CandidateRow.life, unclaimed]
          · apply retryAuthorized_of_claimed
            intro claimedBefore
            have granted := refused claimedBefore
            cases asserted : assertRetryAuthorization rows with
            | ok authorization => exact ⟨authorization, rfl⟩
            | error =>
              have refusal : retryRefused = true := by simp only [retryRefused, asserted]
              exact (granted refusal).elim
          · intro member
            have distinct : ((lifeOf (writeClaim env rows c session.1
                claimKey)).attempts.map AttemptLife.id).Nodup := by
              simpa [lifeOf, Function.comp_def, AttemptRow.life] using attempts
            rw [life] at distinct
            have split : (((Change.claim c.life session.1.slotId
                (env.uuid .attempt rows.attempts.length)
                { incarnationId := session.1.id, key := claimKey }).apply
                  (lifeOf rows)).attempts.map AttemptLife.id) =
                (lifeOf rows).attempts.map AttemptLife.id ++
                  [env.uuid .attempt rows.attempts.length] :=
              List.map_append
            rw [split] at distinct
            exact (List.nodup_append.mp distinct).2.2 _ member _ List.mem_cons_self rfl
          · exact slot_of_claimable claimable
        · cases claimed

theorem claimFirst_refines {candidates : List (RequestRows × Uuid)} {x : Locked}
    (claimed : claimFirst env store actor session claimKey candidates = .ok (some (rows', x)))
    (keys : ∀ rows id, (rows, id) ∈ candidates → rows.KeepsKeys rows') :
    ∃ rows, (∃ id, (rows, id) ∈ candidates) ∧
      ∃ c slotId attemptId, Refines store.Free rows rows' [.claim c slotId attemptId
          { incarnationId := session.1.id, key := claimKey }] := by
  induction candidates with
  | nil => cases claimed
  | cons candidate rest ih =>
    obtain ⟨rows, candidateId⟩ := candidate
    simp only [claimFirst, bind_eq_ok] at claimed
    obtain ⟨outcome, attempted, claimed⟩ := claimed
    cases outcome with
    | none =>
      obtain ⟨found, ⟨id, member⟩, refines⟩ := ih claimed
        fun rows id member => keys rows id (List.mem_cons_of_mem _ member)
      exact ⟨found, ⟨id, List.mem_cons_of_mem _ member⟩, refines⟩
    | some value =>
      obtain rfl := Option.some.inj (Except.ok.inj claimed)
      exact ⟨rows, ⟨candidateId, List.mem_cons_self⟩,
        claimCandidate_refines attempted (keys rows candidateId List.mem_cons_self)⟩

theorem mem_of_claimable {id : Uuid}
    (member : (rows, id) ∈ claimableCandidates env store actor.userId) :
    rows ∈ store.requests := by
  rw [claimableCandidates] at member
  have sorted := List.mem_of_mem_take member
  rw [List.mem_insertionSort, List.mem_flatMap] at sorted
  obtain ⟨own, inStore, pair⟩ := sorted
  obtain ⟨c, -, same⟩ := List.mem_map.mp pair
  obtain ⟨rfl, -⟩ := Prod.mk.inj same
  exact inStore

variable {incarnationId : Uuid} {scope : RuntimeScope}

/-- A session is of the incarnation that it was opened for. -/
theorem authenticateExecutorSession_id
    (authenticated : authenticateExecutorSession env registry actor
      incarnationId sessionCredential = .ok session) :
    session.1.id = incarnationId := by
  simp only [authenticateExecutorSession, bind_eq_ok, require_eq_ok, pure_eq_ok] at authenticated
  obtain ⟨-, -, i, found, s, -, -, -, rfl⟩ := authenticated
  rw [Registry.incarnation?] at found
  simpa using List.find?_some found

/-- A claim that changes anything changes one request of the store. -/
theorem claim_refines {answer : Option ClaimReceipt}
    (claimed : claimDispatchAttempt env store actor incarnationId claimKey
      sessionCredential = .ok (some rows', answer))
    (keys : ∀ rows ∈ store.requests, rows.KeepsKeys rows') :
    ∃ rows ∈ store.requests, ∃ c slotId attemptId,
      Refines store.Free rows rows' [.claim c slotId attemptId
          { incarnationId := incarnationId, key := claimKey }] := by
  simp only [claimDispatchAttempt, bind_eq_ok, ensure_eq_ok] at claimed
  obtain ⟨-, -, session, authenticated, claimed⟩ := claimed
  rw [← authenticateExecutorSession_id authenticated]
  split at claimed
  · simp only [bind_eq_ok, pure_eq_ok, Prod.mk.injEq] at claimed
    obtain ⟨-, -, -, -, noRows, -⟩ := claimed
    cases noRows
  · split at claimed
    · cases claimed
    · simp only [bind_eq_ok] at claimed
      obtain ⟨outcome, first, claimed⟩ := claimed
      cases outcome with
      | none => cases claimed
      | some value =>
        simp only [bind_eq_ok, pure_eq_ok, Prod.mk.injEq, Option.some.injEq] at claimed
        obtain ⟨-, -, rfl, -⟩ := claimed
        obtain ⟨rows, ⟨id, member⟩, refines⟩ := claimFirst_refines first
          fun rows id member => keys rows (mem_of_claimable member)
        exact ⟨rows, mem_of_claimable member, refines⟩

/-! ## Running -/

theorem writeStart_life (env : Env) (rows : RequestRows) (x : Locked) (scope : RuntimeScope) :
    lifeOf (writeStart env rows x scope) =
      (Change.start x.execution scope).apply (lifeOf rows) := by
  rw [writeStart, Dispatch.state, lifeOf_announce]
  refine congrArg (Life.announced _ _) ((lifeOf_insertScope _ _ _ _ _ _).trans ?_)
  rw [lifeOf_updateJobOf _ _ .running fun _ => rfl,
    lifeOf_updateCandidate _ _ (fun row => { row with state := .running }) fun _ => rfl,
    lifeOf_updateAttempt _ _ (fun row =>
        { row with
          state := .running
          scopeId := some scope.scopeId
          started := true })
      fun _ => rfl]
  rfl

theorem start_refines {permit : StartPermit}
    (started : startDispatchAttempt env store rows actor proof scope = .ok (rows', permit)) :
    Refines free rows rows' [] ∨ ∃ x, Refines free rows rows' [.start x scope] := by
  simp only [startDispatchAttempt, bind_eq_ok, ensure_eq_ok] at started
  obtain ⟨x, locked, -, -, -, -, -, ⟨-, -, active, state, attempt⟩, -, -,
    profile, -, -, -, started⟩ := started
  obtain ⟨lockedIn, -⟩ := lock_spec locked
  split at started
  · simp only [bind_eq_ok, pure_eq_ok, Prod.mk.injEq] at started
    obtain ⟨-, -, rfl, -⟩ := started
    exact .inl (.quiet rfl)
  · rename_i notRunning
    simp only [pure_eq_ok, Prod.mk.injEq] at started
    obtain ⟨rfl, -⟩ := started
    obtain ⟨generation, -, -, notRevoked, -⟩ := active
    rw [lockedIn.r] at generation state
    exact .inr ⟨x.execution, .one ⟨lockedIn.inLife, generation.symm,
      attempt.resolve_right notRunning, isSome_eq_false notRevoked, state⟩
      (writeStart_life env rows x scope)⟩

theorem uncertain_life (x : Locked) :
    lifeOf (uncertain env rows x) = (Change.lapse x.execution).apply (lifeOf rows) := by
  rw [uncertain, Dispatch.state, lifeOf_announce]
  refine congrArg (Life.announced _ _) ((lifeOf_insertEvent _ _ _ _ (by trivial)).trans ?_)
  rw [lifeOf_updateCandidate _ _ (fun row => { row with state := .uncertain }) fun _ => rfl,
    lifeOf_updateAttempt _ _ (fun row => { row with state := .uncertain }) fun _ => rfl]
  rfl

/-- Requiring a stop is a change of any execution with these keys. -/
theorem cancelForStop_life
    (x : Locked) (reason : String) {y : Execution} (attempt : y.attempt.id = x.a.id)
    (candidate : y.candidate.id = x.c.id) :
    lifeOf (cancelForStop env rows x reason) = (Change.requestStop y).apply (lifeOf rows) := by
  rw [cancelForStop, Dispatch.state, lifeOf_announce]
  refine congrArg (Life.announced _ _) ((lifeOf_insertEvent _ _ _ _ (by trivial)).trans ?_)
  rw [lifeOf_updateCandidate _ _ (fun row => { row with state := .cancelRequested }) fun _ => rfl,
    lifeOf_updateAttempt _ _ (fun row => { row with state := .cancelRequested, revoked := true })]
  · rw [← attempt, ← candidate]
  · intro row
    cases revoked : row.revokedAt <;> simp [AttemptRow.life, revoked]

theorem DispatchState.Live.not_terminal {state : DispatchState} (live : state.Live) :
    ¬ state.Terminal ∧ state ≠ .cancelRequested := by
  rcases live with rfl | rfl | rfl <;> decide

theorem AttemptState.Live.not_terminal {state : AttemptState} (live : state.Live) :
    ¬ state.Terminal := by
  rcases live with rfl | rfl | rfl <;> decide

/-- What the first half of a renewal does. -/
theorem lapse_cases (env : Env) (rows : RequestRows) (x : Locked) :
    (lapse env rows x).1 = rows ∧ (lapse env rows x).2 = x.a.state ∨
      (lapse env rows x).1 = uncertain env rows x ∧
        (lapse env rows x).2 = .uncertain ∧ x.a.state ≠ .uncertain := by
  unfold lapse
  split
  · rename_i ranOut
    exact .inr ⟨rfl, rfl, ranOut.1⟩
  · exact .inl ⟨rfl, rfl⟩

section Leases

variable {x : Locked}

theorem lapse_allowed (locked : x.LockedIn rows) (generation : x.c.generation = x.r.generation)
    (state : x.r.state.Live) (attempt : x.a.state.Live) (certain : x.a.state ≠ .uncertain)
    (notStopped : x.a.revokedAt ≠ none → x.a.stoppedAt ≠ none → rows.stopsOf x.a.id = []) :
    (Change.lapse x.execution).Allowed free (lifeOf rows) := by
  rw [locked.r] at generation state
  refine ⟨locked.inLife, generation, ?_, state, ?_⟩
  · rcases attempt with h | h | h
    · exact .inl h
    · exact .inr h
    · exact (certain h).elim
  · intro revoked stopped accepted
    exact (stopOf_lifeOf rows x.a.id).mp accepted (notStopped (Option.isSome_iff_ne_none.mp revoked)
        (Option.isSome_iff_ne_none.mp stopped))

theorem requestStop_allowed
    (locked : x.LockedIn rows) (generation : x.c.generation = x.r.generation)
    (state : x.r.state.Live) (attempt : x.a.state.Live) :
    (Change.requestStop x.execution).Allowed free (lifeOf rows) := by
  rw [locked.r] at generation state
  exact ⟨locked.inLife, generation, state.not_terminal.1,
    state.not_terminal.2, .inr attempt.not_terminal⟩

/-- The execution of a lapsed lease may still be asked to stop. -/
theorem requestStop_lapsed
    (locked : x.LockedIn rows) (generation : x.c.generation = x.r.generation) :
    (Change.requestStop (x.execution.moved
        (fun row => { row with state := .uncertain }) .uncertain)).Allowed free
      ((Change.lapse x.execution).apply (lifeOf rows)) := by
  rw [locked.r] at generation
  exact ⟨locked.inLife.moveExecution rfl .uncertain .uncertain, generation,
    (by decide : ¬ DispatchState.Terminal .uncertain), nofun,
    .inr (by decide : ¬ AttemptState.Terminal .uncertain)⟩

end Leases

/-- A renewal that demands a stop, after the lapse it may begin with. -/
theorem cancelLapsed_refines
    (free : Uuid → Prop) (env : Env) {x : Locked} (locked : x.LockedIn rows)
    (generation : x.c.generation = x.r.generation) (state : x.r.state.Live)
    (attempt : x.a.state.Live) (notRevoked : x.a.revokedAt = none) (reason : String) :
    (∃ y, Refines free rows (cancelForStop env (lapse env rows x).1 x reason) [.requestStop y]) ∨
      ∃ y z, Refines free rows (cancelForStop env (lapse env rows x).1 x reason)
        [.lapse y, .requestStop z] := by
  rcases lapse_cases env rows x with
    ⟨same, -⟩ | ⟨lapsed, -, certain⟩
  · rw [same]
    exact .inl ⟨x.execution, .one (requestStop_allowed locked generation state attempt)
        (cancelForStop_life x reason rfl rfl)⟩
  · rw [lapsed]
    refine .inr ⟨x.execution, _, .two (lapse_allowed locked generation state attempt certain
          fun revoked => (revoked notRevoked).elim)
        (requestStop_lapsed locked generation) ?_⟩
    rw [cancelForStop_life (y := x.execution.moved (fun row => { row with state := .uncertain })
        .uncertain) x reason rfl rfl, uncertain_life]

theorem renew_refines {scopeId : String} {stopRequired : Bool}
    (renewed : renewDispatchAttempt env store rows actor proof scopeId =
      .ok (rows', stopRequired)) :
    Refines free rows rows' [] ∨ (∃ x, Refines free rows rows' [.lapse x]) ∨
      (∃ x, Refines free rows rows' [.requestStop x]) ∨
      ∃ x y, Refines free rows rows' [.lapse x, .requestStop y] := by
  simp only [renewDispatchAttempt, bind_eq_ok] at renewed
  obtain ⟨x, locked, -, -, renewed⟩ := renewed
  obtain ⟨lockedIn, -⟩ := lock_spec locked
  split at renewed
  · simp only [pure_eq_ok, Prod.mk.injEq] at renewed
    obtain ⟨rfl, -⟩ := renewed
    exact .inl (.quiet rfl)
  · rename_i live
    simp only [not_or, not_not] at live
    obtain ⟨active, state, attempt⟩ := live
    obtain ⟨generation, -, -, notRevoked, -⟩ := active
    have stopping := cancelLapsed_refines free env lockedIn generation.symm state attempt notRevoked
    simp only [bind_eq_ok, ensure_eq_ok] at renewed
    obtain ⟨-, -, renewed⟩ := renewed
    split at renewed
    · simp only [pure_eq_ok, Prod.mk.injEq] at renewed
      obtain ⟨rfl, -⟩ := renewed
      exact .inr (.inr (stopping _))
    · split at renewed
      · simp only [pure_eq_ok, Prod.mk.injEq] at renewed
        obtain ⟨rfl, -⟩ := renewed
        exact .inr (.inr (stopping _))
      · simp only [pure_eq_ok, Prod.mk.injEq] at renewed
        obtain ⟨rfl, -⟩ := renewed
        have silent : lifeOf ((lapse env rows x).1.updateAttempt x.a.id
            fun row => { row with heartbeatAt := some env.now }) = lifeOf (lapse env rows x).1 :=
          lifeOf_updateAttempt_silent _ _ fun _ => rfl
        rcases lapse_cases env rows x with
          ⟨same, -⟩ | ⟨lapsed, -, certain⟩
        · exact .inl (.quiet (silent.trans (congrArg lifeOf same)))
        · refine .inr (.inl ⟨x.execution,
            .one (lapse_allowed lockedIn generation.symm state attempt certain
              fun revoked => (revoked notRevoked).elim) ?_⟩)
          rw [silent, lapsed, uncertain_life]

theorem reconcile_refines (free : Uuid → Prop)
    (reconciled : reconcileDispatchAttempt env store rows actor proof scope = .ok rows') :
    ∃ x, Refines free rows rows' [.resume x] := by
  simp only [reconcileDispatchAttempt, bind_eq_ok, ensure_eq_ok,
    require_eq_ok, pure_eq_ok] at reconciled
  obtain ⟨x, locked, -, -, -, -, -, ⟨-, -, active, state, attempt, started⟩,
    scopeId, -, profile, -, -, -, -, -, rfl⟩ := reconciled
  obtain ⟨lockedIn, -⟩ := lock_spec locked
  obtain ⟨generation, -, -, notRevoked, -⟩ := active
  rw [lockedIn.r] at generation state
  refine ⟨x.execution, .one ⟨lockedIn.inLife, generation.symm, attempt,
    isSome_eq_false notRevoked, Option.isSome_iff_ne_none.mpr started, state⟩ ?_⟩
  rw [writeResume, Dispatch.state, lifeOf_announce]
  refine congrArg (Life.announced _ _) ((lifeOf_insertEvent _ _ _ _ (by trivial)).trans ?_)
  rw [lifeOf_updateCandidate _ _ (fun row => { row with state := .running }) fun _ => rfl,
    lifeOf_updateAttempt _ _ (fun row => { row with state := .running }) fun _ => rfl]
  rfl

theorem markExpired_refines {candidateId attemptId : Uuid} {marked : Bool}
    (swept : markExpiredAttempt env registry rows candidateId attemptId = .ok (rows', marked)) :
    Refines free rows rows' [] ∨ (∃ x, Refines free rows rows' [.lapse x]) ∨
      ∃ x, Refines free rows rows' [.requestStop x] := by
  simp only [markExpiredAttempt, bind_eq_ok] at swept
  obtain ⟨x, locked, swept⟩ := swept
  obtain ⟨lockedIn, -⟩ := lock_spec locked
  split at swept
  · simp only [pure_eq_ok, Prod.mk.injEq] at swept
    obtain ⟨rfl, -⟩ := swept
    exact .inl (.quiet rfl)
  · rename_i live
    simp only [not_or, not_not, ne_eq, not_and] at live
    obtain ⟨generation, state, attempt, notStopped⟩ := live
    simp only [bind_eq_ok, require_eq_ok] at swept
    obtain ⟨profile, -, swept⟩ := swept
    split at swept
    · simp only [pure_eq_ok, Prod.mk.injEq] at swept
      obtain ⟨rfl, -⟩ := swept
      exact .inr (.inr ⟨x.execution,
        .one (requestStop_allowed lockedIn generation.symm state attempt)
          (cancelForStop_life x _ rfl rfl)⟩)
    · split at swept
      · simp only [pure_eq_ok, Prod.mk.injEq] at swept
        obtain ⟨rfl, -⟩ := swept
        exact .inl (.quiet rfl)
      · rename_i ranOut
        simp only [pure_eq_ok, Prod.mk.injEq] at swept
        obtain ⟨rfl, -⟩ := swept
        exact .inr (.inl ⟨x.execution, .one (lapse_allowed lockedIn generation.symm state attempt
            (not_or.mp ranOut).1 fun _ => notStopped) (uncertain_life x)⟩)

end Attempts

end Dispatch
end Scrum4Me
