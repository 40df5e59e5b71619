import Scrum4Me.Refinement.Basic

/-!
# Refinement of intake, sources and selection

Before a claim: a request is abandoned, its candidate is retired, or a free slot
is reserved for it.
-/

namespace Scrum4Me
namespace Dispatch

open Foundation

section Selection

variable {free : Uuid → Prop} {env : Env} {store : Store}
  {registry : Registry} {rows rows' : RequestRows}

/-! ## Rejecting and retiring -/

theorem closeUnclaimed_life (env : Env) (rows : RequestRows) (c : CandidateRow) :
    lifeOf (closeUnclaimed env rows c) = Change.retireCandidate c.life (lifeOf rows) := by
  rw [closeUnclaimed, lifeOf_releaseReservation,
    lifeOf_updateCandidate _ _ (fun row => { row with state := .retired }) fun _ => rfl,
    lifeOf_updateJobOf _ _ .cancelled fun _ => rfl]
  rfl

theorem writeRejection_life
    (env : Env) (reason : String) (change : Life → Life) {closed : RequestRows}
    (life : lifeOf closed = change (lifeOf rows)) :
    ∃ row : ResultRow, row.attemptId = none ∧ row.outcome = .failed ∧
      lifeOf (writeRejection env closed reason) =
        (Change.insertResult row (change (lifeOf rows))).announced
          row.outcome.dispatchState (some row.id) := by
  refine
    ⟨{ id := env.uuid .result closed.results.length
       attemptId := none
       outcome := .failed
       payload := rejectedResult reason
       sha256 := .json (rejectedResult reason) }, rfl, rfl, ?_⟩
  rw [writeRejection, lifeOf_announce]
  refine congrArg (Life.announced _ _) ((lifeOf_insertEvent _ _ _ _ (by trivial)).trans ?_)
  rw [← life]
  rfl

theorem rejectCandidate_refines {reason : String}
    (unstarted : rows.request.state = .waiting ∨ rows.request.state = .reserved)
    (authorized : (lifeOf rows).claimed = true → (lifeOf rows).RetryAuthorized)
    (consistent : (lifeOf rows).Consistent)
    (rejected : rejectUnstartedInTransaction.rejectCandidate env rows reason = .ok rows') :
    Refines free rows rows' [] ∨ ∃ c row, row.outcome = .failed ∧
        Refines free rows rows' [.abandon c row] := by
  obtain ⟨past, current, consistent⟩ := consistent
  have notTerminal : ¬ (lifeOf rows).state.Terminal := by
    show ¬ rows.request.state.Terminal
    rcases unstarted with h | h <;> rw [h] <;> decide
  have noResult := (consistent.results.pending notTerminal).1
  unfold rejectUnstartedInTransaction.rejectCandidate at rejected
  split at rejected
  · rename_i c found
    split at rejected
    · obtain rfl := Except.ok.inj rejected
      exact .inl (.quiet rfl)
    · rename_i closable
      obtain rfl := Except.ok.inj rejected
      obtain ⟨member, generation, isOpen⟩ := openCandidate?_eq_some found
      obtain ⟨row, noAttempt, outcome, life⟩ :=
        writeRejection_life env reason _ (closeUnclaimed_life env rows c)
      have unclaimed : c.life.claimed = false := by
        have := (not_or.mp closable).1
        simpa [CandidateRow.life] using this
      refine .inr ⟨some c.life, row, outcome, .one ⟨notTerminal, authorized,
        noResult, noAttempt, by rw [outcome]; decide, ?_⟩ life⟩
      exact ⟨List.mem_map_of_mem member, generation, isOpen, unclaimed⟩
  · rename_i missing
    obtain rfl := Except.ok.inj rejected
    obtain ⟨row, noAttempt, outcome, life⟩ :=
      writeRejection_life env reason id (rfl : lifeOf rows = _)
    exact .inr ⟨none, row, outcome, .one ⟨notTerminal, authorized, noResult,
      noAttempt, by rw [outcome]; decide, openCandidate?_eq_none missing⟩ life⟩

theorem rejectUnstarted_refines {reason : String} (consistent : (lifeOf rows).Consistent)
    (rejected : rejectUnstartedInTransaction env rows reason = .ok rows') :
    Refines free rows rows' [] ∨ ∃ c row, row.outcome = .failed ∧
        Refines free rows rows' [.abandon c row] := by
  simp only [rejectUnstartedInTransaction] at rejected
  split at rejected
  · obtain rfl := Except.ok.inj rejected
    exact .inl (.quiet rfl)
  · rename_i unstarted
    have unstarted : rows.request.state = .waiting ∨ rows.request.state = .reserved := by
      by_contra other
      exact unstarted (not_or.mp other)
    split at rejected
    · simp only [bind_eq_ok] at rejected
      obtain ⟨authorization, granted, rejected⟩ := rejected
      exact rejectCandidate_refines unstarted
        (fun _ => retryAuthorized_of_assert granted) consistent rejected
    · rename_i unclaimed
      exact rejectCandidate_refines unstarted (retryAuthorized_of_claimed fun claimed =>
          (claimed (not_not.mp unclaimed)).elim) consistent rejected

theorem retire_refines (free : Uuid → Prop) (env : Env) (rows : RequestRows) :
    Refines free rows (retireExpiredCandidate env rows).1 [] ∨
      ∃ c, Refines free rows (retireExpiredCandidate env rows).1 [.retire c] := by
  simp only [retireExpiredCandidate]
  split
  · exact .inl (.quiet rfl)
  · rename_i reserved
    obtain ⟨state, unclaimed⟩ := not_or.mp reserved
    split
    · exact .inl (.quiet rfl)
    · rename_i c found
      split
      · exact .inl (.quiet rfl)
      · rename_i closable
        have matched := List.find?_some found
        obtain ⟨generation, candidateState, -⟩ := of_decide_eq_true matched
        have member := List.mem_of_find?_eq_some found
        refine .inr ⟨c.life, .one ⟨List.mem_map_of_mem member,
          not_not.mp state, ?_, generation, candidateState, ?_⟩ ?_⟩
        · have := not_not.mp unclaimed
          simp [lifeOf, this]
        · have := not_not.mp (not_or.mp closable).1
          simp [CandidateRow.life, this]
        · rw [writeRetirement, lifeOf_announce]
          exact congrArg (Life.announced _ _) ((lifeOf_insertEvent _ _ _ _ (by trivial)).trans
              (closeUnclaimed_life env rows c))

theorem prepareSources_quiet {prepared : List PreparedSource} {repoUrl : Option String}
    (written : prepareSources env rows prepared repoUrl = .ok rows') :
    lifeOf rows' = lifeOf rows := by
  simp only [prepareSources] at written
  split at written
  · obtain rfl := Except.ok.inj written
    rfl
  · simp only [bind_eq_ok, ensure_eq_ok, pure_eq_ok] at written
    obtain ⟨-, -, -, -, stored, storing, rfl⟩ := written
    exact (lifeOf_insertEvent _ _ _ _ (by trivial)).trans (lifeOf_insertSources storing)

theorem recordSourceRetry_refines
    (free : Uuid → Prop) (attempt : Nat) (reason : String) (nextAttemptAt : Timestamp) :
    Refines free rows (recordSourceRetry env rows attempt reason nextAttemptAt) [] ∨
      ∃ explained, Refines free rows (recordSourceRetry env rows attempt reason nextAttemptAt)
        [.explain explained] := by
  simp only [recordSourceRetry]
  split
  · exact .inl (.quiet rfl)
  · rename_i waiting
    have state := not_not.mp (not_or.mp (not_or.mp waiting).2).2
    have retried : lifeOf (rows.insertEvent env none (.service none)
        (.sourceRetry attempt reason nextAttemptAt)) = lifeOf rows :=
      lifeOf_insertEvent _ _ _ _ trivial
    have explained := lifeOf_insertWaitingReason (rows.insertEvent env none (.service none)
        (.sourceRetry attempt reason nextAttemptAt)) env none (.service none)
      reason
    rw [retried] at explained
    exact .inr ⟨_, .one state explained⟩

theorem recordWaitingReason_refines (waiting : rows.request.state = .waiting) (reason : String) :
    Refines free rows (recordWaitingReason env rows reason) [] ∨
      ∃ explained, Refines free rows (recordWaitingReason env rows reason)
        [.explain explained] := by
  simp only [recordWaitingReason]
  split
  · exact .inl (.quiet rfl)
  · exact .inr ⟨_, .one waiting (lifeOf_insertWaitingReason rows env none (.service none) reason)⟩

/-! ## Free slots -/

/-- No open reservation holds the slot. -/
def Store.Free (store : Store) (slotId : Uuid) : Prop :=
  ¬ store.OpenReservation slotId

variable {request : RequestRow}

theorem openReservation_of_capacity {s : RegisteredSlot}
    (member : s ∈ (loadRegisteredCapacity env store request).slots) :
    s.openReservation = decide (store.OpenReservation s.id) := by
  obtain ⟨slot, -, registered⟩ := List.mem_filterMap.mp member
  unfold registeredSlot? at registered
  split at registered
  · cases registered
  · simp only [Option.ite_none_right_eq_some, Option.some.injEq] at registered
    obtain ⟨-, rfl⟩ := registered
    rfl

/-- Every slot of an eligible pool is one of the slots offered, and free. -/
theorem free_of_eligible {profiles : List ProfileRow} {slots : List RegisteredSlot}
    {now : Timestamp} {pool : EligiblePool} {slotId : Uuid}
    (eligible : pool ∈ eligibleExecutors request profiles slots now)
    (member : slotId ∈ pool.slotIds) :
    ∃ s ∈ slots, s.id = slotId ∧ s.openReservation = false := by
  rw [eligibleExecutors, List.mem_insertionSort, List.mem_flatMap] at eligible
  obtain ⟨profile, -, inPools⟩ := eligible
  obtain ⟨route, -, found⟩ := List.mem_filterMap.mp inPools
  simp only [eligiblePool?] at found
  split at found
  · cases found
  · obtain rfl := Option.some.inj found
    obtain ⟨s, own, rfl⟩ := List.mem_map.mp member
    rw [List.mem_insertionSort, List.mem_filter, List.mem_filter] at own
    obtain ⟨⟨offered, -⟩, isFree⟩ := own
    refine ⟨s, offered, rfl, ?_⟩
    simp only [RegisteredSlot.free, Bool.and_eq_true, Bool.not_eq_true'] at isFree
    exact isFree.1.1.2

/-! ## Reserving -/

@[simp] theorem managedJob_id (candidateId : Uuid) (profile : ProfileRow) (model : String) :
    (managedJob env rows candidateId profile model).id = env.uuid .job rows.jobs.length := rfl

theorem managedJob_life (candidateId : Uuid) (profile : ProfileRow) (model : String) :
    (managedJob env rows candidateId profile model).life =
      { id := env.uuid .job rows.jobs.length
        status := .queued
        task := rows.request.identity.task } := by
  unfold managedJob JobRow.life RequestIdentity.task requestJob
  cases action : rows.request.input.action <;>
    simp [RequestRow.identity, action]

theorem writeReservation_refines
    {route : Route} {profile : ProfileRow} {slot : RegisteredSlot} {model : String}
    (keys : (writeReservation env rows route profile slot model).KeysUnique)
    (waiting : rows.request.state = .waiting)
    (authorized : (lifeOf rows).claimed = true → (lifeOf rows).RetryAuthorized)
    (isFree : free slot.id) :
    ∃ candidateId jobId, Refines free rows (writeReservation env rows route profile slot model)
      [.reserve candidateId slot.id route jobId] := by
  have candidates := keys.candidates
  have jobs := keys.jobs
  simp only [writeReservation, RequestRows.announce, RequestRows.setRequest,
    RequestRows.writeDispatchOutbox, RequestRows.insertEvent,
    List.map_append, List.map_cons, List.map_nil] at candidates jobs
  refine ⟨env.uuid .candidate rows.candidates.length,
    if route = .job then some (env.uuid .job rows.jobs.length) else none,
    .one ⟨waiting, authorized, ?_, ?_, isFree⟩ ?_⟩
  · intro member
    obtain ⟨c, inside, sameId⟩ := List.mem_map.mp member
    obtain ⟨row, own, rfl⟩ := List.mem_map.mp inside
    exact (List.nodup_append.mp candidates).2.2 row.id
      (List.mem_map_of_mem own) _ List.mem_cons_self sameId
  · intro id named member
    obtain ⟨j, inside, sameId⟩ := List.mem_map.mp member
    obtain ⟨row, own, rfl⟩ := List.mem_map.mp inside
    split at named
    · rename_i onJob
      obtain rfl := Option.some.inj named
      rw [if_pos onJob] at jobs
      exact (List.nodup_append.mp jobs).2.2 row.id
        (List.mem_map_of_mem own) _ List.mem_cons_self sameId
    · cases named
  · rw [writeReservation, lifeOf_announce]
    refine congrArg (Life.announced _ _) ((lifeOf_insertEvent _ _ _ _ (by trivial)).trans ?_)
    cases route <;>
      simp [lifeOf, RequestRows.setRequest, CandidateRow.life,
        ReservationRow.life, managedJob_life, RequestRow.identity,
        RequestRows.startedScopes, RequestRows.stops,
        RequestRows.retryAuthorizations, RequestRows.retryConsumptions,
        RequestRows.waitingReason?]

theorem reserveAuthorized_refines
    (keys : rows.KeepsKeys rows') (consistent : (lifeOf rows).Consistent)
    (waiting : rows.request.state = .waiting)
    (authorized : (lifeOf rows).claimed = true → (lifeOf rows).RetryAuthorized)
    (reserved : reserveRequest.reserveAuthorized env store rows = .ok rows') :
    Refines store.Free rows rows' [] ∨ (∃ c row, row.outcome = .failed ∧
        Refines store.Free rows rows' [.abandon c row]) ∨
      (∃ explained, Refines store.Free rows rows' [.explain explained]) ∨
      ∃ candidateId slotId route jobId, Refines store.Free rows rows'
        [.reserve candidateId slotId route jobId] := by
  simp only [reserveRequest.reserveAuthorized] at reserved
  split at reserved
  · split at reserved
    · exact (rejectUnstarted_refines consistent reserved).imp_right .inl
    · obtain rfl := Except.ok.inj reserved
      exact (recordWaitingReason_refines waiting _).imp_right fun explained => .inr (.inl explained)
  · split at reserved
    · obtain rfl := Except.ok.inj reserved
      exact (recordWaitingReason_refines waiting _).imp_right fun explained => .inr (.inl explained)
    · rename_i pool slotId selected
      simp only [bind_eq_ok, require_eq_ok, pure_eq_ok] at reserved
      obtain ⟨profile, -, slot, found, model, -, rfl⟩ := reserved
      obtain ⟨chosen, inPools, inSlots⟩ := List.exists_of_findSome?_eq_some selected
      obtain ⟨id, first, same⟩ := Option.map_eq_some_iff.mp inSlots
      obtain ⟨rfl, rfl⟩ := Prod.mk.inj same
      have eligible := List.mem_of_mem_filter inPools
      obtain ⟨s, offered, sameId, noReservation⟩ :=
        free_of_eligible eligible (List.mem_of_find?_eq_some first)
      have matched := List.find?_some found
      have isFree : store.Free slot.id := by
        rw [of_decide_eq_true matched, ← sameId]
        rw [openReservation_of_capacity offered] at noReservation
        exact of_decide_eq_false noReservation
      obtain ⟨candidateId, jobId, refines⟩ :=
        writeReservation_refines (keys rfl) waiting authorized isFree
      exact .inr (.inr (.inr ⟨_, _, _, _, refines⟩))

theorem reserve_refines (keys : rows.KeepsKeys rows') (consistent : (lifeOf rows).Consistent)
    (reserved : reserveRequest env store rows = .ok rows') :
    Refines store.Free rows rows' [] ∨ (∃ c row, row.outcome = .failed ∧
        Refines store.Free rows rows' [.abandon c row]) ∨
      (∃ explained, Refines store.Free rows rows' [.explain explained]) ∨
      ∃ candidateId slotId route jobId, Refines store.Free rows rows'
        [.reserve candidateId slotId route jobId] := by
  simp only [reserveRequest] at reserved
  split at reserved
  · obtain rfl := Except.ok.inj reserved
    exact .inl (.quiet rfl)
  · rename_i possible
    have waiting := not_not.mp (not_or.mp (not_or.mp possible).2).1
    split at reserved
    · simp only [bind_eq_ok] at reserved
      obtain ⟨authorization, granted, reserved⟩ := reserved
      exact reserveAuthorized_refines keys consistent waiting
        (fun _ => retryAuthorized_of_assert granted) reserved
    · rename_i unclaimed
      exact reserveAuthorized_refines keys consistent waiting
        (retryAuthorized_of_claimed fun claimed => (claimed (not_not.mp unclaimed)).elim) reserved

end Selection

end Dispatch
end Scrum4Me
