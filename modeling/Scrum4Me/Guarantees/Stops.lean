import Scrum4Me.Guarantees.Capacity

/-!
# Stop means stopped

Once a stop of an attempt was accepted, no permit is signed for it and no lease
of it goes on; and a stop that stands in for a scope that never existed excludes
every start permit, before it and after.
-/

namespace Scrum4Me
namespace Dispatch

open Foundation

section Permits

variable {env : Env} {store store' : Store} {input : Input} {answer : Answer}
  {rows rows' : RequestRows} {actor : Actor} {proof : AttemptProof}

/-! ## Permits -/

variable {permit : StartPermit} {scope : RuntimeScope} {result : Except Failure (Registry × α)}

/-- Only a start answers with a permit. -/
theorem permit_of_transactRows {action : Action}
    (written : transactRows env store rows action = .ok (rows', .permit permit)) :
    ∃ actor proof scope, action = .start actor proof scope ∧
      startDispatchAttempt env store rows actor proof scope = .ok (rows', permit) := by
  cases action with
  | start actor proof scope =>
    obtain ⟨signed, started, same⟩ := answering_eq_ok.mp written
    obtain rfl := Answer.permit.inj same
    exact ⟨actor, proof, scope, rfl, started⟩
  | _ => simp [transactRows, answering_eq_ok, silently_eq_ok] at written

variable {answerOf : α → Answer}

theorem onRegistry_answer (committed : onRegistry store result answerOf = .ok (store', answer)) :
    ∃ value, answerOf value = answer := by
  simp only [onRegistry, bind_eq_ok, pure_eq_ok, Prod.mk.injEq] at committed
  obtain ⟨changed, -, -, same⟩ := committed
  exact ⟨changed.2, same⟩

/-- An answer that hands nothing to a supervisor. -/
def Answer.Plain : Answer → Prop
  | .permit _ => False
  | .claim _ => False
  | _ => True

theorem onRegistry_plain (committed : onRegistry store result answerOf = .ok (store', answer))
    (plain : ∀ value, (answerOf value).Plain) :
    answer.Plain := by
  obtain ⟨value, rfl⟩ := onRegistry_answer committed
  exact plain value

/-- A transaction works on the rows of one request, claims, or answers
plainly. -/
theorem perform_cases (committed : perform store input = .ok (store', answer)) :
    (∃ rows rows', rows ∈ store.requests ∧
        transactRows input.env store rows input.action = .ok (rows', answer) ∧
        store' = { store.put rows' with clock := input.env.clock }) ∨
      (∃ actor incarnationId claimKey sessionCredential receipt, input.action =
            .claim actor incarnationId claimKey sessionCredential ∧ answer = .claim receipt) ∨
      answer.Plain := by
  obtain ⟨env, action⟩ := input
  obtain ⟨changed, transacted, -⟩ := perform_eq_ok committed
  cases action with
  | submit =>
    simp only [transact, bind_eq_ok, pure_eq_ok, Prod.mk.injEq] at transacted
    obtain ⟨_, _, _, rfl⟩ := transacted
    exact .inr (.inr trivial)
  | claim actor incarnationId claimKey sessionCredential =>
    simp only [transact, bind_eq_ok] at transacted
    obtain ⟨claimed, -, transacted⟩ := transacted
    refine .inr (.inl ⟨actor, incarnationId, claimKey, sessionCredential, claimed.2, rfl, ?_⟩)
    split at transacted <;> cases transacted <;> rfl
  | republish =>
    cases transacted
    exact .inr (.inr trivial)
  | register => exact .inr (.inr (onRegistry_plain transacted fun _ => trivial))
  | heartbeat => exact .inr (.inr (onRegistry_plain transacted fun _ => trivial))
  | createSlot => exact .inr (.inr (onRegistry_plain transacted fun _ => trivial))
  | disableSlot => exact .inr (.inr (onRegistry_plain transacted fun _ => trivial))
  | createProfile => exact .inr (.inr (onRegistry_plain transacted fun _ => trivial))
  | revokeProfile => exact .inr (.inr (onRegistry_plain transacted fun _ => trivial))
  | _ => exact .inl (perform_rows committed rfl)

theorem permit_of_perform (committed : perform store input = .ok (store', .permit permit)) :
    ∃ rows rows' actor proof scope, rows ∈ store.requests ∧
      input.action = .start actor proof scope ∧
      startDispatchAttempt input.env store rows actor proof scope = .ok (rows', permit) ∧
      store' = { store.put rows' with clock := input.env.clock } := by
  rcases perform_cases committed with
    ⟨rows, rows', member, written, rfl⟩ | ⟨_, _, _, _, _, -, same⟩ | plain
  · obtain ⟨actor, proof, scope, action, started⟩ := permit_of_transactRows written
    exact ⟨rows, rows', actor, proof, scope, member, action, started, rfl⟩
  · cases same
  · exact plain.elim

/-- Only a claim answers with a receipt. -/
theorem claim_of_perform {receipt : Option ClaimReceipt}
    (committed : perform store input = .ok (store', .claim receipt)) :
    ∃ actor incarnationId claimKey sessionCredential, input.action =
        .claim actor incarnationId claimKey sessionCredential := by
  rcases perform_cases committed with
    ⟨rows, rows', -, written, -⟩ |
      ⟨actor, incarnationId, claimKey, sessionCredential, -, action, -⟩ | plain
  · cases action : input.action <;>
      simp [action, transactRows, answering_eq_ok, silently_eq_ok] at written
  · exact ⟨actor, incarnationId, claimKey, sessionCredential, action⟩
  · exact plain.elim

/-! ## What a live lease proves -/

/-- The attempt after its start. -/
def AttemptRow.startedWith (a : AttemptRow) (env : Env) (scope : RuntimeScope) : AttemptRow :=
  { a with
    state := .running
    scopeId := some scope.scopeId
    startedAt := some env.now
    heartbeatAt := some env.now }

theorem mem_writeStart {x : Locked} (member : x.a ∈ rows.attempts) :
    x.a.startedWith env scope ∈ (writeStart env rows x scope).attempts := by
  have written : (writeStart env rows x scope).attempts = updateWhere (fun row => row.id = x.a.id)
        (fun row => row.startedWith env scope) rows.attempts := by
    unfold writeStart
    cases x.c.jobId <;> rfl
  rw [written]
  exact mem_updateWhere.mpr (.inl ⟨x.a, member, by simp, rfl⟩)

/-- What a permit binds its supervisor to. -/
def Locked.binding (x : Locked) (scope : RuntimeScope) : StartBinding :=
  { requestId := x.r.id
    candidateId := x.c.id
    generation := x.c.generation
    attemptId := x.a.id
    incarnationId := x.a.incarnationId
    scope := scope }

/-- A start signs a permit for its active attempt, whose scope is on record
already or is recorded now. -/
theorem start_spec
    (started : startDispatchAttempt env store rows actor proof scope = .ok (rows', permit)) :
    ∃ x : Locked, x.LockedIn rows ∧ x.a.id = proof.attemptId ∧
      store.registry.incarnation? x.a.incarnationId = some x.i ∧ x.Active ∧
      (x.r.state = .claimed ∨ x.r.state = .running) ∧ permit.binding = x.binding scope ∧
      (rows' = rows ∧ x.a.state = .running ∧ rows.scopesOf x.a.id = [scope] ∨
        rows' = writeStart env rows x scope) := by
  simp only [startDispatchAttempt, bind_eq_ok, ensure_eq_ok] at started
  obtain ⟨x, locked, -, -, -, -, -, ⟨-, -, active, state, -⟩, -, -, profile, -,
    -, -, started⟩ := started
  obtain ⟨lockedIn, named⟩ := lock_spec locked
  refine ⟨x, lockedIn, named, lock_incarnation locked, active, state, ?_⟩
  split at started
  · rename_i running
    simp only [verifyRecordedScope, bind_eq_ok, ensure_eq_ok, pure_eq_ok, Prod.mk.injEq] at started
    obtain ⟨-, recorded, rfl, rfl⟩ := started
    exact ⟨rfl, .inl ⟨rfl, running, recorded⟩⟩
  · simp only [pure_eq_ok, Prod.mk.injEq] at started
    obtain ⟨rfl, rfl⟩ := started
    exact ⟨rfl, .inr rfl⟩

/-- A permit is for an attempt that was not revoked, and that has started now. -/
theorem start_signs
    (started : startDispatchAttempt env store rows actor proof scope = .ok (rows', permit)) :
    ∃ a ∈ rows.attempts, a.id = permit.binding.attemptId ∧
      a.id = proof.attemptId ∧ a.revokedAt = none ∧ (rows' = rows ∧ a.state = .running ∨
        ∃ a' ∈ rows'.attempts, a'.id = a.id ∧ a'.startedAt ≠ none) := by
  obtain ⟨x, lockedIn, named, -, active, -, bound, outcome⟩ := start_spec started
  refine ⟨x.a, lockedIn.a, by rw [bound]; rfl, named, active.2.2.2.1, ?_⟩
  rcases outcome with ⟨rfl, running, -⟩ | rfl
  · exact .inl ⟨rfl, running⟩
  · exact .inr ⟨_, mem_writeStart lockedIn.a, rfl, nofun⟩

/-- A renewal that goes on is of an attempt that was not revoked. -/
theorem renew_goes_on {scopeId : String}
    (renewed : renewDispatchAttempt env store rows actor proof scopeId = .ok (rows', false)) :
    ∃ a ∈ rows.attempts, a.id = proof.attemptId ∧ a.revokedAt = none := by
  simp only [renewDispatchAttempt, bind_eq_ok] at renewed
  obtain ⟨x, locked, -, -, renewed⟩ := renewed
  obtain ⟨lockedIn, named⟩ := lock_spec locked
  split at renewed
  · cases renewed
  · rename_i live
    exact ⟨x.a, lockedIn.a, named, (not_not.mp (not_or.mp live).1).2.2.2.1⟩

theorem reconcile_revives
    (reconciled : reconcileDispatchAttempt env store rows actor proof scope = .ok rows') :
    ∃ a ∈ rows.attempts, a.id = proof.attemptId ∧ a.revokedAt = none := by
  simp only [reconcileDispatchAttempt, bind_eq_ok, ensure_eq_ok]
    at reconciled
  obtain ⟨x, locked, -, -, -, -, -, ⟨-, -, active, -⟩, -⟩ := reconciled
  obtain ⟨lockedIn, named⟩ := lock_spec locked
  exact ⟨x.a, lockedIn.a, named, active.2.2.2.1⟩

end Permits

/-! ## Accepted stops -/

section Accepted

variable {store store' : Store} {input : Input} {answer : Answer}
  {rows rows' : RequestRows} {attemptId : Uuid}

/-- An attempt belongs to one request. -/
theorem Store.Sound.request_of_attempt (sound : store.Sound) (member : rows ∈ store.requests)
    (member' : rows' ∈ store.requests) {a a' : AttemptRow} (own : a ∈ rows.attempts)
    (own' : a' ∈ rows'.attempts) (sameId : a.id = a'.id) :
    rows = rows' := by
  have distinct := sound.keys.attempts
  rw [Store.allAttempts, List.map_flatMap] at distinct
  exact group_of_key distinct member member' (List.mem_map_of_mem own)
    (sameId ▸ List.mem_map_of_mem own')

/-- An attempt has at most one accepted stop. -/
theorem Life.Consistent.stops_once (consistent : (lifeOf rows).Consistent) (attemptId : Uuid) :
    (rows.stopsOf attemptId).length ≤ 1 := by
  obtain ⟨past, current, consistent⟩ := consistent
  rw [← rows.count_stops_lifeOf]
  by_cases accepted : (lifeOf rows).StopOf attemptId
  · obtain ⟨stop, member, named⟩ := List.mem_map.mp accepted
    obtain ⟨a, own, same⟩ := consistent.stops.known stop member
    obtain rfl := Option.some.inj (named.symm.trans same)
    rw [(consistent.stops.recorded a own).stops]
    split <;> omega
  · rw [List.count_eq_zero.mpr accepted]
    omega

/-- An accepted stop leaves its attempt without authority. -/
theorem Store.Sound.revoked (sound : store.Sound) (member : rows ∈ store.requests)
    (accepted : rows.stopsOf attemptId ≠ []) (member' : rows' ∈ store.requests)
    {a : AttemptRow} (own : a ∈ rows'.attempts) (named : a.id = attemptId) :
    a.revokedAt ≠ none := by
  obtain ⟨past, current, consistent⟩ := sound.consistent rows member
  have stopOf := (stopOf_lifeOf rows attemptId).mpr accepted
  obtain ⟨stop, inside, same⟩ := List.mem_map.mp stopOf
  obtain ⟨b, bOwn, bNamed⟩ := consistent.stops.known stop inside
  obtain ⟨row, rowMember, rfl⟩ := List.mem_map.mp bOwn
  have rowId : row.id = attemptId := (Option.some.inj (same.symm.trans bNamed)).symm
  obtain rfl := sound.request_of_attempt member member' rowMember own (rowId.trans named.symm)
  have recorded := consistent.stops.recorded a.life (List.mem_map_of_mem own)
  rw [← named] at stopOf
  exact Option.isSome_iff_ne_none.mp (recorded.revoked (recorded.stopOf_iff.mp stopOf))

/-- A stopped attempt gets nothing any more: no permit, no renewal that goes on,
and no reconciliation. -/
structure Refuses
    (input : Input) (answer : Answer) (attemptId : Uuid) : Prop where
  permit : ∀ permit, answer = .permit permit →
    permit.binding.attemptId ≠ attemptId
  renew : ∀ actor proof scopeId, input.action = .renew actor proof scopeId →
    proof.attemptId = attemptId → answer ≠ .renewed false
  reconcile : ∀ actor proof scope,
    input.action = .reconcile actor proof scope → proof.attemptId ≠ attemptId

theorem Store.Sound.refuses
    (sound : store.Sound) (committed : perform store input = .ok (store', answer))
    (member : rows ∈ store.requests) (accepted : rows.stopsOf attemptId ≠ []) :
    Refuses input answer attemptId where
  permit := by
    rintro permit rfl named
    obtain ⟨other, other', actor, proof, scope, inStore, -, started, -⟩ :=
      permit_of_perform committed
    obtain ⟨a, own, sameId, -, notRevoked, -⟩ := start_signs started
    exact sound.revoked member accepted inStore own (sameId.trans named) notRevoked
  renew := by
    rintro actor proof scopeId action named rfl
    obtain ⟨env, _⟩ := input
    obtain rfl := action
    obtain ⟨other, other', inStore, written, -⟩ := perform_rows committed rfl
    obtain ⟨stopRequired, renewed, same⟩ := answering_eq_ok.mp written
    obtain rfl := Answer.renewed.inj same
    obtain ⟨a, own, sameId, notRevoked⟩ := renew_goes_on renewed
    exact sound.revoked member accepted inStore own (sameId.trans named) notRevoked
  reconcile := by
    intro actor proof scope action named
    obtain ⟨env, _⟩ := input
    obtain rfl := action
    obtain ⟨other, other', inStore, written, -⟩ := perform_rows committed rfl
    simp only [transactRows, answering_eq_ok, map_eq_ok, Prod.mk.injEq]
      at written
    obtain ⟨_, ⟨moved, reconciled, rfl, -⟩, -⟩ := written
    obtain ⟨a, own, sameId, notRevoked⟩ := reconcile_revives reconciled
    exact sound.revoked member accepted inStore own (sameId.trans named) notRevoked

/-- A permit leaves its attempt started, in the store it was signed in. -/
theorem Store.Sound.started_of_permit (sound : store.Sound) {permit : StartPermit}
    (committed : perform store input = .ok (store', .permit permit)) :
    ∃ rows ∈ store'.requests, ∃ a ∈ rows.attempts,
      a.id = permit.binding.attemptId ∧ a.startedAt ≠ none := by
  obtain ⟨rows, rows', actor, proof, scope, member, -, started, rfl⟩ := permit_of_perform committed
  obtain ⟨a, own, named, -, -, outcome⟩ := start_signs started
  obtain ⟨before, later, split⟩ := List.append_of_mem member
  have sameId : rows'.request.id = rows.request.id := by
    have refined : Refines store.Free rows rows' [] ∨
        ∃ x, Refines store.Free rows rows' [.start x scope] :=
      start_refines started
    rcases refined with refines | ⟨x, refines⟩
    · exact refines.sameId
    · exact refines.sameId
  refine ⟨rows', ?_, ?_⟩
  · show rows' ∈ (store.put rows').requests
    rw [put_split sound.keys.requests split sameId]
    simp
  · rcases outcome with ⟨rfl, running⟩ | ⟨a', own', sameAttempt, started⟩
    · obtain ⟨past, current, consistent⟩ := sound.consistent _ member
      have recorded := consistent.stops.recorded a.life (List.mem_map_of_mem own)
      exact ⟨a, own, named, Option.isSome_iff_ne_none.mp (recorded.running running)⟩
    · exact ⟨a', own', sameAttempt.trans named, started⟩

end Accepted

/-! ## Resending a stop -/

/-- The attempt whose stop the supervisor sends, scoped or bound to its claim. -/
def Action.sentStop? : Action → Option Uuid
  | .submitStop _ proof _ => some proof.attemptId
  | .submitHistoricalStop _ binding _ => some binding.attemptId
  | .submitClaimBoundStop _ proof _ _ => some proof.attemptId
  | _ => none

/-- The stop that the action sends is the stop of a scope. -/
def Action.SendsScopedStop : Action → Prop
  | .submitStop .. => True
  | .submitHistoricalStop .. => True
  | _ => False

/-- Only the stop of its attempt keeps the request from being cancelled. -/
structure RequestRows.AwaitsCancellation (rows : RequestRows) : Prop where
  requested : rows.request.state = .cancelRequested
  pending : rows.result? = none
  settled : ¬ rows.UnresolvedPublication

/-- A stop of the attempt was answered with this receipt. -/
def Life.Receipted (life : Life) (attemptId receiptId : Uuid) : Prop :=
  ∃ stop ∈ life.stops, stop.attemptId = some attemptId ∧
    stop.receiptId = receiptId

section Resending

variable {env : Env} {store store' : Store} {registry : Registry}
  {input : Input} {answer : Answer} {rows rows' : RequestRows}
  {x : ArtifactAttempt} {stop : AcceptedStop} {attemptId receiptId : Uuid}

theorem Life.Later.receipted {life life' : Life} (later : life.Later life')
    (receipted : life.Receipted attemptId receiptId) :
    life'.Receipted attemptId receiptId := by
  obtain ⟨stop, member, named⟩ := receipted
  exact ⟨stop, later.stops.subset member, named⟩

theorem Life.Receipted.stopOf {life : Life} (receipted : life.Receipted attemptId receiptId) :
    life.StopOf attemptId := by
  obtain ⟨stop, member, named, -⟩ := receipted
  exact List.mem_map.mpr ⟨stop, member, named⟩

/-- An attempt has one receipt. -/
theorem Life.Consistent.receipt_unique {receiptId' : Uuid} (consistent : (lifeOf rows).Consistent)
    (receipted : (lifeOf rows).Receipted attemptId receiptId)
    (receipted' : (lifeOf rows).Receipted attemptId receiptId') :
    receiptId' = receiptId := by
  have once := consistent.stops_once attemptId
  rw [← rows.count_stops_lifeOf, List.count_eq_countP, List.countP_map,
    List.countP_eq_length_filter] at once
  obtain ⟨stop, member, named, rfl⟩ := receipted
  obtain ⟨stop', member', named', rfl⟩ := receipted'
  have chosen : ∀ other ∈ (lifeOf rows).stops, other.attemptId = some attemptId →
      other ∈ (lifeOf rows).stops.filter ((fun id => id == some attemptId) ∘ StopLife.attemptId) :=
    fun other own same => List.mem_filter.mpr ⟨own, beq_iff_eq.mpr same⟩
  obtain ⟨first, second⟩ := And.intro (chosen stop member named) (chosen stop' member' named')
  generalize (lifeOf rows).stops.filter _ = found at once first second
  match found with
  | [] => cases first
  | [only] =>
    obtain rfl := List.mem_singleton.mp first
    obtain rfl := List.mem_singleton.mp second
    rfl
  | _ :: _ :: _ => simp at once

theorem StopAccepted.receipted (accepted : StopAccepted rows x stop) :
    (lifeOf stop.rows).Receipted x.a.id stop.id := by
  cases accepted with
  | replayed sameRows _ _ recorded =>
    rw [sameRows]
    exact recorded
  | accepted mark receipt life =>
    rw [life]
    exact ⟨_, List.mem_append_right _ (List.mem_singleton_self _), rfl, receipt⟩

/-- Finishing a cancellation accepts no stop. -/
theorem StopAccepted.stops_finish (accepted : StopAccepted rows x stop)
    (written : finishStoppedCancellation env stop.rows stop.x = .ok rows') :
    (lifeOf rows').stops = (lifeOf stop.rows).stops := by
  obtain ⟨y, own⟩ : ∃ y : Execution, y.Of stop.x := by
    cases accepted with
    | replayed _ sameAttempt =>
      rw [sameAttempt]
      exact ⟨_, x.execution_of⟩
    | accepted _ _ _ own => exact ⟨_, own⟩
  rcases finishStoppedCancellation_spec own written with
    rfl | ⟨-, -, -, -, row, -, -, life⟩
  · rfl
  · rw [life]
    rfl

theorem StopAccepted.stops_close {result : DispatchResult} (accepted : StopAccepted rows x stop)
    (fresh : stop.fresh = true) (signature : unscopedSignature rows x)
    (written : closeStopped env stop result = .ok rows') :
    (lifeOf rows').stops = (lifeOf stop.rows).stops := by
  unfold closeStopped at written
  split at written
  · exact accepted.stops_finish written
  · simp only [bind_eq_ok, pure_eq_ok] at written
    obtain ⟨finished, written, rfl⟩ := written
    cases accepted with
    | replayed _ _ notFresh =>
      rw [fresh] at notFresh
      cases notFresh
    | accepted mark receipt life own =>
      have noResult := (result?_eq_none rows).mp signature.2.2.2.2.2.2.2.2.1
      obtain ⟨row, -, -, concluded, -⟩ :=
        finishResult_spec own (by rw [life]; exact noResult) written
      rw [concluded]
      rfl

/-- The stop of a scope that was accepted before only finishes a cancellation. -/
theorem StopAccepted.resent (accepted : StopAccepted rows x stop) (locked : x.LockedIn rows)
    (earlier : (lifeOf rows).StopOf x.a.id)
    (written : finishStoppedCancellation env stop.rows stop.x = .ok rows') :
    rows' = rows ∨ rows.AwaitsCancellation ∧ rows'.request.state = .cancelled := by
  cases accepted with
  | accepted _ _ _ _ _ _ first => exact (first earlier).elim
  | replayed sameRows sameAttempt =>
    rw [sameRows, sameAttempt] at written
    rcases finishStoppedCancellation_spec x.execution_of written with
      same | ⟨requested, noResult, -, settled, row, -, records, life⟩
    · exact .inl same
    · refine .inr ⟨⟨?_, (result?_eq_none rows).mpr noResult, ?_⟩, ?_⟩
      · rwa [locked.r] at requested
      · rwa [unresolved_lifeOf] at settled
      · have state := congrArg Life.state life
        exact state.trans (congrArg Outcome.dispatchState records.outcome)

/-- What sending a stop leaves behind, once and again. -/
structure SendsStop
    (action : Action) (rows rows' : RequestRows) (attemptId receiptId : Uuid) :
    Prop where
  receipted : (lifeOf rows').Receipted attemptId receiptId
  resent : (lifeOf rows).StopOf attemptId → rows' = rows ∨
    action.SendsScopedStop ∧ rows.AwaitsCancellation ∧
      rows'.request.state = .cancelled

variable {e : StopEvidence}

theorem submitStop_sends {actor : Actor} {proof : AttemptProof}
    (written : submitStop env store.registry rows actor proof e = .ok (rows', receiptId)) :
    SendsStop (.submitStop actor proof e) rows rows' proof.attemptId receiptId := by
  simp only [submitStop, bind_eq_ok, pure_eq_ok, Prod.mk.injEq] at written
  obtain ⟨x, locked, -, -, -, -, stop, accepting, closed, finished, rfl, rfl⟩ := written
  obtain ⟨lockedIn, named⟩ := lockArtifactAttempt_spec locked
  have accepted := acceptStopInTransaction_spec accepting
  rw [← named]
  constructor
  · rw [Life.Receipted, accepted.stops_finish finished]
    exact accepted.receipted
  · intro earlier
    exact (accepted.resent lockedIn earlier finished).imp_right fun awaits => ⟨trivial, awaits⟩

theorem submitHistoricalStop_sends {actor : Actor} {binding : StartBinding}
    (written : submitHistoricalStop env store.registry rows actor binding e =
      .ok (rows', receiptId)) :
    SendsStop (.submitHistoricalStop actor binding e) rows rows' binding.attemptId receiptId := by
  simp only [submitHistoricalStop, bind_eq_ok, pure_eq_ok, Prod.mk.injEq]
    at written
  obtain ⟨x, locked, -, -, -, -, stop, accepting, closed, finished, rfl, rfl⟩ := written
  obtain ⟨lockedIn, named⟩ := lockArtifactAttempt_spec locked
  have accepted := acceptStopInTransaction_spec accepting
  rw [← named]
  constructor
  · rw [Life.Receipted, accepted.stops_finish finished]
    exact accepted.receipted
  · intro earlier
    exact (accepted.resent lockedIn earlier finished).imp_right fun awaits => ⟨trivial, awaits⟩

theorem submitClaimBoundStop_sends {actor : Actor} {proof : AttemptProof} {reason : String}
    {observedAt : Option Timestamp}
    (written : submitClaimBoundStop env store.registry rows actor proof reason
      observedAt = .ok (rows', receiptId)) :
    SendsStop (.submitClaimBoundStop actor proof reason observedAt)
      rows rows' proof.attemptId receiptId := by
  simp only [submitClaimBoundStop, bind_eq_ok] at written
  obtain ⟨x, locked, -, -, -, -, stop, accepting, written⟩ := written
  obtain ⟨-, named⟩ := lockArtifactAttempt_spec locked
  obtain ⟨accepted, signature⟩ := acceptClaimBoundStop_spec accepting
  rw [← named]
  split at written
  · rename_i fresh
    simp only [bind_eq_ok, pure_eq_ok, Prod.mk.injEq] at written
    obtain ⟨closed, closing, rfl, rfl⟩ := written
    constructor
    · rw [Life.Receipted, accepted.stops_close fresh (signature fresh) closing]
      exact accepted.receipted
    · intro earlier
      cases accepted with
      | replayed _ _ notFresh =>
        rw [fresh] at notFresh
        cases notFresh
      | accepted _ _ _ _ _ _ first => exact (first earlier).elim
  · rename_i notFresh
    simp only [pure_eq_ok, Prod.mk.injEq] at written
    obtain ⟨rfl, rfl⟩ := written
    constructor
    · exact accepted.receipted
    · intro earlier
      cases accepted with
      | replayed sameRows => exact .inl sameRows
      | accepted _ _ _ _ _ fresh => exact (notFresh fresh).elim

/-- A committed transaction that sends a stop. -/
theorem sends_of_perform
    (sound : store.Sound) (committed : perform store input = .ok (store', answer))
    (sends : input.action.sentStop? = some attemptId) :
    ∃ before rows rows' later receiptId, store.requests = before ++ rows :: later ∧
      store'.requests = before ++ rows' :: later ∧
      store' = { store.put rows' with clock := input.env.clock } ∧
      rows'.request.id = rows.request.id ∧ answer = .receipt receiptId ∧
      SendsStop input.action rows rows' attemptId receiptId := by
  obtain ⟨env, action⟩ := input
  cases action with
  | submitStop actor proof e =>
    obtain ⟨before, rows, rows', later, changes, split, split', written, put,
      evolves⟩ := sound.transaction committed rfl
    obtain ⟨receiptId, submitted, rfl⟩ := answering_eq_ok.mp written
    cases sends
    exact ⟨before, rows, rows', later, receiptId, split, split', put,
      evolves.refines.sameId, rfl, submitStop_sends submitted⟩
  | submitHistoricalStop actor binding e =>
    obtain ⟨before, rows, rows', later, changes, split, split', written, put,
      evolves⟩ := sound.transaction committed rfl
    obtain ⟨receiptId, submitted, rfl⟩ := answering_eq_ok.mp written
    cases sends
    exact ⟨before, rows, rows', later, receiptId, split, split', put,
      evolves.refines.sameId, rfl, submitHistoricalStop_sends submitted⟩
  | submitClaimBoundStop actor proof reason observedAt =>
    obtain ⟨before, rows, rows', later, changes, split, split', written, put,
      evolves⟩ := sound.transaction committed rfl
    obtain ⟨receiptId, submitted, rfl⟩ := answering_eq_ok.mp written
    cases sends
    exact ⟨before, rows, rows', later, receiptId, split, split', put,
      evolves.refines.sameId, rfl, submitClaimBoundStop_sends submitted⟩
  | _ => cases sends

theorem Store.Sound.request_of_stop (sound : store.Sound) (member : rows ∈ store.requests)
    (member' : rows' ∈ store.requests) (accepted : (lifeOf rows).StopOf attemptId)
    (accepted' : (lifeOf rows').StopOf attemptId) :
    rows = rows' := by
  have known : ∀ {rows : RequestRows}, rows ∈ store.requests → (lifeOf rows).StopOf attemptId →
      ∃ a ∈ rows.attempts, a.id = attemptId := by
    intro rows member accepted
    obtain ⟨past, current, consistent⟩ := sound.consistent rows member
    obtain ⟨stop, inside, named⟩ := List.mem_map.mp accepted
    obtain ⟨b, own, same⟩ := consistent.stops.known stop inside
    obtain ⟨a, rowMember, rfl⟩ := List.mem_map.mp own
    exact ⟨a, rowMember, (Option.some.inj (named.symm.trans same)).symm⟩
  obtain ⟨a, own, named⟩ := known member accepted
  obtain ⟨a', own', named'⟩ := known member' accepted'
  exact sound.request_of_attempt member member' own own' (named.trans named'.symm)

theorem Store.put_self (keys : (store.requests.map fun rows => rows.request.id).Nodup)
    (member : rows ∈ store.requests) :
    store.put rows = store := by
  obtain ⟨before, later, split⟩ := List.append_of_mem member
  have same := put_split keys split (rfl : rows.request.id = rows.request.id)
  rw [← split] at same
  calc
    store.put rows = { store with requests := (store.put rows).requests } := rfl
    _ = store := by rw [same]

/-- The input finishes the cancellation of a request that only waits for it. What
it makes of the request when its stop is stale is left open. -/
def Input.FinishesCancellation (store store' : Store) (input : Input) : Prop :=
  ∃ rows ∈ store.requests, rows.AwaitsCancellation ∧
    ∃ rows', rows'.request.id = rows.request.id ∧
      store' = { store.put rows' with clock := input.env.clock } ∧
      (¬ input.action.StaleStop input.env store.registry rows →
        rows'.request.state = .cancelled)

/-- The receipt of a stop is on record once it was answered. -/
theorem Store.Sound.answered_stop
    (sound : store.Sound) (committed : perform store input = .ok (store', answer))
    (sends : input.action.sentStop? = some attemptId) :
    ∃ receiptId, answer = .receipt receiptId ∧ ∃ rows ∈ store'.requests,
        (lifeOf rows).Receipted attemptId receiptId := by
  obtain ⟨before, rows, rows', later, receiptId, -, split', -, -, rfl, sent⟩ :=
    sends_of_perform sound committed sends
  exact ⟨receiptId, rfl, rows', by rw [split']; simp, sent.receipted⟩

/-- A stop that was answered before is answered the same way again, and changes
nothing but a cancellation that it finishes. -/
theorem Store.Sound.resend (sound : store.Sound) (recorded : ∃ rows ∈ store.requests,
      (lifeOf rows).Receipted attemptId receiptId)
    (committed : perform store input = .ok (store', answer))
    (sends : input.action.sentStop? = some attemptId) :
    answer = .receipt receiptId ∧ (store' = { store with clock := input.env.clock } ∨
        input.action.SendsScopedStop ∧ input.FinishesCancellation store store') := by
  obtain ⟨old, oldMember, receipted⟩ := recorded
  obtain ⟨before, rows, rows', later, receiptId', split, split', put, sameId,
    rfl, sent⟩ := sends_of_perform sound committed sends
  have member : rows ∈ store.requests := by rw [split]; simp
  have member' : rows' ∈ store'.requests := by rw [split']; simp
  have performs := perform_performs sound.consistent sound.keys committed
  have sound' := sound.of_performs performs
  have next : store' = execute store input := by
    rw [execute, committed]
    rfl
  have own : old = rows := by
    obtain ⟨old', oldMember', oldId⟩ := sound.exists_successor oldMember input
    rw [← next] at oldMember'
    have later := (sound.successor oldMember (next ▸ oldMember') oldId).later
    obtain rfl := sound'.request_of_stop oldMember' member'
      (later.receipted receipted).stopOf sent.receipted.stopOf
    exact sound.request_unique member oldMember (oldId.symm.trans sameId)
  subst own
  have later := (sound.successor member (next ▸ member') sameId).later
  constructor
  · rw [(sound'.consistent rows' member').receipt_unique (later.receipted receipted) sent.receipted]
  · rcases sent.resent receipted.stopOf with rfl | ⟨ofScope, awaits, cancelled⟩
    · rw [store.put_self sound.keys.requests member] at put
      exact .inl put
    · exact .inr ⟨ofScope, old, member, awaits, rows', sameId, put, fun _ => cancelled⟩

end Resending

/-! ## The run -/

section Runs

variable {earlier inputs : List Input} {input : Input} {store : Store}
  {rows : RequestRows} {answer : Answer} {attemptId receiptId : Uuid}

/-- A run that goes on from an earlier one. -/
theorem run_of_prefix (isPrefix : earlier <+: inputs) :
    ∃ rest, after inputs = run execute (after earlier) rest := by
  obtain ⟨rest, rfl⟩ := isPrefix
  exact ⟨rest, run_append _ _ _⟩

theorem after_next (committed : perform (after earlier) input = .ok (store, answer)) :
    after (earlier ++ [input]) = store := by
  show run execute Store.empty (earlier ++ [input]) = store
  rw [run_append, run_cons, run_nil]
  show execute (after earlier) input = store
  rw [execute, committed]
  rfl

/-- A request of an earlier store is in the store later, and leads a later
life. -/
theorem Store.Sound.exists_later
    (sound : store.Sound) (rest : List Input) (member : rows ∈ store.requests) :
    ∃ rows' ∈ (run execute store rest).requests,
      rows'.request.id = rows.request.id ∧ (lifeOf rows).Later (lifeOf rows') := by
  induction rest generalizing store rows with
  | nil => exact ⟨rows, member, rfl, .refl _⟩
  | cons next rest ih =>
    obtain ⟨rows', own, sameId⟩ := sound.exists_successor member next
    obtain ⟨rows'', own', sameId', later⟩ := ih (sound.next next) own
    exact ⟨rows'', own', sameId'.trans sameId,
      (sound.successor member own sameId).later.trans later⟩

/-- Requests stay, and their records with them. -/
def Store.Keeps (store : Store) (rest : List Input) : Prop :=
  ∀ rows ∈ store.requests, ∃ rows' ∈ (run execute store rest).requests,
    rows'.request.id = rows.request.id ∧ (lifeOf rows).Later (lifeOf rows')

theorem records_kept (inputs rest : List Input) : (after inputs).Keeps rest :=
  fun _ member => (sound_after inputs).exists_later rest member

theorem stopped_later (isPrefix : earlier <+: inputs) (member : rows ∈ (after earlier).requests)
    (accepted : rows.stopsOf attemptId ≠ []) :
    ∃ rows' ∈ (after inputs).requests, rows'.stopsOf attemptId ≠ [] := by
  obtain ⟨rest, same⟩ := run_of_prefix isPrefix
  obtain ⟨rows', own, -, later⟩ := (sound_after earlier).exists_later rest member
  rw [← same] at own
  exact ⟨rows', own, (stopOf_lifeOf rows' attemptId).mp
    (later.stopOf ((stopOf_lifeOf rows attemptId).mpr accepted))⟩

theorem receipted_later (isPrefix : earlier <+: inputs) (member : rows ∈ (after earlier).requests)
    (receipted : (lifeOf rows).Receipted attemptId receiptId) :
    ∃ rows' ∈ (after inputs).requests, (lifeOf rows').Receipted attemptId receiptId := by
  obtain ⟨rest, same⟩ := run_of_prefix isPrefix
  obtain ⟨rows', own, -, later⟩ := (sound_after earlier).exists_later rest member
  rw [← same] at own
  exact ⟨rows', own, later.receipted receipted⟩

/-- No stop without a scope is ever on record for an attempt that a permit was
signed for. -/
theorem scoped_of_permit {permit : StartPermit}
    (signed : perform (after earlier) input = .ok (store, .permit permit))
    (isPrefix : earlier ++ [input] <+: inputs) (member : rows ∈ (after inputs).requests) :
    ∀ stop ∈ rows.stopsOf permit.binding.attemptId, stop.acceptance.kind.unscoped = false := by
  intro stop accepted
  obtain ⟨old, oldMember, a, own, named, started⟩ := (sound_after earlier).started_of_permit signed
  rw [← after_next signed] at oldMember
  obtain ⟨rest, same⟩ := run_of_prefix isPrefix
  obtain ⟨rows', member', -, later⟩ :=
    (sound_after (earlier ++ [input])).exists_later rest oldMember
  rw [← same] at member'
  obtain ⟨b, inside, laterAttempt⟩ := later.attempts a.life (List.mem_map_of_mem own)
  have inLife : stop.life ∈ (lifeOf rows).stops :=
    List.mem_map_of_mem (List.mem_of_mem_filter accepted)
  have ofAttempt : stop.attemptId = some permit.binding.attemptId :=
    of_decide_eq_true (List.mem_filter.mp accepted).2
  have sound := sound_after inputs
  obtain ⟨past, current, consistent⟩ := sound.consistent rows member
  obtain ⟨known, knownMember, knownId⟩ := consistent.stops.known _ inLife
  obtain ⟨a', own', rfl⟩ := List.mem_map.mp inside
  obtain ⟨a'', own'', rfl⟩ := List.mem_map.mp knownMember
  have sameAttempt : a''.id = a'.id := by
    have named' : some a''.id = some permit.binding.attemptId := knownId.symm.trans ofAttempt
    exact (Option.some.inj named').trans (named.symm.trans laterAttempt.id.symm)
  obtain rfl := sound.request_of_attempt member member' own'' own' sameAttempt
  have recorded := consistent.stops.recorded a'.life (List.mem_map_of_mem own')
  have begun := laterAttempt.started (Option.isSome_iff_ne_none.mpr started)
  by_contra unscoped
  have notStarted := recorded.unscoped stop.life inLife
    (ofAttempt.trans (congrArg some (named.symm.trans laterAttempt.id.symm)))
    (Bool.eq_true_of_not_eq_false unscoped)
  rw [begun] at notStarted
  cases notStarted

end Runs

/-- Stop means stopped. -/
theorem stop_means_stopped (inputs : List Input) :
    (∀ rows ∈ (after inputs).requests, ∀ attemptId,
        (rows.stopsOf attemptId).length ≤ 1) ∧
      (∀ earlier, earlier <+: inputs →
        ∀ rows ∈ (after earlier).requests, ∀ attemptId,
          rows.stopsOf attemptId ≠ [] → ∀ next store answer,
            perform (after inputs) next = .ok (store, answer) →
            Refuses next answer attemptId) ∧
      (∀ earlier input store permit, earlier ++ [input] <+: inputs →
        perform (after earlier) input = .ok (store, .permit permit) →
        ∀ rows ∈ (after inputs).requests,
          ∀ stop ∈ rows.stopsOf permit.binding.attemptId,
            stop.acceptance.kind.unscoped = false) ∧
      ∀ earlier input store answer attemptId, earlier ++ [input] <+: inputs →
        perform (after earlier) input = .ok (store, answer) →
        input.action.sentStop? = some attemptId →
        ∀ again store' answer', again.action.sentStop? = some attemptId →
          perform (after inputs) again = .ok (store', answer') →
          answer' = answer ∧ (store' = { after inputs with clock := again.env.clock } ∨
              again.action.SendsScopedStop ∧
                again.FinishesCancellation (after inputs) store') := by
  have sound := sound_after inputs
  refine ⟨?_, ?_, ?_, ?_⟩
  · intro rows member attemptId
    exact (sound.consistent rows member).stops_once attemptId
  · intro earlier isPrefix rows member attemptId accepted next store answer
      committed
    obtain ⟨rows', member', accepted'⟩ :=
      stopped_later isPrefix member accepted
    exact sound.refuses committed member' accepted'
  · intro earlier input store permit isPrefix signed rows member
    exact scoped_of_permit signed isPrefix member
  · intro earlier input store answer attemptId isPrefix committed sends again
      store' answer' sendsAgain committed'
    obtain ⟨receiptId, rfl, rows, member, receipted⟩ :=
      (sound_after earlier).answered_stop committed sends
    rw [← after_next committed] at member
    exact sound.resend (receipted_later isPrefix member receipted) committed'
      sendsAgain

namespace Deployment

def code : Document :=
  .code
    { branchOf := 400
      baseSha := "base"
      headSha := "head"
      repoUrl := "repository"
      checks := [] }

/-- The supervisor sends the stop of the first attempt. -/
def sendStop (moment : Timestamp) (artifactId : Uuid) : Input :=
  input moment (.submitStop owner (proof 600 1 700) (evidence artifactId))

/-- The first attempt stored its code and stopped. -/
def finished : List Input :=
  running ++ [input 9 (.storeArtifact owner (proof 600 1 700) "code" code (artifactHash code)),
      input 10 (.stageStop owner observation (artifactHash (.stopObservation observation)))]

/-- The code is on its way to the remote. -/
def sent : List Input :=
  [input 12 (.preparePublication owner (.proof (proof 600 1 700)) 901 "main"),
    input 13 (.sendPublication owner (.proof (proof 600 1 700)) 1200)]

/-- The request is cancelled, and then the push is confirmed. -/
def cancelledAfterPush : List Input :=
  [cancel 14 4,
    input 15 (.storeReceipt
      { operationId := 1200
        status := .confirmed
        branchOf := 400
        headSha := "head"
        prUrl := none })]

end Deployment

/-- Resending the stop of the first attempt at once changes nothing. -/
theorem resend_deployment :
    (∀ rows ∈ (after (Deployment.finished ++ [Deployment.sendStop 11 1002])).requests,
      (rows.stopsOf 700).length ≤ 1) ∧
      ∃ answer store store',
        perform (after Deployment.finished) (Deployment.sendStop 11 1002) =
          .ok (store, answer) ∧
        perform (after (Deployment.finished ++ [Deployment.sendStop 11 1002]))
          (Deployment.sendStop 12 1002) = .ok (store', answer) := by
  obtain ⟨once, -, -, same⟩ :=
    stop_means_stopped (Deployment.finished ++ [Deployment.sendStop 11 1002])
  refine ⟨fun rows member => once rows member 700, ?_⟩
  obtain ⟨⟨store, answer⟩, committed⟩ : ∃ value,
      perform (after Deployment.finished) (Deployment.sendStop 11 1002) =
        .ok value :=
    exists_of_isOk (by decide +kernel)
  obtain ⟨⟨store', answer'⟩, committed'⟩ : ∃ value,
      perform (after (Deployment.finished ++ [Deployment.sendStop 11 1002]))
        (Deployment.sendStop 12 1002) = .ok value :=
    exists_of_isOk (by decide +kernel)
  have answers := (same Deployment.finished (Deployment.sendStop 11 1002) store
    answer 700 List.prefix_rfl committed rfl (Deployment.sendStop 12 1002) store'
    answer' rfl committed').1
  exact ⟨answer, store, store', committed, answers ▸ committed'⟩

/-- The same stop, sent again, may finish a cancellation that came in between, or
be refused to a supervisor that may no longer act. -/
theorem resend_changes :
    (¬ ∀ (inputs later : List Input) (input again : Input) (store : Store)
      (answer : Answer) (attemptId : Uuid),
      input.action.sentStop? = some attemptId →
      again.action = input.action →
      perform (after inputs) input = .ok (store, answer) →
      ∃ store', perform (run execute store later) again = .ok (store', answer) ∧
        store'.requests = (run execute store later).requests) ∧
      ∃ again : Input, again.action = (Deployment.sendStop 11 1002).action ∧
        (perform (after (Deployment.finished ++
          [Deployment.sendStop 11 1002])) again).isOk = false := by
  refine ⟨fun always => ?_, { Deployment.sendStop 12 1002 with
    env := { Deployment.env 12 with
      refreshActor := fun _ => .error .forbidden } }, rfl, by decide +kernel⟩
  obtain ⟨⟨store, answer⟩, committed⟩ : ∃ value,
      perform (after Deployment.finished) (Deployment.sendStop 11 1002) =
        .ok value :=
    exists_of_isOk (by decide +kernel)
  obtain ⟨store', again, unchanged⟩ := always Deployment.finished
    (Deployment.sent ++ Deployment.cancelledAfterPush)
    (Deployment.sendStop 11 1002) (Deployment.sendStop 16 1002) store answer 700
    rfl rfl committed
  have next : store = execute (after Deployment.finished) (Deployment.sendStop 11 1002) := by
    rw [execute, committed]
    rfl
  have next' : store' = execute (run execute store
      (Deployment.sent ++ Deployment.cancelledAfterPush))
      (Deployment.sendStop 16 1002) := by
    rw [execute, again]
    rfl
  rw [next', next] at unchanged
  have states := congrArg (List.map fun rows : RequestRows => rows.request.state) unchanged
  revert states
  decide +kernel

end Dispatch
end Scrum4Me
