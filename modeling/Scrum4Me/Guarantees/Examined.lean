import Scrum4Me.Dispatch.Waiting
import Scrum4Me.Guarantees.WholeMachine

/-!
# Rotation of the waiting requests

A unit that bumps `updated_at` sends its request to the end of the list. Some exits of
the two units bump nothing: sources that are not ready, a retry that is not due, retries
that are used up, a rejection that is not possible. A request that takes one of these in
both units is parked: it stays where it is, and twenty-five of them stay at the head.
-/

namespace Scrum4Me
namespace Dispatch

open Foundation

variable {env : Env} {rows rows' : RequestRows} {store : Store} {id : Uuid}

/-! ## What parks a request -/

/-- `rejectUnstartedInTransaction` comes to its writes. -/
def RequestRows.Rejectable (rows : RequestRows) : Prop :=
  ∀ c ∈ rows.openCandidate?,
    c.firstClaimedAt = none ∧ jobStillQueued rows c.jobId

instance (rows : RequestRows) : Decidable rows.Rejectable :=
  inferInstanceAs (Decidable (∀ _ ∈ _, _))

/-- The authority was lost for good. -/
def Failure.Permanent (failure : Failure) : Prop :=
  failure = forbidden ∨ failure = .dispatch .unauthenticated

instance (failure : Failure) : Decidable failure.Permanent :=
  inferInstanceAs (Decidable (_ ∨ _))

/-- The unit of the sources neither writes `updated_at` nor ends the request. -/
def SourcesKeep (env : Env) (fetched : Fetched) (rows : RequestRows) : Prop :=
  match decideSources env fetched rows with
  | .returns => True
  | .reject _ => ¬ rows.Rejectable
  | .retry .. => True
  | .commit prepared repoUrl =>
      match prepareSources env rows prepared repoUrl with
      | .ok _ => False
      | .error failure => failure.Permanent ∧ ¬ rows.Rejectable
  | .throws => False

/-- The unit of the reservation neither writes `updated_at` nor ends the request. -/
def ReserveKeep (env : Env) (rows : RequestRows) : Prop :=
  rows.request.sourcesReadyAt = none ∨
    (rows.request.firstClaimedAt ≠ none → (assertRetryAuthorization rows).isOk = true) ∧
      (authorizeReservation env rows.request = .error .forbidden ∨
        authorizeReservation env rows.request = .error .unauthenticated) ∧
      ¬ rows.Rejectable

/-- A waiting request that keeps its place through the tick. -/
def TickInput.Parked (input : TickInput) (rows : RequestRows) : Prop :=
  SourcesKeep (input.sources rows.request.id) (input.fetched rows.request.id) rows ∧
    ReserveKeep (input.reserve rows.request.id) rows

/-! ## The units -/

/-- What a unit never changes. -/
structure SameRequest (rows rows' : RequestRows) : Prop where
  id : rows'.request.id = rows.request.id
  createdAt : rows'.request.createdAt = rows.request.createdAt
  productId : rows'.request.productId = rows.request.productId

theorem SameRequest.refl (rows : RequestRows) : SameRequest rows rows :=
  ⟨rfl, rfl, rfl⟩

theorem SameRequest.trans {rows'' : RequestRows} (first : SameRequest rows rows')
    (second : SameRequest rows' rows'') :
    SameRequest rows rows'' :=
  ⟨second.id.trans first.id, second.createdAt.trans first.createdAt,
    second.productId.trans first.productId⟩

theorem SameRequest.of_request (same : rows'.request = rows.request) : SameRequest rows rows' :=
  ⟨by rw [same], by rw [same], by rw [same]⟩

/-- The request waits no longer, or it has gone to the end of the list. -/
def Requeued (env : Env) (rows : RequestRows) : Prop :=
  rows.request.state ≠ .waiting ∨ rows.request.updatedAt = env.now

theorem closeUnclaimed_request (env : Env) (rows : RequestRows) (c : CandidateRow) :
    (closeUnclaimed env rows c).request = rows.request := by
  have job : (rows.updateJobOf c.jobId fun job =>
      { job with status := .cancelled, finishedAt := some env.now }).request =
      rows.request := by
    cases c.jobId <;> rfl
  exact job

theorem writeRejection_request
    (env : Env) {closed : RequestRows} (same : closed.request = rows.request) (reason : String) :
    SameRequest rows (writeRejection env closed reason) ∧
      (writeRejection env closed reason).request.state = .failed :=
  ⟨(SameRequest.of_request same).trans ⟨rfl, rfl, rfl⟩, rfl⟩

theorem rejectCandidate_eq (env : Env) (rows : RequestRows) (reason : String) :
    (¬ rows.Rejectable → rejectUnstartedInTransaction.rejectCandidate env rows reason = .ok rows) ∧
    (rows.Rejectable →
      ∃ next, rejectUnstartedInTransaction.rejectCandidate env rows reason = .ok next ∧
        SameRequest rows next ∧ next.request.state = .failed) := by
  rw [rejectUnstartedInTransaction.rejectCandidate, RequestRows.Rejectable]
  cases rows.openCandidate? with
  | none =>
    refine ⟨fun refused => absurd (by simp) refused, fun _ => ?_⟩
    exact ⟨_, rfl, writeRejection_request env rfl reason⟩
  | some c =>
    dsimp only
    by_cases rejectable : c.firstClaimedAt = none ∧ jobStillQueued rows c.jobId
    · refine ⟨fun refused => absurd (by simpa using rejectable) refused, fun _ => ?_⟩
      rw [if_neg (by
        rintro (claimed | taken)
        · exact claimed rejectable.1
        · exact taken rejectable.2)]
      exact ⟨_, rfl, writeRejection_request env (closeUnclaimed_request env rows c) reason⟩
    · refine ⟨fun _ => ?_, fun allowed => absurd (by simpa using allowed) rejectable⟩
      rw [if_pos (by
        by_contra neither
        obtain ⟨claimed, taken⟩ := not_or.mp neither
        exact rejectable ⟨not_not.mp claimed, not_not.mp taken⟩)]

/-- The rejection of a waiting request whose authority stands. -/
theorem rejectUnstarted_eq (env : Env) (reason : String) (waiting : rows.request.state = .waiting)
    (authorized : rows.request.firstClaimedAt ≠ none →
      (assertRetryAuthorization rows).isOk = true) :
    rejectUnstartedInTransaction env rows reason =
      rejectUnstartedInTransaction.rejectCandidate env rows reason := by
  rw [rejectUnstartedInTransaction, if_neg (by simp [waiting])]
  split
  · rename_i claimed
    obtain ⟨eventId, granted⟩ := exists_of_isOk (authorized claimed)
    rw [granted]
    rfl
  · rfl

/-- A rejection leaves the rows as they are or ends the request. -/
theorem rejectUnstarted_spec (env : Env) (reason : String) (waiting : rows.request.state = .waiting)
    (authorized : rows.request.firstClaimedAt ≠ none →
      (assertRetryAuthorization rows).isOk = true) :
    (¬ rows.Rejectable ∧ rejectUnstartedInTransaction env rows reason = .ok rows) ∨
      rows.Rejectable ∧ ∃ next, rejectUnstartedInTransaction env rows reason = .ok next ∧
          SameRequest rows next ∧ next.request.state = .failed := by
  rw [rejectUnstarted_eq env reason waiting authorized]
  by_cases rejectable : rows.Rejectable
  · exact .inr ⟨rejectable, (rejectCandidate_eq env rows reason).2 rejectable⟩
  · exact .inl ⟨rejectable, (rejectCandidate_eq env rows reason).1 rejectable⟩

theorem insertArtifact_request {input : ArtifactInput} {stored : RequestRows × Uuid}
    (inserted : insertArtifact env rows input = .ok stored) :
    stored.1.request = rows.request := by
  simp only [insertArtifact, bind_eq_ok, ensure_eq_ok] at inserted
  obtain ⟨-, -, -, -, written⟩ := inserted
  split at written
  · simp only [bind_eq_ok, ensure_eq_ok, pure_eq_ok] at written
    obtain ⟨-, -, rfl⟩ := written
    rfl
  · simp only [bind_eq_ok, ensure_eq_ok, pure_eq_ok] at written
    obtain ⟨-, -, -, -, rfl⟩ := written
    rfl

variable {prepared : List PreparedSource}

theorem insertSources_request {stored : RequestRows × List SourceRef}
    (inserted : insertSources env rows prepared = .ok stored) :
    stored.1.request = rows.request := by
  induction prepared generalizing rows stored with
  | nil =>
    obtain rfl := Except.ok.inj inserted
    rfl
  | cons source rest ih =>
    simp only [insertSources, bind_eq_ok, pure_eq_ok] at inserted
    obtain ⟨first, firstStored, others, othersStored, rfl⟩ := inserted
    exact (ih othersStored).trans (insertArtifact_request firstStored)

/-- The commit of the sources of a request without sources bumps it. -/
theorem prepareSources_spec {repoUrl : Option String}
    (waiting : rows.request.state = .waiting) (unclaimed : rows.request.firstClaimedAt = none)
    (unready : rows.request.sourcesReadyAt = none)
    (written : prepareSources env rows prepared repoUrl = .ok rows') :
    SameRequest rows rows' ∧ rows'.request.updatedAt = env.now := by
  simp only [prepareSources] at written
  rw [if_neg (by simp [waiting, unclaimed, unready])] at written
  simp only [bind_eq_ok, ensure_eq_ok, pure_eq_ok] at written
  obtain ⟨-, -, -, -, stored, storing, rfl⟩ := written
  have same := SameRequest.of_request (insertSources_request storing)
  exact ⟨same.trans ⟨rfl, rfl, rfl⟩, rfl⟩

variable {fetched : Fetched}

/-- The sources of a request are only touched before its first claim. -/
theorem unclaimed_of_decideSources (acts : decideSources env fetched rows ≠ .returns) :
    rows.request.firstClaimedAt = none := by
  by_contra claimed
  exact acts (by rw [decideSources.eq_def, if_pos (.inr claimed)])

/-- A retry or a commit has found no sources. -/
theorem unready_of_decideSources (acts : decideSources env fetched rows ≠ .returns)
    (accepts : ∀ reason, decideSources env fetched rows ≠ .reject reason) :
    rows.request.sourcesReadyAt = none := by
  by_contra ready
  rw [decideSources.eq_def] at acts accepts
  dsimp only at acts accepts
  split at acts
  · exact acts rfl
  · rename_i open'
    rw [if_neg open'] at accepts
    split at acts
    · rename_i refused
      exact accepts _ (if_pos refused)
    · rw [if_pos (.inl ready)] at acts
      exact acts rfl

/-- The unit of the sources of a waiting request: it keeps the place of the request, it
throws, or it requeues the request. -/
theorem prepareRequestSources_spec
    (env : Env) (fetched : Fetched) (waiting : rows.request.state = .waiting) :
    SourcesKeep env fetched rows ∧ (∃ next, prepareRequestSources env fetched rows = .ok next ∧
          next.request = rows.request ∧ (next = rows ∨ rows.request.sourcesReadyAt = none)) ∨
      ¬ SourcesKeep env fetched rows ∧
        ((∃ failure, prepareRequestSources env fetched rows = .error failure) ∨
          ∃ next, prepareRequestSources env fetched rows = .ok next ∧
            SameRequest rows next ∧ Requeued env next) := by
  have unclaimed := @unclaimed_of_decideSources env rows fetched
  have unready := @unready_of_decideSources env rows fetched
  rw [SourcesKeep, prepareRequestSources]
  cases decided : decideSources env fetched rows with
  | returns => exact .inl ⟨trivial, rows, rfl, rfl, .inl rfl⟩
  | reject reason =>
    dsimp only
    have authorized : rows.request.firstClaimedAt ≠ none →
        (assertRetryAuthorization rows).isOk = true :=
      fun claimed => absurd (unclaimed (by rw [decided]; simp)) claimed
    rcases rejectUnstarted_spec env reason waiting authorized with
      ⟨refused, kept⟩ | ⟨rejectable, next, written, same, failed⟩
    · exact .inl ⟨refused, rows, kept, rfl, .inl rfl⟩
    · refine .inr ⟨not_not.mpr rejectable, .inr ⟨next, written, same, .inl ?_⟩⟩
      rw [failed]
      decide
  | retry attempt reason nextAttemptAt =>
    have none := unready (by rw [decided]; simp) (by rw [decided]; simp)
    refine .inl ⟨trivial, _, rfl, ?_, .inr none⟩
    rw [recordSourceRetry]
    dsimp only
    split <;> rfl
  | commit prepared repoUrl =>
    dsimp only
    cases written : prepareSources env rows prepared repoUrl with
    | ok next =>
      have spec := prepareSources_spec waiting (unclaimed (by rw [decided]; simp))
        (unready (by rw [decided]; simp) (by rw [decided]; simp)) written
      exact .inr ⟨id, .inr ⟨next, rfl, spec.1, .inr spec.2⟩⟩
    | error failure =>
      dsimp only
      by_cases permanent : failure = forbidden ∨ failure = .dispatch .unauthenticated
      · rw [if_pos permanent]
        have authorized : rows.request.firstClaimedAt ≠ none →
            (assertRetryAuthorization rows).isOk = true :=
          fun claimed => absurd (unclaimed (by rw [decided]; simp)) claimed
        rcases rejectUnstarted_spec env "authorization_unavailable" waiting
          authorized with ⟨refused, kept⟩ | ⟨rejectable, next, rejected, same, failed⟩
        · exact .inl ⟨⟨permanent, refused⟩, rows, kept, rfl, .inl rfl⟩
        · refine .inr ⟨fun keeps => keeps.2 rejectable, .inr ⟨next, rejected, same, .inl ?_⟩⟩
          rw [failed]
          decide
      · rw [if_neg permanent]
        exact .inr ⟨fun keeps => permanent keeps.1, .inl ⟨failure, rfl⟩⟩
  | throws => exact .inr ⟨id, .inl ⟨.other, rfl⟩⟩

theorem error_or_ok {body : Except Failure α} {holds : α → Prop}
    (spec : ∀ value, body = .ok value → holds value) :
    (∃ failure, body = .error failure) ∨ ∃ value, body = .ok value ∧ holds value := by
  cases body with
  | error failure => exact .inl ⟨failure, rfl⟩
  | ok value => exact .inr ⟨value, rfl, spec value rfl⟩

/-- The reservation of a waiting request after its retry authority. -/
theorem reserveAuthorized_spec (env : Env) (store : Store) (waiting : rows.request.state = .waiting)
    (authorized : rows.request.firstClaimedAt ≠ none →
      (assertRetryAuthorization rows).isOk = true) :
    ((authorizeReservation env rows.request = .error .forbidden ∨
          authorizeReservation env rows.request = .error .unauthenticated) ∧ ¬ rows.Rejectable) ∧
        reserveRequest.reserveAuthorized env store rows = .ok rows ∨
      ¬ ((authorizeReservation env rows.request = .error .forbidden ∨
          authorizeReservation env rows.request = .error .unauthenticated) ∧ ¬ rows.Rejectable) ∧
        ((∃ failure, reserveRequest.reserveAuthorized env store rows = .error failure) ∨
          ∃ next, reserveRequest.reserveAuthorized env store rows = .ok next ∧
            SameRequest rows next ∧ Requeued env next) := by
  have recorded : ∀ reason, SameRequest rows (recordWaitingReason env rows reason) ∧
        Requeued env (recordWaitingReason env rows reason) := by
    intro reason
    rw [recordWaitingReason]
    split <;> exact ⟨⟨rfl, rfl, rfl⟩, .inr rfl⟩
  rw [reserveRequest.reserveAuthorized]
  cases decided : authorizeReservation env rows.request with
  | error code =>
    dsimp only
    by_cases lost : code = .forbidden ∨ code = .unauthenticated
    · rw [if_pos lost]
      rcases rejectUnstarted_spec env "authorization_unavailable" waiting authorized with
        ⟨refused, kept⟩ | ⟨rejectable, next, rejected, same, failed⟩
      · exact .inl ⟨⟨lost.imp (congrArg _) (congrArg _), refused⟩, kept⟩
      · refine .inr ⟨fun keeps => keeps.2 rejectable, .inr ⟨next, rejected, same, .inl ?_⟩⟩
        rw [failed]
        decide
    · rw [if_neg lost]
      refine .inr ⟨fun keeps => lost ?_, .inr ⟨_, rfl, recorded _⟩⟩
      exact keeps.1.imp Except.error.inj Except.error.inj
  | ok _ =>
    refine .inr ⟨by simp, ?_⟩
    dsimp only
    split
    · exact .inr ⟨_, rfl, recorded _⟩
    · refine error_or_ok fun next written => ?_
      simp only [bind_eq_ok, require_eq_ok, pure_eq_ok] at written
      obtain ⟨profile, _, slot, _, model, _, rfl⟩ := written
      exact ⟨⟨rfl, rfl, rfl⟩, .inl DispatchState.noConfusion⟩

/-- The unit of the reservation of a waiting request: it leaves the rows as they are, it
throws, or it requeues the request. -/
theorem reserveRequest_spec (store : Store) (enabled : env.enabled = true)
    (allowed : rows.request.productId ∈ env.productAllowlist)
    (unlocked : env.requestLocked rows.request.id = false)
    (waiting : rows.request.state = .waiting) :
    ReserveKeep env rows ∧ reserveRequest env store rows = .ok rows ∨
      ¬ ReserveKeep env rows ∧ ((∃ failure, reserveRequest env store rows = .error failure) ∨
          ∃ next, reserveRequest env store rows = .ok next ∧
            SameRequest rows next ∧ Requeued env next) := by
  rw [reserveRequest, ReserveKeep]
  by_cases unready : rows.request.sourcesReadyAt = none
  · exact .inl ⟨.inl unready, if_pos (by simp [unready])⟩
  · rw [if_neg (by simp [enabled, allowed, unlocked, waiting, unready])]
    by_cases claimed : rows.request.firstClaimedAt = none
    · rw [if_neg (not_not.mpr claimed)]
      rcases reserveAuthorized_spec env store waiting (absurd claimed) with
        ⟨blocked, kept⟩ | ⟨free, moves⟩
      · exact .inl ⟨.inr ⟨absurd claimed, blocked⟩, kept⟩
      · refine .inr ⟨?_, moves⟩
        rintro (none | ⟨_, blocked⟩)
        · exact unready none
        · exact free blocked
    · rw [if_pos claimed]
      cases granted : assertRetryAuthorization rows with
      | error failure =>
        refine .inr ⟨?_, .inl ⟨failure, rfl⟩⟩
        rintro (none | ⟨authorized, _⟩)
        · exact unready none
        · exact absurd (authorized claimed) Bool.false_ne_true
      | ok eventId =>
        have authorized : (assertRetryAuthorization rows).isOk = true := by
          rw [granted]
          rfl
        rcases reserveAuthorized_spec env store waiting (fun _ => authorized) with
          ⟨blocked, kept⟩ | ⟨free, moves⟩
        · exact .inl ⟨.inr ⟨fun _ => rfl, blocked⟩, kept⟩
        · refine .inr ⟨?_, moves⟩
          rintro (none | ⟨_, blocked⟩)
          · exact unready none
          · exact free blocked

/-- The reservation leaves a request alone that does not wait. -/
theorem reserveRequest_of_not_waiting
    (env : Env) (store : Store) (gone : rows.request.state ≠ .waiting) :
    reserveRequest env store rows = .ok rows := by
  rw [reserveRequest]
  exact if_pos (.inr (.inl gone))

/-! ## Requests by id -/

/-- The ids of the requests, their primary key. -/
def Store.ids (store : Store) : List Uuid :=
  store.requests.map fun rows => rows.request.id

theorem mem_of_request? (found : store.request? id = some rows) :
    rows ∈ store.requests ∧ rows.request.id = id :=
  have own := List.find?_some found
  ⟨List.mem_of_find?_eq_some found, of_decide_eq_true own⟩

theorem request?_of_mem (distinct : store.ids.Nodup) (member : rows ∈ store.requests) :
    store.request? rows.request.id = some rows :=
  find?_eq_some_of_unique member (decide_eq_true rfl) fun _ isOther same =>
    List.inj_on_of_nodup_map distinct isOther member (of_decide_eq_true same)

theorem ids_put (distinct : store.ids.Nodup) (found : store.request? id = some rows)
    (same : rows'.request.id = rows.request.id) :
    (store.put rows').ids = store.ids := by
  obtain ⟨before, later, split⟩ := List.append_of_mem (mem_of_request? found).1
  rw [Store.ids, put_split distinct split same, Store.ids, split]
  simp [same]

theorem request?_put (distinct : store.ids.Nodup) (found : store.request? id = some rows)
    (same : rows'.request.id = rows.request.id) (other : Uuid) :
    (store.put rows').request? other =
      if other = id then some rows' else store.request? other := by
  have own : rows'.request.id = id := same.trans (mem_of_request? found).2
  by_cases here : other = id
  · subst here
    obtain ⟨before, later, split⟩ := List.append_of_mem (mem_of_request? found).1
    rw [if_pos rfl, ← own]
    apply request?_of_mem
    · rw [ids_put distinct found same]
      exact distinct
    · rw [put_split distinct split same]
      simp
  · rw [if_neg here]
    apply find?_updateWhere_apart
    intro row matching
    have isId : row.request.id = id := (of_decide_eq_true matching).trans own
    exact ⟨decide_eq_false fun isOther => here (isOther.symm.trans isId),
      decide_eq_false fun isOther => here (isOther.symm.trans own)⟩

/-! ## One loop of units -/

/-- The work on one request, by its id. -/
abbrev Work := Uuid → Store → RequestRows → Except Failure RequestRows

variable {work : Work} {ids : List Uuid} {done done' : Ticked}

def Ticked.units (work : Work) (ids : List Uuid) (done : Ticked) : Ticked :=
  ids.foldl (fun done id => done.unit (work id) id) done

/-- The unit of a request came to its rows, or it threw and left them. -/
def Tried (work : Work) (id : Uuid) (rows : RequestRows) (done done' : Ticked) : Prop :=
  ∃ seen,
    (∃ next, work id seen rows = .ok next ∧ done'.store.request? id = some next ∧
        (id ∈ done'.threw ↔ id ∈ done.threw)) ∨
      (∃ failure, work id seen rows = .error failure) ∧
        done'.store.request? id = some rows ∧ id ∈ done'.threw

theorem Tried.of_ok {next : RequestRows} (tried : Tried work id rows done done')
    (result : ∀ seen, work id seen rows = .ok next) :
    done'.store.request? id = some next ∧ (id ∈ done'.threw ↔ id ∈ done.threw) := by
  obtain ⟨seen, ⟨other, same, isOther, threw⟩ | ⟨⟨failure, fails⟩, _⟩⟩ := tried
  · obtain rfl := Except.ok.inj ((result seen).symm.trans same)
    exact ⟨isOther, threw⟩
  · exact absurd ((result seen).symm.trans fails) (by simp)

theorem Tried.of_not_threw (tried : Tried work id rows done done') (quiet : id ∉ done'.threw) :
    ∃ seen next, work id seen rows = .ok next ∧ done'.store.request? id = some next ∧
      id ∉ done.threw := by
  obtain ⟨seen, ⟨next, result, isNext, threw⟩ | ⟨_, _, thrown⟩⟩ := tried
  · exact ⟨seen, next, result, isNext, fun thrown => quiet (threw.mpr thrown)⟩
  · exact absurd thrown quiet

/-- Each request of the list has been worked on once, and nothing else. -/
structure Worked (work : Work) (ids : List Uuid) (done done' : Ticked) : Prop where
  sameIds : done'.store.ids = done.store.ids
  others : ∀ id, id ∉ ids →
    done'.store.request? id = done.store.request? id ∧ (id ∈ done'.threw ↔ id ∈ done.threw)
  each : ∀ id, id ∈ ids → ∀ rows, done.store.request? id = some rows →
    Tried work id rows done done'

/-- The work leaves the ids of the requests alone that it is given. -/
def KeepsIds (work : Work) (ids : List Uuid) (store : Store) : Prop :=
  ∀ id ∈ ids, ∀ rows, store.request? id = some rows →
    ∀ seen next, work id seen rows = .ok next → next.request.id = rows.request.id

theorem unit_worked (distinct : done.store.ids.Nodup) (keeps : KeepsIds work [id] done.store) :
    Worked work [id] done (done.unit (work id) id) := by
  rw [Ticked.unit]
  cases found : done.store.request? id with
  | none =>
    exact
      { sameIds := rfl
        others := fun _ _ => ⟨rfl, Iff.rfl⟩
        each := fun other member rows isRows => by
          rw [List.mem_singleton.mp member, found] at isRows
          exact absurd isRows (by simp) }
  | some rows =>
    dsimp only
    cases result : work id done.store rows with
    | ok next =>
      have same := keeps id (List.mem_singleton_self id) rows found done.store next result
      exact
        { sameIds := ids_put distinct found same
          others := fun other absent => by
            rw [request?_put distinct found same,
              if_neg fun here => absent (List.mem_singleton.mpr here)]
            exact ⟨rfl, Iff.rfl⟩
          each := fun other member rows' isRows => by
            obtain rfl := List.mem_singleton.mp member
            obtain rfl := Option.some.inj (found.symm.trans isRows)
            refine ⟨done.store, .inl ⟨next, result, ?_, Iff.rfl⟩⟩
            rw [request?_put distinct found same, if_pos rfl] }
    | error failure =>
      exact
        { sameIds := rfl
          others := fun other absent => by
            have apart : other ≠ id := fun here => absent (List.mem_singleton.mpr here)
            exact ⟨rfl, by simp [apart]⟩
          each := fun other member rows' isRows => by
            obtain rfl := List.mem_singleton.mp member
            obtain rfl := Option.some.inj (found.symm.trans isRows)
            exact ⟨done.store, .inr ⟨⟨failure, result⟩, found, List.mem_cons_self⟩⟩ }

theorem Worked.cons {middle : Ticked} (first : Worked work [id] done middle)
    (later : Worked work ids middle done') (apart : id ∉ ids) :
    Worked work (id :: ids) done done' where
  sameIds := later.sameIds.trans first.sameIds
  others other absent := by
    obtain ⟨differs, absent⟩ := not_or.mp (mt List.mem_cons.mpr absent)
    obtain ⟨sameRows, sameThrew⟩ := later.others other absent
    obtain ⟨sameRows', sameThrew'⟩ := first.others other
      fun here => differs (List.mem_singleton.mp here)
    exact ⟨sameRows.trans sameRows', sameThrew.trans sameThrew'⟩
  each other member rows found := by
    rcases List.mem_cons.mp member with rfl | member
    · obtain ⟨sameRows, sameThrew⟩ := later.others other apart
      obtain ⟨seen, ⟨next, result, isNext, threw⟩ | ⟨fails, isRows, threw⟩⟩ :=
        first.each other List.mem_cons_self rows found
      · exact ⟨seen, .inl ⟨next, result, sameRows.trans isNext, sameThrew.trans threw⟩⟩
      · exact ⟨seen, .inr ⟨fails, sameRows.trans isRows, sameThrew.mpr threw⟩⟩
    · have differs : other ≠ id := fun here => apart (here ▸ member)
      obtain ⟨sameRows, sameThrew⟩ := first.others other
        fun here => differs (List.mem_singleton.mp here)
      obtain ⟨seen, ⟨next, result, isNext, threw⟩ | thrown⟩ :=
        later.each other member rows (sameRows.trans found)
      · exact ⟨seen, .inl ⟨next, result, isNext, threw.trans sameThrew⟩⟩
      · exact ⟨seen, .inr thrown⟩

theorem units_worked (distinct : done.store.ids.Nodup) (once : ids.Nodup)
    (keeps : KeepsIds work ids done.store) :
    Worked work ids done (done.units work ids) := by
  induction ids generalizing done with
  | nil =>
    exact
      { sameIds := rfl
        others := fun _ _ => ⟨rfl, Iff.rfl⟩
        each := List.forall_mem_nil _ }
  | cons id rest ih =>
    obtain ⟨apart, once⟩ := List.nodup_cons.mp once
    have first : Worked work [id] done (done.unit (work id) id) :=
      unit_worked distinct fun other member => keeps other
        (List.mem_cons.mpr (.inl (List.mem_singleton.mp member)))
    refine first.cons (ih (first.sameIds ▸ distinct) once ?_) apart
    intro other member rows found
    have differs : other ∉ [id] := fun here => apart (List.mem_singleton.mp here ▸ member)
    exact keeps other (List.mem_cons_of_mem _ member) rows
      ((first.others other differs).1.symm.trans found)

/-! ## The tick -/

/-- Nobody else is at work: the units find the configuration of the list, no request is
locked, and the clock has gone on since the last write. -/
structure TickInput.Undisturbed (input : TickInput) (store : Store) : Prop where
  enabled : ∀ id, (input.reserve id).enabled = input.list.enabled
  allowlist : ∀ id, (input.reserve id).productAllowlist = input.list.productAllowlist
  unlocked : ∀ id, (input.reserve id).requestLocked id = false
  sources : ∀ id, ∀ rows ∈ store.requests,
    rows.request.updatedAt < (input.sources id).now
  reserve : ∀ id, ∀ rows ∈ store.requests,
    rows.request.updatedAt < (input.reserve id).now

section Tick

variable {input : TickInput} {limit : Nat}

def TickInput.sourcesWork (input : TickInput) : Work := fun id _ rows =>
  prepareRequestSources (input.sources id) (input.fetched id) rows

def TickInput.reserveWork (input : TickInput) : Work := fun id =>
  reserveRequest (input.reserve id)

theorem tickWaiting_eq (input : TickInput) (limit : Nat) (store : Store) :
    tickWaiting input limit store = ((⟨store, []⟩ : Ticked).units input.sourcesWork
        (waitingRequestIds input.list limit store)).units input.reserveWork
          (waitingRequestIds input.list limit store) := rfl

variable {r : RequestRow}

theorem mem_listed :
    r ∈ store.listed env ↔ r.Listed env ∧ ∃ rows ∈ store.requests, rows.request = r := by
  rw [Store.listed, List.mem_filter, List.mem_map, decide_eq_true_iff, and_comm]

theorem listed_distinct (distinct : store.ids.Nodup) :
    ((store.listed env).map RequestRow.id).Nodup := by
  rw [Store.ids, ← Function.comp_def, ← List.map_map] at distinct
  exact distinct.sublist (List.filter_sublist.map _)

theorem place_distinct (distinct : store.ids.Nodup) :
    ((store.listed env).map RequestRow.place).Nodup := by
  apply List.Nodup.of_map fun place => (ofLex (ofLex place).2).2
  rw [List.map_map]
  exact listed_distinct distinct

theorem waiting_nodup (distinct : store.ids.Nodup) : (waitingRequestIds env limit store).Nodup := by
  rw [waitingRequestIds]
  split
  · exact List.nodup_nil
  · have sorted : ((oldestFirst RequestRow.place (store.listed env)).map RequestRow.id).Nodup :=
      (perm_oldestFirst.map _).nodup_iff.mpr (listed_distinct distinct)
    exact sorted.sublist ((List.take_sublist _ _).map _)

/-- A request of the list waits, for an allowed product. -/
theorem waiting_listed (distinct : store.ids.Nodup) (member : rows ∈ store.requests)
    (inList : rows.request.id ∈ waitingRequestIds env limit store) :
    env.enabled = true ∧ rows.request.Listed env ∧
      rows.request ∈ (oldestFirst RequestRow.place (store.listed env)).take (min 25 limit) := by
  rw [waitingRequestIds] at inList
  split at inList
  · exact absurd inList List.not_mem_nil
  · rename_i enabled
    obtain ⟨r, taken, same⟩ := List.mem_map.mp inList
    obtain ⟨isListed, rows', member', rfl⟩ :=
      mem_listed.mp (mem_oldestFirst.mp (List.mem_of_mem_take taken))
    obtain rfl := List.inj_on_of_nodup_map distinct member' member same
    exact ⟨Bool.eq_true_of_not_eq_false enabled, isListed, taken⟩

theorem mem_waiting (enabled : env.enabled = true)
    (taken : r ∈ (oldestFirst RequestRow.place (store.listed env)).take (min 25 limit)) :
    r.id ∈ waitingRequestIds env limit store := by
  rw [waitingRequestIds, if_neg (by simp [enabled])]
  exact List.mem_map_of_mem taken

/-- The listed requests that are left out come after those of the list. -/
theorem place_lt_of_left_out (distinct : store.ids.Nodup) (member : rows ∈ store.requests)
    (inList : rows.request.id ∈ waitingRequestIds env limit store) (isListed : r ∈ store.listed env)
    (leftOut : r.id ∉ waitingRequestIds env limit store) :
    rows.request.place < r.place := by
  obtain ⟨enabled, _, taken⟩ := waiting_listed distinct member inList
  have ordered := pairwise_lt_oldestFirst (@place_distinct env store distinct)
  rw [← List.take_append_drop (min 25 limit) (oldestFirst _ _)] at ordered
  have dropped : r ∈ (oldestFirst RequestRow.place (store.listed env)).drop (min 25 limit) := by
    have found : r ∈ oldestFirst RequestRow.place (store.listed env) := mem_oldestFirst.mpr isListed
    rw [← List.take_append_drop (min 25 limit) (oldestFirst _ _), List.mem_append] at found
    exact found.resolve_left fun taken => leftOut (mem_waiting enabled taken)
  exact (List.pairwise_append.mp ordered).2.2 _ taken _ dropped

/-- What a tick with the list `ids` comes to for each request. -/
structure Examines
    (input : TickInput) (ids : List Uuid) (store : Store)
    (done : Ticked) : Prop where
  sameIds : done.store.ids = store.ids
  others : ∀ id, id ∉ ids →
    done.store.request? id = store.request? id ∧ id ∉ done.threw
  parked : ∀ rows ∈ store.requests, rows.request.id ∈ ids → input.Parked rows →
    rows.request.id ∉ done.threw ∧
      ∃ next, done.store.request? rows.request.id = some next ∧
        next.request = rows.request
  moved : ∀ rows ∈ store.requests, rows.request.id ∈ ids → ¬ input.Parked rows →
    rows.request.id ∉ done.threw →
      ∃ next, done.store.request? rows.request.id = some next ∧
        SameRequest rows next ∧
        (Requeued (input.sources rows.request.id) next ∨
          Requeued (input.reserve rows.request.id) next)

theorem reserveRequest_same {seen : Store} (written : reserveRequest env seen rows = .ok rows') :
    SameRequest rows rows' := by
  by_cases passed : env.enabled = false ∨ rows.request.state ≠ .waiting ∨
      rows.request.productId ∉ env.productAllowlist ∨
      env.requestLocked rows.request.id = true ∨ rows.request.sourcesReadyAt = none
  · rw [reserveRequest, if_pos passed] at written
    obtain rfl := Except.ok.inj written
    exact .refl rows
  · obtain ⟨enabled, passed⟩ := not_or.mp passed
    obtain ⟨waiting, passed⟩ := not_or.mp passed
    obtain ⟨allowed, passed⟩ := not_or.mp passed
    obtain ⟨unlocked, _⟩ := not_or.mp passed
    rcases reserveRequest_spec seen (Bool.eq_true_of_not_eq_false enabled)
      (not_not.mp allowed) (Bool.eq_false_of_not_eq_true unlocked) (not_not.mp waiting) with
      ⟨_, kept⟩ | ⟨_, ⟨failure, threw⟩ | ⟨next, result, same, _⟩⟩
    · obtain rfl := Except.ok.inj (kept.symm.trans written)
      exact .refl rows
    · exact absurd (threw.symm.trans written) (by simp)
    · obtain rfl := Except.ok.inj (result.symm.trans written)
      exact same

theorem prepareRequestSources_same {fetched : Fetched} (waiting : rows.request.state = .waiting)
    (written : prepareRequestSources env fetched rows = .ok rows') :
    SameRequest rows rows' := by
  rcases prepareRequestSources_spec env fetched waiting with
    ⟨_, next, result, same, _⟩ | ⟨_, ⟨failure, threw⟩ | ⟨next, result, same, _⟩⟩
  · obtain rfl := Except.ok.inj (result.symm.trans written)
    exact .of_request same
  · exact absurd (threw.symm.trans written) (by simp)
  · obtain rfl := Except.ok.inj (result.symm.trans written)
    exact same

/-- The reservation of a request that still waits when its unit comes. -/
theorem TickInput.Undisturbed.reserve_spec
    (undisturbed : input.Undisturbed store) (enabled : input.list.enabled = true)
    (own : rows.request.id = id) (isListed : rows.request.Listed input.list) (seen : Store) :
    ReserveKeep (input.reserve id) rows ∧ reserveRequest (input.reserve id) seen rows = .ok rows ∨
      ¬ ReserveKeep (input.reserve id) rows ∧
        ((∃ failure, reserveRequest (input.reserve id) seen rows = .error failure) ∨
          ∃ next, reserveRequest (input.reserve id) seen rows = .ok next ∧
            SameRequest rows next ∧ Requeued (input.reserve id) next) := by
  apply reserveRequest_spec seen ((undisturbed.enabled id).trans enabled)
  · rw [undisturbed.allowlist]
    exact isListed.2
  · rw [own]
    exact undisturbed.unlocked id
  · exact isListed.1

/-- The sources that keep a request leave the reservation to what it would do. -/
theorem reserveKeep_of_kept (same : rows'.request = rows.request)
    (unread : rows' = rows ∨ rows.request.sourcesReadyAt = none) :
    ReserveKeep env rows' ↔ ReserveKeep env rows := by
  rcases unread with rfl | unready
  · exact Iff.rfl
  · exact iff_of_true (.inl (by rw [same, unready])) (.inl unready)

theorem tick_examines (distinct : store.ids.Nodup) (undisturbed : input.Undisturbed store) :
    Examines input (waitingRequestIds input.list limit store) store
      (tickWaiting input limit store) := by
  have waits : ∀ rows ∈ store.requests, rows.request.id ∈ waitingRequestIds input.list limit store →
      rows.request.state = .waiting := fun rows member inList =>
    (waiting_listed distinct member inList).2.1.1
  rw [tickWaiting_eq]
  generalize isMiddle : (⟨store, []⟩ : Ticked).units input.sourcesWork
    (waitingRequestIds input.list limit store) = middle
  have first : Worked input.sourcesWork (waitingRequestIds input.list limit store)
      ⟨store, []⟩ middle := by
    rw [← isMiddle]
    refine units_worked distinct (waiting_nodup distinct) ?_
    intro id inList rows found seen next written
    obtain ⟨member, rfl⟩ := mem_of_request? found
    exact (prepareRequestSources_same (waits rows member inList) written).id
  have distinct' : middle.store.ids.Nodup := first.sameIds ▸ distinct
  have second : Worked input.reserveWork (waitingRequestIds input.list limit store)
      middle (middle.units input.reserveWork (waitingRequestIds input.list limit store)) := by
    refine units_worked distinct' (waiting_nodup distinct) ?_
    exact fun id _ rows _ seen next written => (reserveRequest_same written).id
  refine
    { sameIds := second.sameIds.trans first.sameIds
      others := fun id absent => ?_
      parked := fun rows member inList parked => ?_
      moved := fun rows member inList moves quiet => ?_ }
  · obtain ⟨same, threw⟩ := second.others id absent
    obtain ⟨same', threw'⟩ := first.others id absent
    exact ⟨same.trans same', fun thrown => absurd (threw'.mp (threw.mp thrown)) List.not_mem_nil⟩
  · have found := request?_of_mem distinct member
    obtain ⟨enabled, isListed, _⟩ := waiting_listed distinct member inList
    obtain ⟨next, result, same, unread⟩ :=
      (prepareRequestSources_spec (input.sources rows.request.id)
        (input.fetched rows.request.id) isListed.1).resolve_right
          (fun moves => moves.1 parked.1) |>.2
    obtain ⟨isNext, threw⟩ := (first.each _ inList rows found).of_ok fun _ => result
    have own : next.request.id = rows.request.id := congrArg RequestRow.id same
    have keeps : ReserveKeep (input.reserve rows.request.id) next :=
      (reserveKeep_of_kept same unread).mpr parked.2
    have left : ∀ seen, reserveRequest (input.reserve rows.request.id) seen next =
        .ok next := fun seen =>
      ((undisturbed.reserve_spec enabled own (same ▸ isListed) seen).resolve_right
        fun moves => moves.1 keeps).2
    obtain ⟨isNext', threw'⟩ := (second.each _ inList next isNext).of_ok left
    exact ⟨fun thrown => absurd (threw.mp (threw'.mp thrown)) List.not_mem_nil,
      next, isNext', same⟩
  · have found := request?_of_mem distinct member
    obtain ⟨enabled, isListed, _⟩ := waiting_listed distinct member inList
    obtain ⟨seen, ⟨next, result, isNext, _⟩ | ⟨_, isRows, thrown⟩⟩ :=
      first.each _ inList rows found
    · obtain ⟨seen', final, result', isFinal, _⟩ :=
        (second.each _ inList next isNext).of_not_threw quiet
      have same : SameRequest rows next := prepareRequestSources_same isListed.1 result
      have same' : SameRequest next final := reserveRequest_same result'
      refine ⟨final, isFinal, same.trans same', ?_⟩
      by_cases gone : next.request.state = .waiting
      · have listed' : next.request.Listed input.list := ⟨gone, same.productId ▸ isListed.2⟩
        rcases undisturbed.reserve_spec enabled same.id listed' seen' with
          ⟨keeps, kept⟩ | ⟨_, ⟨failure, fails⟩ | ⟨other, written, _, requeued⟩⟩
        · -- the reservation keeps it, so the sources have moved it
          obtain rfl := Except.ok.inj (kept.symm.trans result')
          rcases prepareRequestSources_spec (input.sources rows.request.id)
            (input.fetched rows.request.id) isListed.1 with
            ⟨keeps', other, written, sameRow, unread⟩ |
              ⟨_, ⟨failure, fails⟩ | ⟨other, written, _, requeued⟩⟩
          · obtain rfl := Except.ok.inj (written.symm.trans result)
            exact absurd ⟨keeps', (reserveKeep_of_kept sameRow unread).mp keeps⟩ moves
          · exact absurd (fails.symm.trans result) (by simp)
          · obtain rfl := Except.ok.inj (written.symm.trans result)
            exact .inl requeued
        · exact absurd (fails.symm.trans result') (by simp)
        · obtain rfl := Except.ok.inj (written.symm.trans result')
          exact .inr requeued
      · obtain rfl := Except.ok.inj
          ((reserveRequest_of_not_waiting _ seen' gone).symm.trans result')
        exact .inl (.inl gone)
    · obtain ⟨_, _, _, _, quiet'⟩ := (second.each _ inList rows isRows).of_not_threw quiet
      exact absurd thrown quiet'

/-! ## Order after the tick -/

theorem place_lt_of_updatedAt
    {first second : RequestRow} (later : first.updatedAt < second.updatedAt) :
    first.place < second.place :=
  Prod.Lex.toLex_lt_toLex.mpr (.inl later)

/-- A request that is not in the list is listed afterwards as it was before. -/
theorem Examines.listed_iff
    (examines : Examines input ids store done) (distinct : store.ids.Nodup) (absent : r.id ∉ ids) :
    r ∈ done.store.listed env ↔ r ∈ store.listed env := by
  have same := (examines.others r.id absent).1
  have distinct' : done.store.ids.Nodup := examines.sameIds ▸ distinct
  rw [mem_listed, mem_listed]
  refine and_congr_right fun _ => ⟨?_, ?_⟩
  · rintro ⟨rows, member, rfl⟩
    exact ⟨rows, (mem_of_request? (same.symm.trans (request?_of_mem distinct' member))).1, rfl⟩
  · rintro ⟨rows, member, rfl⟩
    exact ⟨rows, (mem_of_request? (same.trans (request?_of_mem distinct member))).1, rfl⟩

/-- A request with an id of the list was in the store before the tick. -/
theorem Examines.before (examines : Examines input ids store done)
    (member : rows ∈ done.store.requests) :
    ∃ old ∈ store.requests, old.request.id = rows.request.id := by
  have known : rows.request.id ∈ store.ids := examines.sameIds ▸ List.mem_map_of_mem member
  exact List.mem_map.mp known

/-- A request that was moved and still waits comes after all that were left out. -/
theorem Examines.place_lt {old : RequestRows}
    (examines : Examines input ids store done) (distinct : store.ids.Nodup)
    (undisturbed : input.Undisturbed store) (known : old ∈ store.requests)
    (inList : old.request.id ∈ ids) (moves : ¬ input.Parked old)
    (quiet : old.request.id ∉ done.threw) (member : rows ∈ done.store.requests)
    (same : rows.request.id = old.request.id) (waiting : rows.request.state = .waiting)
    (isListed : r ∈ store.listed env) :
    r.place < rows.request.place := by
  have distinct' : done.store.ids.Nodup := examines.sameIds ▸ distinct
  obtain ⟨_, other, isOther, rfl⟩ := mem_listed.mp isListed
  obtain ⟨next, isNext, _, requeued⟩ := examines.moved old known inList moves quiet
  obtain rfl := Option.some.inj ((request?_of_mem distinct' member).symm.trans (same ▸ isNext))
  apply place_lt_of_updatedAt
  rcases requeued with (gone | bumped) | (gone | bumped)
  · exact absurd waiting gone
  · rw [bumped]
    exact undisturbed.sources _ other isOther
  · exact absurd waiting gone
  · rw [bumped]
    exact undisturbed.reserve _ other isOther

/-- After the tick the requests of the list that still wait, and whose units did not
throw, come after the listed requests that were left out. -/
def TickInput.Rotates (input : TickInput) (limit : Nat) (store : Store) : Prop :=
  ∀ rows ∈ (tickWaiting input limit store).store.requests,
    rows.request.id ∈ waitingRequestIds input.list limit store →
    rows.request.state = .waiting →
    rows.request.id ∉ (tickWaiting input limit store).threw →
    ∀ r ∈ (tickWaiting input limit store).store.listed input.list,
      r.id ∉ waitingRequestIds input.list limit store → r.place < rows.request.place

theorem rotates_iff (distinct : store.ids.Nodup) (undisturbed : input.Undisturbed store) :
    input.Rotates limit store ↔ (∀ rows ∈ store.requests,
        rows.request.id ∈ waitingRequestIds input.list limit store → ¬ input.Parked rows) ∨
      ∀ r ∈ store.listed input.list, r.id ∈ waitingRequestIds input.list limit store := by
  have examines := @tick_examines store input limit distinct undisturbed
  constructor
  · intro rotates
    by_contra neither
    obtain ⟨parked, leftOut⟩ := not_or.mp neither
    push Not at parked leftOut
    obtain ⟨rows, member, inList, parked⟩ := parked
    obtain ⟨r, isListed, absent⟩ := leftOut
    obtain ⟨quiet, next, isNext, same⟩ := examines.parked rows member inList parked
    have waiting := (waiting_listed distinct member inList).2.1.1
    have first := rotates next (mem_of_request? isNext).1 (same ▸ inList)
      (same ▸ waiting) (same ▸ quiet) r
      ((examines.listed_iff distinct absent).mpr isListed) absent
    rw [same] at first
    exact lt_asymm first (place_lt_of_left_out distinct member inList isListed absent)
  · rintro holds rows member inList waiting quiet r isListed absent
    have isListed := (examines.listed_iff distinct absent).mp isListed
    obtain ⟨old, known, same⟩ := examines.before member
    rcases holds with moves | all
    · rw [← same] at inList quiet
      exact examines.place_lt distinct undisturbed known inList (moves old known inList)
        quiet member same.symm waiting isListed
    · exact absurd (all r isListed) absent

/-! ## Repeated ticks -/

/-- The requests that come before a request. -/
def Store.older (store : Store) (env : Env) (r : RequestRow) : List Uuid :=
  ((store.listed env).filter fun other => other.place < r.place).map RequestRow.id

theorem mem_older :
    id ∈ store.older env r ↔ ∃ other ∈ store.listed env, other.place < r.place ∧ other.id = id := by
  simp [Store.older, and_assoc]

theorem older_nodup (distinct : store.ids.Nodup) (r : RequestRow) : (store.older env r).Nodup :=
  (listed_distinct distinct).sublist (List.filter_sublist.map _)

/-- The ids in the lists of the ticks. -/
def examinedIn : Store → List (TickInput × Nat) → List Uuid
  | _, [] => []
  | store, tick :: rest =>
      waitingRequestIds tick.1.list tick.2 store ++
        examinedIn (tickWaiting tick.1 tick.2 store).store rest

/-- Nobody else is at work, there is room for a request, and whenever a tick has a list,
some request of it is neither parked nor thrown. -/
def Turning (env : Env) : Store → List (TickInput × Nat) → Prop
  | _, [] => True
  | store, tick :: rest =>
      tick.1.Undisturbed store ∧
      tick.1.list.enabled = true ∧
      tick.1.list.productAllowlist = env.productAllowlist ∧
      0 < tick.2 ∧
      (waitingRequestIds tick.1.list tick.2 store ≠ [] →
        ∃ rows ∈ store.requests,
          rows.request.id ∈ waitingRequestIds tick.1.list tick.2 store ∧
            ¬ tick.1.Parked rows ∧
            rows.request.id ∉ (tickWaiting tick.1 tick.2 store).threw) ∧
      Turning env (tickWaiting tick.1 tick.2 store).store rest

theorem listed_congr {env' : Env} (same : env'.productAllowlist = env.productAllowlist) :
    store.listed env' = store.listed env := by
  rw [Store.listed, Store.listed]
  apply List.filter_congr
  intro r _
  rw [decide_eq_decide, RequestRow.Listed, RequestRow.Listed, same]

theorem waiting_ne_nil (enabled : env.enabled = true) (room : 0 < limit)
    (isListed : r ∈ store.listed env) :
    waitingRequestIds env limit store ≠ [] := by
  have sorted : r ∈ oldestFirst RequestRow.place (store.listed env) := mem_oldestFirst.mpr isListed
  rw [waitingRequestIds, if_neg (by simp [enabled]), ne_eq, List.map_eq_nil_iff,
    List.take_eq_nil_iff]
  rintro (none | none)
  · omega
  · rw [none] at sorted
    exact absurd sorted List.not_mem_nil

/-- A tick that moves a request of its list brings the requests forward that it leaves
out. -/
theorem older_decreases (distinct : store.ids.Nodup) (undisturbed : input.Undisturbed store)
    (isListed : r ∈ store.listed input.list)
    (absent : r.id ∉ waitingRequestIds input.list limit store) (member : rows ∈ store.requests)
    (inList : rows.request.id ∈ waitingRequestIds input.list limit store)
    (moves : ¬ input.Parked rows)
    (quiet : rows.request.id ∉ (tickWaiting input limit store).threw) :
    ((tickWaiting input limit store).store.older input.list r).length <
      (store.older input.list r).length := by
  have examines := @tick_examines store input limit distinct undisturbed
  have distinct' : (tickWaiting input limit store).store.ids.Nodup := examines.sameIds ▸ distinct
  have head : ∀ other ∈ store.requests,
      other.request.id ∈ waitingRequestIds input.list limit store →
      other.request.id ∈ store.older input.list r := fun other known inList =>
    mem_older.mpr ⟨other.request,
      mem_listed.mpr ⟨(waiting_listed distinct known inList).2.1, other, known, rfl⟩,
      place_lt_of_left_out distinct known inList isListed absent, rfl⟩
  have subset : (tickWaiting input limit store).store.older input.list r ⊆
      store.older input.list r := by
    intro id found
    obtain ⟨other, isListed', before, rfl⟩ := mem_older.mp found
    by_cases examined : other.id ∈ waitingRequestIds input.list limit store
    · obtain ⟨_, after, isAfter, rfl⟩ := mem_listed.mp isListed'
      obtain ⟨old, known, same⟩ := examines.before isAfter
      rw [← same] at examined ⊢
      exact head old known examined
    · exact mem_older.mpr ⟨other, (examines.listed_iff distinct examined).mp isListed', before, rfl⟩
  have gone : rows.request.id ∉ (tickWaiting input limit store).store.older input.list r := by
    intro found
    obtain ⟨other, isListed', before, same⟩ := mem_older.mp found
    obtain ⟨waits, after, isAfter, rfl⟩ := mem_listed.mp isListed'
    exact lt_asymm before (examines.place_lt distinct undisturbed member inList moves quiet
      isAfter same waits.1 isListed)
  have smaller := List.subperm_of_subset (List.nodup_cons.mpr ⟨gone, older_nodup distinct' r⟩)
    (List.cons_subset.mpr ⟨head rows member inList, subset⟩)
  exact smaller.length_le

/-- In enough ticks that each move a request, every listed request has its turn. -/
theorem examined_in_time {ticks : List (TickInput × Nat)} (distinct : store.ids.Nodup)
    (turning : Turning env store ticks) (isListed : r ∈ store.listed env)
    (enough : (store.older env r).length < ticks.length) :
    r.id ∈ examinedIn store ticks := by
  induction ticks generalizing store with
  | nil => exact absurd enough (Nat.not_lt_zero _)
  | cons tick rest ih =>
    obtain ⟨undisturbed, enabled, allowlist, room, mover, turning⟩ := turning
    rw [← listed_congr allowlist] at isListed
    rw [examinedIn, List.mem_append]
    by_cases now : r.id ∈ waitingRequestIds tick.1.list tick.2 store
    · exact .inl now
    · have examines := @tick_examines store tick.1 tick.2 distinct undisturbed
      obtain ⟨rows, member, inList, moves, quiet⟩ := mover (waiting_ne_nil enabled room isListed)
      have fewer := older_decreases distinct undisturbed isListed now member inList moves quiet
      rw [Store.older, Store.older, listed_congr allowlist, listed_congr allowlist,
        ← Store.older, ← Store.older] at fewer
      rw [List.length_cons] at enough
      refine .inr (ih (examines.sameIds ▸ distinct) turning ?_ (by omega))
      exact listed_congr allowlist ▸ (examines.listed_iff distinct now).mpr isListed

end Tick

/-- A tick rotates the waiting requests exactly when none of its list is parked or the
list leaves none out; and ticks that each move a request reach every listed request. -/
theorem waiting_requests_rotate (store : Store) (keys : store.KeysUnique) :
    (∀ (input : TickInput) (limit : Nat), input.Undisturbed store → (input.Rotates limit store ↔
        (∀ rows ∈ store.requests,
          rows.request.id ∈ waitingRequestIds input.list limit store →
            ¬ input.Parked rows) ∨
        ∀ r ∈ store.listed input.list,
          r.id ∈ waitingRequestIds input.list limit store)) ∧
    ∀ (env : Env) (ticks : List (TickInput × Nat)), Turning env store ticks →
      ∀ r ∈ store.listed env, (store.older env r).length < ticks.length →
        r.id ∈ examinedIn store ticks :=
  ⟨fun _ _ undisturbed => rotates_iff keys.requests undisturbed,
    fun _ _ turning _ isListed enough =>
      examined_in_time keys.requests turning isListed enough⟩

/-! ## A queue behind used up retries -/

namespace Deployment

/-- A request that waits for its sources since the moment of its number. -/
def waitingFor (retries : List Nat) (id : Uuid) : RequestRows where
  request :=
    { id := id
      principalKey := owner.principalKey
      idempotencyKey := "waits"
      userId := "owner"
      productId := "product"
      authSource := ⟨.bearer, some "token"⟩
      input := freeTask
      inputHash := artifactHash (.input freeTask)
      sourcesReadyAt := none
      state := .waiting
      version := 1
      generation := 0
      firstClaimedAt := none
      retryAuthorizationEventId := none
      rootMessageId := id
      replyMessageId := id
      resultId := none
      createdAt := 0
      updatedAt := id }
  candidates := []
  reservations := []
  attempts := []
  jobs := []
  events := retries.map fun attempt =>
    { id := 10 * id + attempt
      attemptId := none
      actor := .service none
      body := .sourceRetry attempt "source_retry_exhausted" 0
      createdAt := id }
  results := []
  artifacts := []
  publications := []
  outbox := []

/-- Requests with these retries before one that is new. -/
def behind (retries : List Nat) (number : Nat) : Store where
  requests := (List.range number).map (waitingFor retries) ++ [waitingFor [] number]
  registry := Store.empty.registry
  clock := number

/-- Twenty-five requests that have used up their retries before one that is new. -/
def exhausted : Store := behind [1, 2, 3] 25

/-- A tick at one moment, with sources that can be fetched. -/
def tickAt (moment : Timestamp) : TickInput where
  list := Deployment.env moment
  sources _ := Deployment.env moment
  fetched _ := .prepared [] (some "repository")
  reserve _ := Deployment.env moment

theorem tickAt_undisturbed {moment : Timestamp}
    (past : ∀ rows ∈ store.requests, rows.request.updatedAt < moment) :
    (tickAt moment).Undisturbed store where
  enabled _ := rfl
  allowlist _ := rfl
  unlocked _ := rfl
  sources _ := past
  reserve _ := past

end Deployment

open Deployment in
/-- Two new requests, one at a time. -/
theorem waiting_requests_rotate_two :
    (tickAt 2).Rotates 1 (behind [] 1) ∧
      1 ∈ examinedIn (behind [] 1) [(tickAt 2, 1), (tickAt 3, 1)] := by
  have rotate := waiting_requests_rotate (behind [] 1) (by decide)
  have unparked : ∀ moment id, ¬ (tickAt moment).Parked (waitingFor [] id) :=
    fun _ _ parked => parked.1
  have undisturbed : (tickAt 2).Undisturbed (behind [] 1) :=
    tickAt_undisturbed (by decide)
  constructor
  · refine (rotate.1 (tickAt 2) 1 undisturbed).mpr (.inl fun rows member _ => ?_)
    rcases List.mem_cons.mp member with rfl | member
    · exact unparked 2 0
    · rw [List.mem_singleton.mp member]
      exact unparked 2 1
  · refine rotate.2 (tickAt 2).list [(tickAt 2, 1), (tickAt 3, 1)] ⟨undisturbed, rfl, rfl, Nat.one_pos, fun _ => ?_,
      tickAt_undisturbed (by decide), rfl, rfl, Nat.one_pos, fun _ => ?_, trivial⟩
      (waitingFor [] 1).request (by decide) (by decide)
    · exact ⟨waitingFor [] 0, by decide, by decide, unparked 2 0, by decide⟩
    · exact ⟨waitingFor [] 1, by decide, by decide, unparked 3 1, by decide⟩

open Deployment in
/-- Twenty-five requests with used up retries keep the next one out of every tick. -/
theorem exhausted_requests_starve :
    (tickAt 26).Undisturbed exhausted ∧
      ¬ (tickAt 26).Rotates 25 exhausted ∧
      ∃ r ∈ exhausted.listed (tickAt 26).list,
        ∀ ticks, r.id ∉ examinedIn exhausted (List.replicate ticks (tickAt 26, 25)) := by
  have stuck : (tickWaiting (tickAt 26) 25 exhausted).store = exhausted ∧
      (tickWaiting (tickAt 26) 25 exhausted).threw = [] := by decide +kernel
  have first : 0 ∈ waitingRequestIds (tickAt 26).list 25 exhausted ∧
      25 ∉ waitingRequestIds (tickAt 26).list 25 exhausted ∧
      (waitingFor [1, 2, 3] 0) ∈ exhausted.requests ∧
      (waitingFor [] 25).request ∈ exhausted.listed (tickAt 26).list ∧
      ¬ (waitingFor [] 25).request.place < (waitingFor [1, 2, 3] 0).request.place := by
    decide +kernel
  obtain ⟨inList, leftOut, member, isListed, older⟩ := first
  refine ⟨tickAt_undisturbed (by decide), fun rotates => older ?_, _, isListed,
    fun ticks => ?_⟩
  · rw [TickInput.Rotates, stuck.1, stuck.2] at rotates
    exact rotates _ member inList rfl List.not_mem_nil _ isListed leftOut
  · induction ticks with
    | zero => exact List.not_mem_nil
    | succ ticks ih =>
        rw [List.replicate_succ, examinedIn, stuck.1, List.mem_append]
        exact not_or.mpr ⟨leftOut, ih⟩

end Dispatch
end Scrum4Me
