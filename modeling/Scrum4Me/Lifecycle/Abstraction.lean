import Scrum4Me.Lifecycle.Life
import Scrum4Me.Dispatch.Completion

/-!
# The life that rows lead

`lifeOf` forgets from the rows of a request what its life does not depend on.
Each statement that the transactions share either is the elementary update of
the same name on the life, or leaves the life as it is.
-/

namespace Scrum4Me
namespace Dispatch

open Foundation

/-! ## Rows -/

def CandidateRow.life (row : CandidateRow) : CandidateLife :=
  { id := row.id
    generation := row.generation
    route := row.route
    state := row.state
    slotId := row.reservedSlotId
    jobId := row.jobId
    claimed := row.firstClaimedAt.isSome }

def ReservationRow.life (row : ReservationRow) : ReservationLife :=
  { candidateId := row.candidateId
    slotId := row.slotId
    isOpen := row.releasedAt.isNone }

def AttemptRow.life (row : AttemptRow) : AttemptLife :=
  { id := row.id
    candidateId := row.candidateId
    claim := { incarnationId := row.incarnationId, key := row.claimKey }
    state := row.state
    scopeId := row.scopeId
    started := row.startedAt.isSome
    stopped := row.stoppedAt.isSome
    revoked := row.revokedAt.isSome }

def JobRow.life (row : JobRow) : JobLife :=
  { id := row.id
    status := row.status
    task := if row.kind = .taskImplementation then row.taskId else none }

def PublicationRow.life (row : PublicationRow) : PublicationLife :=
  { id := row.id
    attemptId := row.attemptId
    headSha := row.headSha
    expectedRemoteHead := row.expectedRemoteHead
    state := row.state }

/-- The two kinds of stop that no scope stands behind. -/
def StopKind.unscoped : StopKind → Bool
  | .claimBoundUnscoped => true
  | .signedOffUnstarted => true
  | _ => false

def StopFact.life (fact : StopFact) : StopLife :=
  { attemptId := fact.attemptId
    receiptId := fact.eventId
    unscoped := fact.acceptance.kind.unscoped }

/-- The key and the digest of a `cancel_action` event. -/
def EventRow.cancelAction? (event : EventRow) :
    Option (OperationKey × CancelDigest) :=
  match event.body with
  | .cancelAction key hash => some (key, hash)
  | _ => none

/-- The attempt and the digest of a `result_accepted` event. -/
def EventRow.acceptance? (event : EventRow) :
    Option (Option Uuid × ResultHash) :=
  match event.body with
  | .resultAccepted _ submittedHash => some (event.attemptId, submittedHash)
  | _ => none

def RequestRow.identity (row : RequestRow) : RequestIdentity :=
  { requestId := row.id
    input := row.input
    rootId := row.rootMessageId
    replyId := row.replyMessageId }

/-- The life of a request, as its rows tell it. -/
def lifeOf (rows : RequestRows) : Life :=
  { identity := rows.request.identity
    state := rows.request.state
    version := rows.request.version
    generation := rows.request.generation
    claimed := rows.request.firstClaimedAt.isSome
    authority := rows.request.retryAuthorizationEventId
    resultId := rows.request.resultId
    waitingReason := rows.waitingReason?
    candidates := rows.candidates.map CandidateRow.life
    reservations := rows.reservations.map ReservationRow.life
    attempts := rows.attempts.map AttemptRow.life
    jobs := rows.jobs.map JobRow.life
    scopes := rows.startedScopes
    stops := rows.stops.map StopFact.life
    cancellations := rows.events.filterMap EventRow.cancelAction?
    authorizations := rows.retryAuthorizations.map RetryFact.eventId
    consumptions := rows.retryConsumptions
    results := rows.results
    acceptances := rows.events.filterMap EventRow.acceptance?
    publications := rows.publications.map PublicationRow.life
    announcements := rows.outbox.map OutboxRow.payload
    announcedVersions := rows.outbox.map OutboxRow.version }

/-! ## Queries -/

theorem unresolved_lifeOf (rows : RequestRows) :
    (lifeOf rows).Unresolved ↔ rows.UnresolvedPublication := by
  simp [Life.Unresolved, RequestRows.UnresolvedPublication, lifeOf, PublicationRow.life]

theorem stopOf_lifeOf (rows : RequestRows) (attemptId : Uuid) :
    (lifeOf rows).StopOf attemptId ↔ rows.stopsOf attemptId ≠ [] := by
  unfold Life.StopOf RequestRows.stopsOf
  simp only [lifeOf, List.map_map, List.mem_map, ne_eq,
    List.filter_eq_nil_iff, decide_eq_true_eq, not_forall, not_not]
  constructor
  · rintro ⟨fact, member, same⟩
    exact ⟨fact, member, same⟩
  · rintro ⟨fact, member, same⟩
    exact ⟨fact, member, same⟩

theorem result?_eq_none (rows : RequestRows) : rows.result? = none ↔ (lifeOf rows).results = [] :=
  List.head?_eq_none_iff

/-- A live authority of the rows is one of the life. -/
theorem retryAuthorized_of_assert {rows : RequestRows} {authorization : Uuid}
    (granted : assertRetryAuthorization rows = .ok authorization) :
    (lifeOf rows).RetryAuthorized := by
  simp only [assertRetryAuthorization, bind_eq_ok, require_eq_ok, ensure_eq_ok] at granted
  obtain ⟨fact, found, -, ⟨-, -, -, unconsumed, settled, ended⟩, -⟩ := granted
  have member := List.mem_of_find?_eq_some found
  have named := List.find?_some found
  refine ⟨fact.eventId, (of_decide_eq_true named).symm, List.mem_map_of_mem member, unconsumed,
    fun unresolved => settled ((unresolved_lifeOf rows).mp unresolved), ?_⟩
  intro a inside
  obtain ⟨row, rowMember, rfl⟩ := List.mem_map.mp inside
  obtain ⟨terminal, stopped, revoked, accepted⟩ := ended row rowMember
  exact ⟨terminal, Option.isSome_iff_ne_none.mpr stopped, Option.isSome_iff_ne_none.mpr revoked,
    (stopOf_lifeOf rows row.id).mpr accepted⟩

/-! ## Statements that are updates -/

section Updates

variable (rows : RequestRows) {change : AttemptRow → AttemptRow}

theorem lifeOf_updateAttempt (id : Uuid) (change' : AttemptLife → AttemptLife)
    (same : ∀ row, (change row).life = change' row.life) :
    lifeOf (rows.updateAttempt id change) = (lifeOf rows).setAttempt id change' := by
  have attempts : (updateWhere (fun row => row.id = id) change rows.attempts).map AttemptRow.life =
        updateWhere (fun row => row.id = id) change' (rows.attempts.map AttemptRow.life) :=
    map_updateWhere (by intro row; rfl) same rows.attempts
  simp only [lifeOf, RequestRows.updateAttempt, attempts, Life.setAttempt]
  rfl

theorem lifeOf_updateCandidate (id : Uuid) {change : CandidateRow → CandidateRow}
    (change' : CandidateLife → CandidateLife) (same : ∀ row, (change row).life = change' row.life) :
    lifeOf (rows.updateCandidate id change) = (lifeOf rows).setCandidate id change' := by
  have candidates : (updateWhere (fun row => row.id = id) change rows.candidates).map
          CandidateRow.life =
        updateWhere (fun row => row.id = id) change' (rows.candidates.map CandidateRow.life) :=
    map_updateWhere (by intro row; rfl) same rows.candidates
  simp only [lifeOf, RequestRows.updateCandidate, candidates, Life.setCandidate]
  rfl

theorem lifeOf_updateReservation (candidateId : Uuid) {change : ReservationRow → ReservationRow}
    (change' : ReservationLife → ReservationLife)
    (same : ∀ row, (change row).life = change' row.life) :
    lifeOf (rows.updateReservation candidateId change) =
      (lifeOf rows).setReservation candidateId change' := by
  have reservations : (updateWhere
          (fun row => row.candidateId = candidateId ∧ row.releasedAt = none)
          change rows.reservations).map ReservationRow.life =
        updateWhere (fun row => row.candidateId = candidateId ∧ row.isOpen = true)
          change' (rows.reservations.map ReservationRow.life) :=
    map_updateWhere (by simp [ReservationRow.life]) same rows.reservations
  simp only [lifeOf, RequestRows.updateReservation, reservations, Life.setReservation]
  rfl

theorem lifeOf_releaseReservation (env : Env) (candidateId : Uuid) :
    lifeOf (rows.releaseReservation env candidateId) = (lifeOf rows).release candidateId :=
  lifeOf_updateReservation rows candidateId _ fun _ => rfl

/-- Setting the status of a candidate's job, where it has one. -/
theorem lifeOf_updateJobOf (jobId : Option Uuid) {change : JobRow → JobRow} (status : JobStatus)
    (same : ∀ row, (change row).life = { row.life with status := status }) :
    lifeOf (rows.updateJobOf jobId change) = (lifeOf rows).setJob jobId status := by
  cases jobId with
  | none =>
    have untouched : updateWhere (fun row : JobLife => some row.id = none)
          (fun row => { row with status := status }) (lifeOf rows).jobs =
        (lifeOf rows).jobs :=
      updateWhere_eq_self (by simp)
    rw [Life.setJob, untouched]
    rfl
  | some id =>
    have jobs : (updateWhere (fun row => row.id = id) change rows.jobs).map JobRow.life =
          updateWhere (fun row => some row.id = some id) (fun row => { row with status := status })
            (rows.jobs.map JobRow.life) :=
      map_updateWhere (by simp [JobRow.life]) same rows.jobs
    simp only [lifeOf, RequestRows.updateJobOf, RequestRows.updateJob, jobs, Life.setJob]
    rfl

/-- Columns of a job that its life does not see. -/
theorem lifeOf_updateJob_silent
    (id : Uuid) {change : JobRow → JobRow} (same : ∀ row, (change row).life = row.life) :
    lifeOf (rows.updateJob id change) = lifeOf rows := by
  have jobs : (updateWhere (fun row => row.id = id) change rows.jobs).map
          JobRow.life = rows.jobs.map JobRow.life :=
    map_updateWhere_of_unchanged same rows.jobs
  simp only [lifeOf, RequestRows.updateJob, jobs]
  rfl

@[simp] theorem lifeOf_writeUsageOf (jobId : Option Uuid) (usage : Option RawUsage) (once : Bool) :
    lifeOf (writeUsageOf rows jobId usage once) = lifeOf rows := by
  unfold writeUsageOf
  split
  · apply lifeOf_updateJob_silent
    intro row
    split <;> rfl
  · rfl

/-- Columns of an attempt that its life does not see. -/
theorem lifeOf_updateAttempt_silent (id : Uuid) (same : ∀ row, (change row).life = row.life) :
    lifeOf (rows.updateAttempt id change) = lifeOf rows := by
  have attempts : (updateWhere (fun row => row.id = id) change rows.attempts).map
          AttemptRow.life = rows.attempts.map AttemptRow.life :=
    map_updateWhere_of_unchanged same rows.attempts
  simp only [lifeOf, RequestRows.updateAttempt, attempts]
  rfl

theorem lifeOf_updatePublication (id : Uuid) {change : PublicationRow → PublicationRow}
    (change' : PublicationLife → PublicationLife)
    (same : ∀ row, (change row).life = change' row.life) :
    lifeOf (rows.updatePublication id change) = (lifeOf rows).setPublication id change' := by
  have publications : (updateWhere (fun row => row.id = id) change rows.publications).map
          PublicationRow.life =
        updateWhere (fun row => row.id = id) change' (rows.publications.map PublicationRow.life) :=
    map_updateWhere (by intro row; rfl) same rows.publications
  simp only [lifeOf, RequestRows.updatePublication, publications, Life.setPublication]
  rfl

/-- What the life shows is the projection of its rows. -/
theorem shown_lifeOf : (lifeOf rows).shown = rows.projection := by
  simp only [Life.shown, RequestRows.projection, lifeOf, List.find?_map, Option.map_map]
  rfl

theorem lifeOf_announce (env : Env) (state : DispatchState) (resultId : Option Uuid) :
    lifeOf (rows.announce env state resultId) = (lifeOf rows).announced state resultId := by
  have shown := shown_lifeOf (rows.setRequest fun r =>
      { r with
        state := state
        resultId := resultId <|> r.resultId
        version := r.version + 1
        updatedAt := env.now })
  unfold Life.announced
  simp only [lifeOf, RequestRows.announce, RequestRows.writeDispatchOutbox,
    List.map_append, List.map_cons, List.map_nil, ← shown]
  rfl

theorem lifeOf_appendAttempt (row : AttemptRow) :
    lifeOf { rows with attempts := rows.attempts ++ [row] } =
      { lifeOf rows with
        attempts := (lifeOf rows).attempts ++ [row.life] } := by
  simp only [lifeOf, List.map_append, List.map_cons, List.map_nil]
  rfl

/-- The request remembers that it was claimed once. -/
theorem lifeOf_markClaimed (now : Timestamp) :
    lifeOf (rows.setRequest fun r =>
        { r with firstClaimedAt := r.firstClaimedAt <|> some now }) =
      { lifeOf rows with claimed := true } := by
  have claimed : (rows.request.firstClaimedAt <|> some now).isSome = true := by
    cases rows.request.firstClaimedAt <;> rfl
  simp only [lifeOf, RequestRows.setRequest, claimed]
  rfl

end Updates

/-! ## Events -/

/-- An event that the life of a request does not see. -/
def EventBody.Silent : EventBody → Prop
  | .startedScope _ _ => False
  | .stopAccepted _ => False
  | .retryAuthorized _ _ _ _ => False
  | .retryConsumed _ _ => False
  | .cancelAction _ _ => False
  | .waitingReason _ => False
  | .resultAccepted _ _ => False
  | _ => True

section Events

variable (rows : RequestRows) (env : Env) (attemptId : Option Uuid)
  (actor : EventActor)

/-- The next event of a request. -/
def RequestRows.nextEvent (body : EventBody) : EventRow :=
  { id := rows.nextEventId env
    attemptId := attemptId
    actor := actor
    body := body
    createdAt := env.now }

/-- A list with one more element, where there is one. -/
def grown (elements : List α) : Option α → List α
  | none => elements
  | some element => elements ++ [element]

theorem grown_eq (elements : List α) (more : Option α) :
    grown elements more = elements ++ more.toList := by
  cases more with
  | none => exact (List.append_nil elements).symm
  | some element => rfl

/-- What an event adds to the life of its request. -/
theorem lifeOf_insert (body : EventBody) :
    lifeOf (rows.insertEvent env attemptId actor body) =
      let event := rows.nextEvent env attemptId actor body
      { lifeOf rows with
        waitingReason :=
          (rows.insertEvent env attemptId actor body).waitingReason?
        scopes := grown (lifeOf rows).scopes event.startedScope?
        stops := grown (lifeOf rows).stops (event.stop?.map StopFact.life)
        cancellations := grown (lifeOf rows).cancellations event.cancelAction?
        authorizations :=
          grown (lifeOf rows).authorizations (event.retryAuthorized?.map RetryFact.eventId)
        consumptions := grown (lifeOf rows).consumptions event.retryConsumed?
        acceptances := grown (lifeOf rows).acceptances event.acceptance? } := by
  have appended : (rows.insertEvent env attemptId actor body).events =
      rows.events ++ [rows.nextEvent env attemptId actor body] := rfl
  simp only [lifeOf, RequestRows.startedScopes, RequestRows.stops,
    RequestRows.retryAuthorizations, RequestRows.retryConsumptions, appended,
    List.filterMap_append, List.map_append, filterMap_cons_toList,
    List.filterMap_nil, List.append_nil, ← Option.toList_map, grown_eq]
  rfl

variable {body : EventBody}

/-- Only its own events change the reason to wait. -/
theorem waitingReason?_insertEvent (about : ∀ reason, body ≠ .waitingReason reason) :
    (rows.insertEvent env attemptId actor body).waitingReason? = rows.waitingReason? := by
  unfold RequestRows.waitingReason? RequestRows.insertEvent
  cases body <;> first
    | exact (about _ rfl).elim
    | simp

theorem lifeOf_insertEvent (silent : body.Silent) :
    lifeOf (rows.insertEvent env attemptId actor body) = lifeOf rows := by
  rw [lifeOf_insert, waitingReason?_insertEvent]
  · cases body <;> first
      | exact silent.elim
      | rfl
  · rintro reason rfl
    exact silent

theorem lifeOf_insertScope (attempt : Uuid) (scope : RuntimeScope) :
    lifeOf (rows.insertEvent env attemptId actor (.startedScope attempt scope)) =
      { lifeOf rows with
        scopes := (lifeOf rows).scopes ++ [(attempt, scope)] } := by
  rw [lifeOf_insert, waitingReason?_insertEvent _ _ _ _ (by nofun)]
  rfl

theorem lifeOf_insertStop (acceptance : StopAcceptance) :
    lifeOf (rows.insertEvent env attemptId actor (.stopAccepted acceptance)) =
      { lifeOf rows with
        stops := (lifeOf rows).stops ++
          [{ attemptId := attemptId
             receiptId := rows.nextEventId env
             unscoped := acceptance.kind.unscoped }] } := by
  rw [lifeOf_insert, waitingReason?_insertEvent _ _ _ _ (by nofun)]
  rfl

theorem lifeOf_insertAuthorization
    (oldAttemptId : Uuid) (inputHash : Sha256) (generation : Nat) (stopReceiptId : Uuid) :
    lifeOf (rows.insertEvent env attemptId actor
        (.retryAuthorized oldAttemptId inputHash generation stopReceiptId)) =
      { lifeOf rows with
        authorizations := (lifeOf rows).authorizations ++
          [rows.nextEventId env] } := by
  rw [lifeOf_insert, waitingReason?_insertEvent _ _ _ _ (by nofun)]
  rfl

theorem lifeOf_insertConsumption (authorization attempt : Uuid) :
    lifeOf (rows.insertEvent env attemptId actor (.retryConsumed authorization attempt)) =
      { lifeOf rows with
        consumptions := (lifeOf rows).consumptions ++
          [(authorization, attempt)] } := by
  rw [lifeOf_insert, waitingReason?_insertEvent _ _ _ _ (by nofun)]
  rfl

theorem lifeOf_insertCancelAction (key : OperationKey) (hash : CancelDigest) :
    lifeOf (rows.insertEvent env attemptId actor (.cancelAction key hash)) =
      (Change.recordCancel key hash).apply (lifeOf rows) := by
  rw [lifeOf_insert, waitingReason?_insertEvent _ _ _ _ (by nofun)]
  rfl

theorem lifeOf_insertAcceptance (resultId : Uuid) (submitted : ResultHash) :
    lifeOf (rows.insertEvent env attemptId actor (.resultAccepted resultId submitted)) =
      { lifeOf rows with
        acceptances := (lifeOf rows).acceptances ++
          [(attemptId, submitted)] } := by
  rw [lifeOf_insert, waitingReason?_insertEvent _ _ _ _ (by nofun)]
  rfl

theorem lifeOf_insertWaitingReason (reason : String) :
    lifeOf (rows.insertEvent env attemptId actor (.waitingReason reason)) =
      (Change.explain (rows.insertEvent env attemptId actor
        (.waitingReason reason)).waitingReason?).apply (lifeOf rows) := by
  rw [lifeOf_insert]
  rfl

end Events

/-! ## Artifacts -/

/-- Storing an artifact is not seen by the life of a request. -/
theorem lifeOf_insertArtifact
    {env : Env} {rows : RequestRows} {input : ArtifactInput} {stored : RequestRows × Uuid}
    (inserted : insertArtifact env rows input = .ok stored) :
    lifeOf stored.1 = lifeOf rows := by
  simp only [insertArtifact, bind_eq_ok, ensure_eq_ok] at inserted
  obtain ⟨-, -, -, -, written⟩ := inserted
  split at written
  · simp only [bind_eq_ok, ensure_eq_ok, pure_eq_ok] at written
    obtain ⟨-, -, rfl⟩ := written
    rfl
  · simp only [bind_eq_ok, ensure_eq_ok, pure_eq_ok] at written
    obtain ⟨-, -, -, -, rfl⟩ := written
    exact lifeOf_insertEvent _ _ _ _ trivial

theorem lifeOf_insertSources {env : Env} {rows : RequestRows} {prepared : List PreparedSource}
    {stored : RequestRows × List SourceRef}
    (inserted : insertSources env rows prepared = .ok stored) :
    lifeOf stored.1 = lifeOf rows := by
  induction prepared generalizing rows stored with
  | nil =>
    obtain rfl := Except.ok.inj inserted
    rfl
  | cons source rest ih =>
    simp only [insertSources, bind_eq_ok, pure_eq_ok] at inserted
    obtain ⟨first, firstStored, others, othersStored, rfl⟩ := inserted
    exact (ih othersStored).trans (lifeOf_insertArtifact firstStored)

end Dispatch
end Scrum4Me
