import Scrum4Me.Dispatch.Schema
import Scrum4Me.Foundation.Transaction

/-!
# Statements on the rows of one request

The SQL statements that several transactions share: inserts, updates by key and
the recurring queries. An insert draws its identifier from the environment by
table and position, so no two inserts of a transaction share one.
-/

namespace Scrum4Me
namespace Dispatch

open Foundation

/-- The tables that draw random identifiers. -/
inductive Table
  | request | message | candidate | reservation | job | attempt | event
  | result | artifact | publication | outbox | incarnation | slot | profile
  deriving DecidableEq

/-- What a managed worker row contributes to the capacity of its slot. -/
structure WorkerRow where
  lastSeenAt : Timestamp
  runtime : Runtime
  capabilities : List String
  productId : Option String
  tier : Option Tier
  quotaPct : Option Nat
  deriving DecidableEq

/-- What a transaction reads from outside the dispatch tables: the clocks, fresh
identifiers, the deployment's configuration, and the answers of the
authorization, task, worker and ordinary-queue tables. -/
structure Env where
  /-- `now()`, the start of the transaction. -/
  now : Timestamp
  /-- `clock_timestamp()`. -/
  clock : Timestamp
  /-- `Date.now()` of the service. -/
  hostNow : Timestamp
  uuid : Table → Nat → Uuid
  enabled : Bool
  productAllowlist : List String
  repositorySources : Bool
  keyVersion : Nat
  hasKey : Nat → Bool
  byteLength : Document → Nat
  artifactMaxBytes : Nat
  attemptMaxBytes : Nat
  attemptOutputMaxBytes : Nat
  stopEvidenceMaxBytes : Nat
  refreshActor : Actor → Except DispatchErrorCode Unit
  authorizeDispatch :
    Actor → DispatchInput → Operation → Except DispatchErrorCode Unit
  /-- `lockManagedTask`, decided by the task and product tables. -/
  lockManagedTask : RequestRow → Except DispatchErrorCode Unit
  /-- `lockManagedTaskHierarchy`. -/
  lockManagedTaskHierarchy : Option String → Except DispatchErrorCode Unit
  /-- `snapshotTask` and `validateDocumentPins` of an intake. -/
  snapshotTask : DispatchInput → Except DispatchErrorCode Unit
  /-- The registered `repo_url` of a product. -/
  repoUrl : String → Option String
  /-- `resolveRuntimeJobConfig`: the model of a job, where one is configured. -/
  jobModel : DispatchInput → Runtime → Option String
  worker : SlotRow → Option WorkerRow
  minQuotaPct : String → Nat
  /-- A live ordinary job of the slot's worker. -/
  ordinaryLiveJob : SlotRow → Bool
  /-- A claimed ordinary message of the slot's address. -/
  ordinaryRequestClaim : SlotRow → Bool
  /-- Rows another transaction holds, for `SKIP LOCKED`. -/
  requestLocked : Uuid → Bool
  slotLocked : Uuid → Bool

/-- Read an answer of the environment as a statement of the transaction. -/
def answered (answer : Except DispatchErrorCode α) : Except Failure α :=
  match answer with
  | .ok value => .ok value
  | .error code => .error (.dispatch code)

@[simp] theorem answered_eq_ok (answer : Except DispatchErrorCode α) (value : α) :
    answered answer = .ok value ↔ answer = .ok value := by
  cases answer <;> simp [answered]

/-! ## Facts read from events -/

/-- A `stop_accepted` event. -/
structure StopFact where
  eventId : Uuid
  attemptId : Option Uuid
  acceptance : StopAcceptance
  deriving DecidableEq

def EventRow.stop? (event : EventRow) : Option StopFact :=
  match event.body with
  | .stopAccepted acceptance => some ⟨event.id, event.attemptId, acceptance⟩
  | _ => none

/-- The attempt and scope of a `started_scope` event. -/
def EventRow.startedScope? (event : EventRow) :
    Option (Uuid × RuntimeScope) :=
  match event.body with
  | .startedScope attemptId scope => some (attemptId, scope)
  | _ => none

/-- A `retry_authorized` event. -/
structure RetryFact where
  eventId : Uuid
  actor : EventActor
  inputHash : Sha256
  generation : Nat
  deriving DecidableEq

def EventRow.retryAuthorized? (event : EventRow) : Option RetryFact :=
  match event.body with
  | .retryAuthorized _ inputHash generation _ =>
      some ⟨event.id, event.actor, inputHash, generation⟩
  | _ => none

/-- The authorization and the attempt of a `retry_consumed` event. -/
def EventRow.retryConsumed? (event : EventRow) : Option (Uuid × Uuid) :=
  match event.body with
  | .retryConsumed authorizationEventId attemptId =>
      some (authorizationEventId, attemptId)
  | _ => none

namespace RequestRows

variable (rows : RequestRows)

def stops : List StopFact := rows.events.filterMap EventRow.stop?

def startedScopes : List (Uuid × RuntimeScope) :=
  rows.events.filterMap EventRow.startedScope?

def retryAuthorizations : List RetryFact :=
  rows.events.filterMap EventRow.retryAuthorized?

def retryConsumptions : List (Uuid × Uuid) :=
  rows.events.filterMap EventRow.retryConsumed?

/-- `type='stop_accepted'` events of an attempt. -/
def stopsOf (attemptId : Uuid) : List StopFact :=
  rows.stops.filter fun stop => stop.attemptId = some attemptId

/-- `type='started_scope'` events of an attempt. -/
def scopesOf (attemptId : Uuid) : List RuntimeScope :=
  (rows.startedScopes.filter fun scope => scope.1 = attemptId).map Prod.snd

/-- `unresolvedPublication`. -/
def UnresolvedPublication : Prop :=
  ∃ publication ∈ rows.publications, publication.state.Unresolved

instance : Decidable rows.UnresolvedPublication :=
  inferInstanceAs (Decidable (∃ publication ∈ rows.publications, _))

/-- The canonical result of the request, if one was written. -/
def result? : Option ResultRow := rows.results.head?

def candidate? (id : Uuid) : Option CandidateRow :=
  rows.candidates.find? fun candidate => candidate.id = id

def attempt? (id : Uuid) : Option AttemptRow :=
  rows.attempts.find? fun attempt => attempt.id = id

def job? (id : Uuid) : Option JobRow :=
  rows.jobs.find? fun job => job.id = id

def publication? (id : Uuid) : Option PublicationRow :=
  rows.publications.find? fun publication => publication.id = id

/-- The candidate of the request's generation that is not yet closed. -/
def openCandidate? : Option CandidateRow :=
  rows.candidates.find? fun candidate =>
    candidate.generation = rows.request.generation ∧ candidate.state.Open

/-! ## Updates -/

def setRequest (change : RequestRow → RequestRow) : RequestRows :=
  { rows with request := change rows.request }

def updateCandidate
    (id : Uuid) (change : CandidateRow → CandidateRow) : RequestRows :=
  { rows with
    candidates := updateWhere (fun row => row.id = id) change rows.candidates }

def updateAttempt
    (id : Uuid) (change : AttemptRow → AttemptRow) : RequestRows :=
  { rows with
    attempts := updateWhere (fun row => row.id = id) change rows.attempts }

def updateJob (id : Uuid) (change : JobRow → JobRow) : RequestRows :=
  { rows with jobs := updateWhere (fun row => row.id = id) change rows.jobs }

def updatePublication
    (id : Uuid) (change : PublicationRow → PublicationRow) : RequestRows :=
  { rows with
    publications :=
      updateWhere (fun row => row.id = id) change rows.publications }

/-- `UPDATE … WHERE candidate_id=$1 AND released_at IS NULL`. -/
def updateReservation (candidateId : Uuid)
    (change : ReservationRow → ReservationRow) : RequestRows :=
  { rows with
    reservations :=
      updateWhere
        (fun row => row.candidateId = candidateId ∧ row.releasedAt = none)
        change rows.reservations }

/-- `UPDATE queue_dispatch_reservations SET released_at=now()`. -/
def releaseReservation (env : Env) (candidateId : Uuid) : RequestRows :=
  rows.updateReservation candidateId fun row =>
    { row with releasedAt := some env.now }

/-- Update the job of a candidate, where it has one. -/
def updateJobOf
    (jobId : Option Uuid) (change : JobRow → JobRow) : RequestRows :=
  match jobId with
  | some id => rows.updateJob id change
  | none => rows

/-- `lifecycleEvent`. -/
def insertEvent (env : Env) (attemptId : Option Uuid) (actor : EventActor)
    (body : EventBody) : RequestRows :=
  { rows with
    events := rows.events ++
      [{ id := env.uuid .event rows.events.length
         attemptId := attemptId
         actor := actor
         body := body
         createdAt := env.now }] }

/-- The identifier the next event will get. -/
def nextEventId (env : Env) : Uuid := env.uuid .event rows.events.length

end RequestRows

end Dispatch
end Scrum4Me
