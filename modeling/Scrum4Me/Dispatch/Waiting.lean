import Scrum4Me.Dispatch.Selection
import Scrum4Me.Foundation.Batches

/-!
# Waiting requests in a tick

`waitingRequestIds` lists the waiting requests that were updated longest ago; the tick
prepares the sources of each of them and then tries to reserve it.
-/

namespace Scrum4Me
namespace Dispatch

open Foundation

/-! ## The list -/

/-- `ORDER BY updated_at,created_at,id`. -/
def RequestRow.place (r : RequestRow) : Timestamp ×ₗ Timestamp ×ₗ Uuid :=
  toLex (r.updatedAt, toLex (r.createdAt, r.id))

/-- `state='WAITING' AND product_id=ANY(…)`. -/
def RequestRow.Listed (env : Env) (r : RequestRow) : Prop :=
  r.state = .waiting ∧ r.productId ∈ env.productAllowlist

instance (env : Env) (r : RequestRow) : Decidable (r.Listed env) :=
  inferInstanceAs (Decidable (_ ∧ _))

/-- The requests that the list is taken from. -/
def Store.listed (env : Env) (store : Store) : List RequestRow :=
  (store.requests.map RequestRows.request).filter fun r => r.Listed env

def waitingRequestIds (env : Env) (limit : Nat) (store : Store) : List Uuid :=
  if env.enabled = false then []
  else
    ((oldestFirst RequestRow.place (store.listed env)).take (min 25 limit)).map
      RequestRow.id

/-! ## Sources -/

/-- What `loadPinnedSourceBytes` and `prepareRepository` come to. -/
inductive Fetched
  | prepared (sources : List PreparedSource) (repoUrl : Option String)
  /-- A `DispatchSourceError`. -/
  | failed (reason : String)
  /-- A `DispatchError`. -/
  | refused
  | threw

/-- The reasons after which a source is tried again. -/
def TransientReason (reason : String) : Prop :=
  reason = "network" ∨ reason = "timeout" ∨ reason = "unavailable"

instance (reason : String) : Decidable (TransientReason reason) :=
  inferInstanceAs (Decidable (_ ∨ _ ∨ _))

/-- The attempts recorded by the newest `source_retry` and the time of the next. -/
structure SourceRetry where
  attempt : Nat
  nextAttemptAt : Timestamp

def EventRow.sourceRetry? (event : EventRow) : Option SourceRetry :=
  match event.body with
  | .sourceRetry attempt _ nextAttemptAt => some ⟨attempt, nextAttemptAt⟩
  | _ => none

def RequestRows.sourceRetry? (rows : RequestRows) : Option SourceRetry :=
  (latestEvent? (rows.events.filter fun event => event.sourceRetry?.isSome)).bind
    EventRow.sourceRetry?

/-- The retries are used up, or the next one is not due. -/
def RequestRows.RetryPending (env : Env) (rows : RequestRows) : Prop :=
  ∃ retry ∈ rows.sourceRetry?, 3 ≤ retry.attempt ∨ env.hostNow < retry.nextAttemptAt

instance (env : Env) (rows : RequestRows) : Decidable (rows.RetryPending env) :=
  inferInstanceAs (Decidable (∃ _ ∈ _, _))

/-- The branches of `prepareRequestSources`. -/
inductive SourceDecision
  | returns
  | reject (reason : String)
  | retry (attempt : Nat) (reason : String) (nextAttemptAt : Timestamp)
  | commit (prepared : List PreparedSource) (repoUrl : Option String)
  | throws

/-- The retry after a transient failure. -/
def nextRetry (env : Env) (rows : RequestRows) (reason : String) : SourceDecision :=
  let attempt := (rows.sourceRetry?.elim 0 SourceRetry.attempt) + 1
  .retry attempt
    (if 3 ≤ attempt then "source_retry_exhausted" else "source_" ++ reason)
    (env.hostNow + min 60000 (5000 * 2 ^ attempt))

def decideSources (env : Env) (fetched : Fetched) (rows : RequestRows) :
    SourceDecision :=
  let r := rows.request
  if (r.state ≠ .waiting ∧ r.state ≠ .reserved) ∨ r.firstClaimedAt ≠ none then .returns
  else if env.authorizeDispatch (requestActor r) r.input .claim ≠ .ok () then
    -- ready requests are rechecked too
    .reject "authorization_unavailable"
  else if r.sourcesReadyAt ≠ none ∨ rows.RetryPending env then .returns
  else
    match fetched with
    | .prepared sources repoUrl =>
        if artifactHash (.input r.input) ≠ r.inputHash then
          .reject "source_input_mismatch"
        else
          .commit
            (sources ++
              [{ key := dispatchInputSourceKey
                 bytes := .input r.input
                 sha256 := r.inputHash }]) repoUrl
    | .failed reason =>
        if TransientReason reason then nextRetry env rows reason
        else .reject ("source_" ++ reason)
    | .refused => .reject "authorization_unavailable"
    | .threw => .throws

def prepareRequestSources (env : Env) (fetched : Fetched) (rows : RequestRows) :
    Except Failure RequestRows :=
  match decideSources env fetched rows with
  | .returns => .ok rows
  | .reject reason => rejectUnstartedInTransaction env rows reason
  | .retry attempt reason nextAttemptAt =>
      .ok (recordSourceRetry env rows attempt reason nextAttemptAt)
  | .commit prepared repoUrl =>
      match prepareSources env rows prepared repoUrl with
      | .ok next => .ok next
      | .error failure =>
          if failure = forbidden ∨ failure = .dispatch .unauthenticated then
            rejectUnstartedInTransaction env rows "authorization_unavailable"
          else
            .error failure
  | .throws => .error .other

/-! ## The two loops -/

/-- What a tick meets: the environments of the units of each request, and what
fetching its sources comes to. -/
structure TickInput where
  list : Env
  sources : Uuid → Env
  fetched : Uuid → Fetched
  reserve : Uuid → Env

structure Ticked where
  store : Store
  /-- The requests a unit of which threw. -/
  threw : List Uuid

/-- One unit; a transaction that throws leaves the store as it was. -/
def Ticked.unit (work : Store → RequestRows → Except Failure RequestRows) (done : Ticked)
    (id : Uuid) : Ticked :=
  match done.store.request? id with
  | none => done
  | some rows =>
      match work done.store rows with
      | .ok next => { done with store := done.store.put next }
      | .error _ => { done with threw := id :: done.threw }

/-- The units of `prepareRequestSources`. -/
def TickInput.prepare (input : TickInput) (ids : List Uuid) (done : Ticked) : Ticked :=
  ids.foldl (fun done id =>
    done.unit (fun _ rows =>
      prepareRequestSources (input.sources id) (input.fetched id) rows) id) done

/-- The units of `reserveRequest`. -/
def TickInput.reserveAll (input : TickInput) (ids : List Uuid) (done : Ticked) : Ticked :=
  ids.foldl (fun done id => done.unit (reserveRequest (input.reserve id)) id) done

/-- The waiting requests of one tick with sources. The stages after it write no request
that waits and make none wait. -/
def tickWaiting (input : TickInput) (limit : Nat) (store : Store) : Ticked :=
  let ids := waitingRequestIds input.list limit store
  input.reserveAll ids (input.prepare ids ⟨store, []⟩)

end Dispatch
end Scrum4Me
