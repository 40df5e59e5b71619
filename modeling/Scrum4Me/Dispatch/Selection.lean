import Scrum4Me.Dispatch.Eligibility
import Scrum4Me.Dispatch.Lifecycle

/-!
# Intake, sources and selection

The transactions before a claim: submit a request, prepare its sources, reject
it unstarted, reserve a slot for it, and retire a reservation that nobody
claimed.
-/

namespace Scrum4Me
namespace Dispatch

open Foundation

/-! ## Intake -/

/-- The row that `submitDispatch` inserts. -/
def submittedRequest (env : Env) (actor : Actor) (input : DispatchInput)
    (key : String) : RequestRow :=
  { id := env.uuid .request 0
    principalKey := actor.principalKey
    idempotencyKey := key
    userId := actor.userId
    productId := input.productId
    authSource := { source := actor.source, tokenId := actor.tokenId }
    input := input
    inputHash := artifactHash (.input input)
    sourcesReadyAt := none
    state := .waiting
    version := 1
    generation := 0
    firstClaimedAt := none
    retryAuthorizationEventId := none
    rootMessageId := env.uuid .message 0
    replyMessageId := env.uuid .message 1
    resultId := none
    createdAt := env.now
    updatedAt := env.now }

/-- `submitDispatch`: the id of the request, new or already submitted under the
same key. -/
def submitDispatch (env : Env) (store : Store) (actor : Actor) (input : DispatchInput)
    (key : String) : Except Failure (Store × Uuid) := do
  ensure (keyValid key = true) invalidInput
  answered (env.authorizeDispatch actor input .submit)
  ensure
    (env.enabled = true ∧ input.productId ∈ env.productAllowlist ∧
      (env.repositorySources = true ∨ input.repository = none)) notFound
  match store.requests.find? fun rows =>
      rows.request.principalKey = actor.principalKey ∧
        rows.request.idempotencyKey = key with
  | some existing =>
      ensure
        (existing.request.inputHash = artifactHash (.input input))
        idempotencyConflict
      return (store, existing.request.id)
  | none =>
      answered (env.snapshotTask input)
      let r := submittedRequest env actor input key
      let rows : RequestRows :=
        { request := r
          candidates := []
          reservations := []
          attempts := []
          jobs := []
          events := []
          results := []
          artifacts := []
          publications := []
          outbox := [] }
      let rows := rows.insertEvent env none
        (.submitter r.authSource actor.userId) (.submitted r.inputHash)
      return ({ store with
          requests := store.requests ++ [rows.writeDispatchOutbox env] },
        r.id)

/-! ## Rejecting before a start -/

def rejectedResult (reason : String) : DispatchResult :=
  { outcome := .failed
    summary := reason
    reportMarkdown := "Execution could not start: " ++ reason ++ "."
    checks := []
    code := none
    review := none }

/-- Close the unclaimed candidate of a request that will not start. -/
def closeUnclaimed (env : Env) (rows : RequestRows)
    (c : CandidateRow) : RequestRows :=
  let rows := rows.updateJobOf c.jobId fun job =>
    { job with status := .cancelled, finishedAt := some env.now }
  let rows := rows.updateCandidate c.id fun row =>
    { row with state := .retired }
  rows.releaseReservation env c.id

/-- The job of an unclaimed candidate still waits in its queue. -/
def jobStillQueued (rows : RequestRows) (jobId : Option Uuid) : Prop :=
  ∀ id ∈ jobId, ∃ job ∈ rows.job? id,
    job.status = .queued ∧ job.claimedAt = none

instance (rows : RequestRows) (jobId : Option Uuid) :
    Decidable (jobStillQueued rows jobId) :=
  inferInstanceAs (Decidable (∀ id ∈ jobId, _))

/-- The writes of `rejectUnstartedInTransaction` after its checks. -/
def writeRejection (env : Env) (rows : RequestRows)
    (reason : String) : RequestRows :=
  let id := env.uuid .result rows.results.length
  let payload := rejectedResult reason
  let rows : RequestRows :=
    { rows with
      results := rows.results ++
        [{ id := id
           attemptId := none
           outcome := .failed
           payload := payload
           sha256 := .json payload }] }
  let rows := rows.insertEvent env none (.service none)
    (.rejectUnstarted reason id)
  rows.announce env .failed (some id)

/-- `rejectUnstartedInTransaction`. -/
def rejectUnstartedInTransaction (env : Env) (rows : RequestRows)
    (reason : String) : Except Failure RequestRows := do
  let r := rows.request
  if r.state ≠ .waiting ∧ r.state ≠ .reserved then
    return rows
  else
    if r.firstClaimedAt ≠ none then
      let _ ← assertRetryAuthorization rows
      rejectCandidate
    else
      rejectCandidate
where
  /-- The rest of the transaction, once its authority is settled. -/
  rejectCandidate : Except Failure RequestRows :=
    match rows.openCandidate? with
    | some c =>
        if c.firstClaimedAt ≠ none ∨ ¬ jobStillQueued rows c.jobId then
          .ok rows
        else
          .ok (writeRejection env (closeUnclaimed env rows c) reason)
    | none => .ok (writeRejection env rows reason)

/-! ## Sources -/

/-- The sources of a request, ready to be committed. -/
structure PreparedSource where
  key : String
  bytes : Document
  sha256 : Sha256
  deriving DecidableEq

/-- Store every prepared source under the request. -/
def insertSources (env : Env) (rows : RequestRows) :
    List PreparedSource → Except Failure (RequestRows × List SourceRef)
  | [] => .ok (rows, [])
  | source :: rest => do
      let stored ← insertArtifact env rows
        { attemptId := none
          key := source.key
          bytes := source.bytes
          sha256 := source.sha256
          actor := .sourceService
          binding := .none }
      let others ← insertSources env stored.1 rest
      return (others.1,
        { key := source.key
          artifactId := stored.2
          sha256 := source.sha256
          byteSize := env.byteLength source.bytes } :: others.2)

/-- The committing transaction of `prepareRequestSources`. -/
def prepareSources (env : Env) (rows : RequestRows) (prepared : List PreparedSource)
    (repoUrl : Option String) : Except Failure RequestRows := do
  let current := rows.request
  if current.sourcesReadyAt ≠ none ∨ current.firstClaimedAt ≠ none ∨
      current.state ≠ .waiting ∧ current.state ≠ .reserved then
    return rows
  else
    answered (env.authorizeDispatch (requestActor current) current.input .claim)
    ensure
      (∀ url ∈ repoUrl, ∃ repo ∈ current.input.repository,
        env.repoUrl repo.productId = some url)
      forbidden
    let stored ← insertSources env rows prepared
    let rows := stored.1.insertEvent env none (.service none)
      (.sourcesPrepared stored.2)
    return rows.setRequest fun r =>
      { r with sourcesReadyAt := some env.now, updatedAt := env.now }

/-- The transaction of `prepareRequestSources` that records a retry. -/
def recordSourceRetry (env : Env) (rows : RequestRows) (attempt : Nat) (reason : String)
    (nextAttemptAt : Timestamp) : RequestRows :=
  let current := rows.request
  if current.sourcesReadyAt ≠ none ∨ current.firstClaimedAt ≠ none ∨
      current.state ≠ .waiting then
    rows
  else
    let rows := rows.insertEvent env none (.service none)
      (.sourceRetry attempt reason nextAttemptAt)
    rows.insertEvent env none (.service none) (.waitingReason reason)

/-! ## Reservation -/

/-- `event(db, id, 'waiting_reason', …)`, which does not repeat itself, and the
`updated_at` mark beside it. -/
def recordWaitingReason (env : Env) (rows : RequestRows)
    (reason : String) : RequestRows :=
  let rows :=
    if rows.waitingReason? = some reason then
      rows
    else
      rows.insertEvent env none (.service none) (.waitingReason reason)
  rows.setRequest fun r => { r with updatedAt := env.now }

/-- Pools that a recent retirement still keeps away from. -/
def RequestRows.coolingDown (env : Env) (rows : RequestRows) :
    List (Uuid × Route) :=
  rows.events.filterMap fun event =>
    match event.body with
    | .poolCooldown profileRevisionId route eligibleAfter _ =>
        if env.now < eligibleAfter then
          some (profileRevisionId, route)
        else
          none
    | _ => none

/-- The first eligible pool with a slot that no other transaction holds, and
that slot. -/
def selectSlot?
    (env : Env) (pools : List EligiblePool) : Option (EligiblePool × Uuid) :=
  pools.findSome? fun pool =>
    (pool.slotIds.find? fun slotId => !env.slotLocked slotId).map fun slotId =>
      (pool, slotId)

/-- `enqueueManagedJob`: the row of the new job. -/
def managedJob
    (env : Env) (rows : RequestRows) (candidateId : Uuid) (profile : ProfileRow)
    (model : String) : JobRow :=
  let r := rows.request
  let job := requestJob r.input r.userId profile.config.runtime profile.id
  { id := env.uuid .job rows.jobs.length
    dispatchRequestId := r.id
    dispatchCandidateId := candidateId
    userId := r.userId
    productId := r.productId
    taskId := r.input.taskId
    kind := job.kind
    status := .queued
    runtime := profile.config.runtime
    requiredCapability := job.requiredCapability
    requestedModel := some model
    claimedAt := none
    startedAt := none
    finishedAt := none
    workerInstanceId := none
    usage := none }

/-- The writes of `reserveRequest` for a selected slot. -/
def writeReservation
    (env : Env) (rows : RequestRows) (route : Route) (profile : ProfileRow)
    (slot : RegisteredSlot)
    (model : String) : RequestRows :=
  let candidateId := env.uuid .candidate rows.candidates.length
  let generation := rows.request.generation + 1
  let jobs :=
    if route = .job then
      [managedJob env rows candidateId profile model]
    else
      []
  let jobId := jobs.head?.map JobRow.id
  let rows : RequestRows :=
    { rows with
      candidates := rows.candidates ++
        [{ id := candidateId
           generation := generation
           route := route
           profileRevisionId := profile.id
           incarnationId :=
             if route = .host then some slot.incarnationId else none
           state := .reserved
           reservedSlotId := slot.id
           deadline := env.clock + 120000
           jobId := jobId
           firstClaimedAt := none
           claimKey := none }]
      reservations := rows.reservations ++
        [{ id := env.uuid .reservation rows.reservations.length
           candidateId := candidateId
           slotId := slot.id
           releasedAt := none }]
      jobs := rows.jobs ++ jobs }
  let rows := rows.setRequest fun r => { r with generation := generation }
  let rows := rows.insertEvent env none (.service none)
    (.reserved candidateId profile.id slot.id route jobId)
  rows.announce env .reserved none

/-- The rights of `reserveRequest`: the requester's, then the task's. -/
def authorizeReservation (env : Env) (r : RequestRow) :
    Except DispatchErrorCode Unit := do
  env.authorizeDispatch (requestActor r) r.input .claim
  env.lockManagedTask r

/-- `reserveRequest`, for a request the caller found waiting. -/
def reserveRequest (env : Env) (store : Store)
    (rows : RequestRows) : Except Failure RequestRows := do
  let r := rows.request
  if env.enabled = false ∨ r.state ≠ .waiting ∨
      r.productId ∉ env.productAllowlist ∨ env.requestLocked r.id = true ∨
      r.sourcesReadyAt = none then
    return rows
  else
    if r.firstClaimedAt ≠ none then
      let _ ← assertRetryAuthorization rows
      reserveAuthorized
    else
      reserveAuthorized
where
  /-- The rest of the transaction, once the retry authority is settled. -/
  reserveAuthorized : Except Failure RequestRows :=
    let r := rows.request
    match authorizeReservation env r with
    | .error code =>
        if code = .forbidden ∨ code = .unauthenticated then
          rejectUnstartedInTransaction env rows "authorization_unavailable"
        else
          .ok (recordWaitingReason env rows
            (if code = .stateConflict then
              "task_not_dispatchable"
            else
              "authorization_unavailable"))
    | .ok _ =>
        let capacity := loadRegisteredCapacity env store r
        let cooldown := rows.coolingDown env
        let pools :=
          (eligibleExecutors r capacity.profiles capacity.slots
            env.clock).filter fun pool =>
              decide ((pool.profileRevisionId, pool.route) ∉ cooldown) &&
                (capacity.profiles.any fun profile =>
                  profile.id == pool.profileRevisionId &&
                    (env.jobModel r.input profile.config.runtime).isSome)
        match selectSlot? env pools with
        | none =>
            .ok (recordWaitingReason env rows
              (if cooldown.isEmpty then
                "no_eligible_capacity"
              else
                "pool_cooldown"))
        | some (pool, slotId) => do
            let profile ← require
              (capacity.profiles.find? fun profile =>
                profile.id = pool.profileRevisionId) .other
            let slot ← require
              (capacity.slots.find? fun slot => slot.id = slotId) .other
            let model ← require
              (env.jobModel r.input profile.config.runtime) .other
            return writeReservation env rows pool.route profile slot model

/-- The writes of `retireExpiredCandidate` after its checks. -/
def writeRetirement (env : Env) (rows : RequestRows)
    (c : CandidateRow) : RequestRows :=
  let rows := closeUnclaimed env rows c
  let rows := rows.insertEvent env none (.service none)
    (.poolCooldown c.profileRevisionId c.route (env.clock + 300000) c.id)
  rows.announce env .waiting none

/-- `retireExpiredCandidate`: whether the candidate was retired. -/
def retireExpiredCandidate (env : Env) (rows : RequestRows) :
    RequestRows × Bool :=
  let r := rows.request
  if r.state ≠ .reserved ∨ r.firstClaimedAt ≠ none then
    (rows, false)
  else
    match rows.candidates.find? fun c =>
        c.generation = r.generation ∧ c.state = .reserved ∧
          c.deadline ≤ env.now with
    | none => (rows, false)
    | some c =>
        if c.firstClaimedAt ≠ none ∨ ¬ jobStillQueued rows c.jobId then
          (rows, false)
        else
          (writeRetirement env rows c, true)

end Dispatch
end Scrum4Me
