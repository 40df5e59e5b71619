import Scrum4Me.Dispatch.Selection

/-!
# Claims, leases and start permits

The supervisor's transactions on a live attempt: claim a reserved candidate,
start it, renew its lease, reconcile it after an uncertainty, and the lease
sweep of the service itself.
-/

namespace Scrum4Me
namespace Dispatch

open Foundation

/-- `Locked`: the rows of an attempt, with the slot its incarnation runs on. -/
structure Locked where
  r : RequestRow
  c : CandidateRow
  a : AttemptRow
  i : IncarnationRow
  s : SlotRow

/-- `active`: the attempt still holds execution authority. -/
def Locked.Active (x : Locked) : Prop :=
  x.r.generation = x.c.generation ∧
    x.c.incarnationId = some x.a.incarnationId ∧
    x.i.slotId = x.c.reservedSlotId ∧ x.a.revokedAt = none ∧
    x.i.signedOffAt = none ∧ x.s.enabled = true ∧
    (x.c.state = .claimed ∨ x.c.state = .running ∨ x.c.state = .uncertain)

instance (x : Locked) : Decidable x.Active :=
  inferInstanceAs (Decidable (_ ∧ _))

/-- `['CLAIMED', 'RUNNING', 'UNCERTAIN'].includes(x.r.state)`. -/
def DispatchState.Live (state : DispatchState) : Prop :=
  state = .claimed ∨ state = .running ∨ state = .uncertain

instance (state : DispatchState) : Decidable state.Live :=
  inferInstanceAs (Decidable (_ ∨ _ ∨ _))

def AttemptState.Live (state : AttemptState) : Prop :=
  state = .claimed ∨ state = .running ∨ state = .uncertain

instance (state : AttemptState) : Decidable state.Live :=
  inferInstanceAs (Decidable (_ ∨ _ ∨ _))

/-- `state` of attempts.ts. -/
def state (env : Env) (rows : RequestRows) (next : DispatchState) :
    RequestRows :=
  rows.announce env next none

def lock (registry : Registry) (rows : RequestRows)
    (candidateId attemptId : Uuid) : Except Failure Locked := do
  let c ← require (rows.candidate? candidateId) forbidden
  let a ← require (rows.attempts.find? fun attempt =>
      attempt.id = attemptId ∧ attempt.candidateId = c.id) forbidden
  let i ← require (registry.incarnation? a.incarnationId) forbidden
  let s ← require (registry.slot? i.slotId) forbidden
  return { r := rows.request, c := c, a := a, i := i, s := s }

def verifyProof (actor : Actor) (proof : AttemptProof) (x : Locked) :
    Except Failure Unit :=
  ensure (proof.generation = x.c.generation ∧
      proof.incarnationId = x.a.incarnationId ∧ actor.source = .bearer ∧
      actor.userId = x.s.ownerUserId ∧
      actor.tokenId = some x.i.runtimeScope.supervisorTokenId ∧
      credentialMatches proof.credential x.a.credentialHash = true)
    forbidden

/-- A slot as it looks once the reservation of this very attempt is set aside. -/
def vacate (slotId : Uuid) (s : RegisteredSlot) : RegisteredSlot :=
  if s.id = slotId then
    { s with openReservation := false, liveJob := false, busy := false }
  else
    s

/-- `authorize`: the profile configuration under which the attempt may go on. -/
def authorize (env : Env) (store : Store) (actor : Actor) (x : Locked)
    (operation : Operation) : Except DispatchErrorCode ProfileConfig := do
  env.authorizeDispatch actor x.r.input operation
  env.authorizeDispatch (requestActor x.r) x.r.input operation
  ensure (some x.s.tokenId = actor.tokenId) .forbidden
  let capacity := loadRegisteredCapacity env store x.r
  let profile ← require (capacity.profiles.find? fun profile =>
      profile.id = x.c.profileRevisionId) .forbidden
  ensure (profile.revokedAt = none ∧
      profile.sha256 = x.i.runtimeScope.profileSha256 ∧
      profile.config.imageDigest = x.i.runtimeScope.imageDigest)
    .forbidden
  let slots := capacity.slots.map (vacate x.c.reservedSlotId)
  let pool ← require ((eligibleExecutors x.r capacity.profiles slots env.clock).find? fun pool =>
        pool.route = x.c.route ∧
          pool.profileRevisionId = x.c.profileRevisionId) .forbidden
  ensure (x.i.slotId ∈ pool.slotIds) .forbidden
  return profile.config

/-! ## Claims -/

inductive ClaimAuthority
  | prepare | existingScope | none
  deriving DecidableEq

/-- `DispatchClaimReceipt`. -/
structure ClaimReceipt where
  requestId : Uuid
  attemptId : Uuid
  requestState : DispatchState
  attemptState : AttemptState
  authority : ClaimAuthority
  scopeId : Option String
  deriving DecidableEq

/-- `context`, reduced to what can make it fail. -/
def context (env : Env) (rows : RequestRows) (x : Locked) :
    Except Failure Unit := do
  ensure (rows.events.any fun event =>
      match event.body with
      | .reserved candidateId _ _ _ _ => decide (candidateId = x.c.id)
      | _ => false)
    conflict
  ensure (env.hasKey x.a.credentialKeyVersion = true ∧ 1 ≤ x.c.generation) forbidden

/-- `receipt`. -/
def receipt (env : Env) (store : Store) (rows : RequestRows) (actor : Actor)
    (x : Locked) : Except Failure ClaimReceipt :=
  let none' : ClaimReceipt :=
    { requestId := x.r.id
      attemptId := x.a.id
      requestState := x.r.state
      attemptState := x.a.state
      authority := .none
      scopeId := x.a.scopeId }
  if env.enabled = true ∧ x.r.productId ∈ env.productAllowlist ∧ x.Active ∧
      x.r.state.Live ∧ x.a.state.Live then
    match authorize env store actor x .claim with
    | .error _ => .ok none'
    | .ok _ =>
        if x.a.state = .claimed ∧ x.r.state = .claimed ∧ x.a.scopeId = none then
          do
            context env rows x
            return { none' with authority := .prepare }
        else if x.a.scopeId ≠ none ∧ x.a.startedAt ≠ none then do
          context env rows x
          return { none' with authority := .existingScope }
        else
          .ok none'
  else
    .ok none'

/-- `authenticateExecutorSession`: the incarnation and its slot. -/
def authenticateExecutorSession
    (env : Env) (registry : Registry) (actor : Actor) (incarnationId : Uuid)
    (sessionCredential : Credential) :
    Except Failure (IncarnationRow × SlotRow) := do
  answered (env.refreshActor actor)
  let i ← require (registry.incarnation? incarnationId) forbidden
  let s ← require (registry.slot? i.slotId) forbidden
  ensure (actor.source = .bearer ∧ actor.userId = s.ownerUserId ∧
      actor.tokenId = some s.tokenId ∧
      actor.tokenId = some i.runtimeScope.supervisorTokenId ∧
      i.signedOffAt = none ∧ s.enabled = true ∧
      credentialMatches sessionCredential i.credentialHash = true)
    forbidden
  return (i, s)

/-- The job of a candidate may be taken by this executor. -/
def jobClaimable
    (rows : RequestRows) (c : CandidateRow) (profile : ProfileRow) (own : RegisteredSlot)
    (actor : Actor) : Prop :=
  ∀ id ∈ c.jobId, ∃ j ∈ rows.job? id,
    let expected := requestJob rows.request.input rows.request.userId
      profile.config.runtime profile.id
    j.claimedAt = none ∧ j.dispatchRequestId = rows.request.id ∧
      j.dispatchCandidateId = c.id ∧ j.kind = expected.kind ∧
      j.taskId = expected.taskId ∧
      ClaimPredicates
        { userId := j.userId
          productId := j.productId
          runtime := j.runtime
          status := j.status
          kind := j.kind
          requiredCapability := j.requiredCapability
          profileRevisionId := expected.profileRevisionId
          taskId := j.taskId }
        { userId := actor.userId
          productIds := own.currentProductIds
          runtime := own.config.runtime
          capabilities := own.currentCapabilities
          profileRevisionIds := own.incarnationProfileIds
          quotaPct := own.quotaPct
          minQuotaPct := own.minQuotaPct }

instance
    (rows : RequestRows) (c : CandidateRow) (profile : ProfileRow) (own : RegisteredSlot)
    (actor : Actor) :
    Decidable (jobClaimable rows c profile own actor) :=
  inferInstanceAs (Decidable (∀ id ∈ c.jobId, _))

/-- The new attempt of a claim. -/
def claimedAttempt (env : Env) (rows : RequestRows) (c : CandidateRow) (i : IncarnationRow)
    (claimKey : String) : AttemptRow :=
  let id := env.uuid .attempt rows.attempts.length
  { id := id
    candidateId := c.id
    incarnationId := i.id
    credentialHash :=
      credentialHash (.attempt id i.id c.generation env.keyVersion)
    credentialKeyVersion := env.keyVersion
    claimKey := claimKey
    state := .claimed
    scopeId := none
    startedAt := none
    heartbeatAt := some env.now
    stoppedAt := none
    revokedAt := none }

/-- Consume the retry authority of a claim, if it ran under one. -/
def consumeRetryAuthorization (env : Env) (rows : RequestRows) (attemptId : Uuid) : RequestRows :=
  match rows.request.retryAuthorizationEventId with
  | none => rows
  | some authorizationEventId =>
      (rows.insertEvent env none (.service none)
        (.retryConsumed authorizationEventId attemptId)).setRequest fun r =>
          { r with retryAuthorizationEventId := none }

/-- The writes of `claimDispatchAttempt`: the reservation follows the candidate
to the claiming slot. -/
def writeClaim (env : Env) (rows : RequestRows) (c : CandidateRow) (i : IncarnationRow)
    (claimKey : String) : RequestRows :=
  let a := claimedAttempt env rows c i claimKey
  let rows := rows.updateReservation c.id fun row =>
    { row with slotId := i.slotId }
  let rows := rows.setRequest fun r =>
    { r with firstClaimedAt := r.firstClaimedAt <|> some env.now }
  let rows := rows.updateCandidate c.id fun row =>
    { row with
      state := .claimed
      reservedSlotId := i.slotId
      incarnationId := some i.id
      firstClaimedAt := some env.now
      claimKey := some claimKey }
  let rows := rows.updateJobOf c.jobId fun job =>
    { job with
      status := .claimed
      claimedAt := some env.now
      workerInstanceId := i.runtimeScope.workerInstanceId }
  let rows : RequestRows := { rows with attempts := rows.attempts ++ [a] }
  let rows := rows.insertEvent env none (.service none) (.claimed c.id a.id i.id i.slotId)
  state env (consumeRetryAuthorization env rows a.id) .claimed

/-- The claiming incarnation runs the candidate's profile on a slot of its pool,
no free slot of the pool has a higher tier, and the job is still there. -/
def ClaimableBy
    (env : Env) (store : Store) (actor : Actor) (i : IncarnationRow) (rows : RequestRows)
    (c : CandidateRow) : Prop :=
  let r := rows.request
  let capacity := loadRegisteredCapacity env store r
  let slots := capacity.slots.map fun s =>
    if s.id = c.reservedSlotId then { s with openReservation := false } else s
  ∃ p ∈ capacity.profiles.find? fun profile =>
      profile.id = c.profileRevisionId,
    p.sha256 = i.runtimeScope.profileSha256 ∧
      p.config.imageDigest = i.runtimeScope.imageDigest ∧
      ∃ pool ∈ (eligibleExecutors r capacity.profiles slots env.clock).find? fun pool =>
            pool.profileRevisionId = c.profileRevisionId ∧
              pool.route = c.route,
        i.slotId ∈ pool.slotIds ∧
          ∃ own ∈ slots.find? fun s => s.id = i.slotId,
            (∀ highest ∈ slots.find? fun s =>
                some s.id = pool.slotIds.head?,
              tierPriority highest.config.tier ≤
                tierPriority own.config.tier) ∧
              jobClaimable rows c p own actor

instance
    (env : Env) (store : Store) (actor : Actor) (i : IncarnationRow) (rows : RequestRows)
    (c : CandidateRow) :
    Decidable (ClaimableBy env store actor i rows c) :=
  inferInstanceAs (Decidable (∃ _ ∈ _, _))

/-- One candidate of the claim loop: `none` continues with the next. -/
def claimCandidate (env : Env) (store : Store) (actor : Actor) (session : IncarnationRow × SlotRow)
    (claimKey : String) (rows : RequestRows)
    (candidateId : Uuid) : Except Failure (Option (RequestRows × Locked)) := do
  let r := rows.request
  let i := session.1
  let retryRefused :=
    match assertRetryAuthorization rows with
    | .ok _ => false
    | .error _ => true
  if r.state ≠ .reserved ∨ env.requestLocked r.id = true ∨
      r.firstClaimedAt ≠ none ∧ retryRefused = true then
    return none
  else
    answered (env.lockManagedTask r)
    match rows.candidate? candidateId with
    | none => return none
    | some c =>
      if c.state ≠ .reserved ∨ c.generation ≠ r.generation ∨
          c.firstClaimedAt ≠ none ∨
          c.route = .host ∧ (c.incarnationId ≠ some i.id ∨ c.reservedSlotId ≠ i.slotId) then
        return none
      else
        answered (env.authorizeDispatch actor r.input .claim)
        answered (env.authorizeDispatch (requestActor r) r.input .claim)
        if ClaimableBy env store actor i rows c then
          ensure (env.hasKey env.keyVersion = true ∧ 1 ≤ c.generation) forbidden
          return some (writeClaim env rows c i claimKey,
            { r := (writeClaim env rows c i claimKey).request
              c :=
                { c with
                  reservedSlotId := i.slotId
                  incarnationId := some i.id
                  state := .claimed }
              a := claimedAttempt env rows c i claimKey
              i := i
              s := session.2 })
        else
          return none

/-- The first candidate of the loop that can be claimed. -/
def claimFirst (env : Env) (store : Store) (actor : Actor) (session : IncarnationRow × SlotRow)
    (claimKey : String) :
    List (RequestRows × Uuid) → Except Failure (Option (RequestRows × Locked))
  | [] => .ok none
  | (rows, candidateId) :: rest => do
      match ← claimCandidate env store actor session claimKey rows
          candidateId with
      | some claimed => return some claimed
      | none => claimFirst env store actor session claimKey rest

/-- The candidates that the claim loop visits, in its order. -/
def claimableCandidates (env : Env) (store : Store) (userId : String) :
    List (RequestRows × Uuid) :=
  let rows := store.requests.flatMap fun rows =>
    (rows.candidates.filter fun c =>
      decide (rows.request.state = .reserved ∧ c.state = .reserved ∧
        rows.request.generation = c.generation ∧
        rows.request.userId = userId ∧
        rows.request.productId ∈ env.productAllowlist)).map fun c =>
          (rows, c.id)
  (rows.insertionSort fun first second =>
    first.1.request.createdAt < second.1.request.createdAt ∨
      first.1.request.createdAt = second.1.request.createdAt ∧
        first.2 ≤ second.2).take 25

/-- The attempt a claim key was already answered with. -/
def priorClaim? (store : Store) (incarnationId : Uuid)
    (claimKey : String) : Option (RequestRows × AttemptRow) :=
  store.requests.findSome? fun rows =>
    (rows.attempts.find? fun a =>
      a.incarnationId = incarnationId ∧ a.claimKey = claimKey ∧
        (rows.candidate? a.candidateId).isSome).map fun a => (rows, a)

/-- `claimDispatchAttempt`: the rows of the claimed request, if any, and the
receipt. -/
def claimDispatchAttempt
    (env : Env) (store : Store) (actor : Actor) (incarnationId : Uuid) (claimKey : String)
    (sessionCredential : Credential) :
    Except Failure (Option RequestRows × Option ClaimReceipt) := do
  ensure (keyValid claimKey = true) invalidInput
  let session ← authenticateExecutorSession env store.registry actor
    incarnationId sessionCredential
  match priorClaim? store incarnationId claimKey with
  | some (rows, a) =>
      let x ← lock store.registry rows a.candidateId a.id
      let answer ← receipt env store rows actor x
      return (none, some answer)
  | none =>
      if env.enabled = false then
        return (none, none)
      else
        match ← claimFirst env store actor session claimKey
            (claimableCandidates env store actor.userId) with
        | none => return (none, none)
        | some (rows, x) =>
            let answer ← receipt env (store.put rows) rows actor x
            return (some rows, some answer)

/-! ## Starting -/

/-- `DispatchStartPermit`: the signed binding and its time. -/
structure StartPermit where
  binding : StartBinding
  issuedAt : Timestamp
  deriving DecidableEq

def validScope (scope : RuntimeScope) (x : Locked) : Except Failure Unit := do
  ensure (scope.scopeId ≠ "" ∧ scope.scopeId.toList.length ≤ 256 ∧
      scope.bootId = x.i.bootId ∧
      scope.imageDigest = x.i.runtimeScope.imageDigest ∧
      scope.profileSha256 = x.i.runtimeScope.profileSha256)
    forbidden
  ensure (∀ scopeId ∈ x.a.scopeId, scopeId = scope.scopeId) conflict

def verifyRecordedScope (rows : RequestRows) (x : Locked)
    (scope : RuntimeScope) : Except Failure Unit :=
  ensure (rows.scopesOf x.a.id = [scope]) conflict

/-- The lease of the attempt has not run out. -/
def Locked.HeartbeatFresh (env : Env) (x : Locked) : Prop :=
  ∃ heartbeat ∈ x.a.heartbeatAt, env.clock - heartbeat < 120000

instance (env : Env) (x : Locked) : Decidable (x.HeartbeatFresh env) :=
  inferInstanceAs (Decidable (∃ heartbeat ∈ x.a.heartbeatAt, _))

/-- The attempt has run for its maximum duration. -/
def Locked.Overdue (env : Env) (x : Locked) (profile : ProfileConfig) : Prop :=
  ∃ started ∈ x.a.startedAt,
    profile.maxDurationSeconds * 1000 ≤ env.clock - started

instance (env : Env) (x : Locked) (profile : ProfileConfig) :
    Decidable (x.Overdue env profile) :=
  inferInstanceAs (Decidable (∃ started ∈ x.a.startedAt, _))

/-- The writes of `startDispatchAttempt` on a claimed attempt. -/
def writeStart (env : Env) (rows : RequestRows) (x : Locked) (scope : RuntimeScope) : RequestRows :=
  let rows := rows.updateAttempt x.a.id fun row =>
    { row with
      state := .running
      scopeId := some scope.scopeId
      startedAt := some env.now
      heartbeatAt := some env.now }
  let rows := rows.updateCandidate x.c.id fun row =>
    { row with state := .running }
  let rows := rows.updateJobOf x.c.jobId fun job =>
    { job with status := .running, startedAt := some env.now }
  let rows := rows.insertEvent env none (.service none) (.startedScope x.a.id scope)
  state env rows .running

def startDispatchAttempt (env : Env) (store : Store) (rows : RequestRows) (actor : Actor)
    (proof : AttemptProof)
    (scope : RuntimeScope) : Except Failure (RequestRows × StartPermit) := do
  let x ← lock store.registry rows proof.candidateId proof.attemptId
  verifyProof actor proof x
  validScope scope x
  ensure (env.enabled = true ∧ x.r.productId ∈ env.productAllowlist ∧ x.Active ∧
      (x.r.state = .claimed ∨ x.r.state = .running) ∧
      (x.a.state = .claimed ∨ x.a.state = .running))
    conflict
  ensure (x.HeartbeatFresh env) conflict
  let profile ← answered (authorize env store actor x .start)
  ensure (¬ x.Overdue env profile) conflict
  let permit : StartPermit :=
    { binding :=
        { requestId := x.r.id
          candidateId := x.c.id
          generation := x.c.generation
          attemptId := x.a.id
          incarnationId := x.a.incarnationId
          scope := scope }
      issuedAt := env.clock }
  if x.a.state = .running then
    verifyRecordedScope rows x scope
    return (rows, permit)
  else
    return (writeStart env rows x scope, permit)

/-! ## Leases -/

/-- `uncertain`. -/
def uncertain (env : Env) (rows : RequestRows) (x : Locked) : RequestRows :=
  let rows := rows.updateAttempt x.a.id fun row =>
    { row with state := .uncertain }
  let rows := rows.updateCandidate x.c.id fun row =>
    { row with state := .uncertain }
  let rows := rows.insertEvent env none (.service none) (.leaseExpired x.a.id)
  state env rows .uncertain

/-- `cancelForStop`. -/
def cancelForStop (env : Env) (rows : RequestRows) (x : Locked) (reason : String) : RequestRows :=
  let rows := rows.updateAttempt x.a.id fun row =>
    { row with
      state := .cancelRequested
      revokedAt := row.revokedAt <|> some env.now }
  let rows := rows.updateCandidate x.c.id fun row =>
    { row with state := .cancelRequested }
  let rows := rows.insertEvent env none (.service none) (.stopRequired x.a.id reason)
  state env rows .cancelRequested

/-- Renewing lapses into uncertainty first, where the lease already ran out. -/
def lapse (env : Env) (rows : RequestRows) (x : Locked) :
    RequestRows × AttemptState :=
  if x.a.state ≠ .uncertain ∧ ¬ x.HeartbeatFresh env then
    (uncertain env rows x, .uncertain)
  else
    (rows, x.a.state)

/-- `renewDispatchAttempt`: whether the supervisor must stop. -/
def renewDispatchAttempt (env : Env) (store : Store) (rows : RequestRows) (actor : Actor)
    (proof : AttemptProof)
    (scopeId : String) : Except Failure (RequestRows × Bool) := do
  let x ← lock store.registry rows proof.candidateId proof.attemptId
  verifyProof actor proof x
  if ¬ x.Active ∨ ¬ x.r.state.Live ∨ ¬ x.a.state.Live then
    return (rows, true)
  else
    ensure (x.a.scopeId = some scopeId) forbidden
    let lapsed := lapse env rows x
    match authorize env store actor x .start with
    | .error _ =>
        return (cancelForStop env lapsed.1 x "authorization_unavailable", true)
    | .ok profile =>
        if x.Overdue env profile then
          return (cancelForStop env lapsed.1 x "maximum_duration", true)
        else
          return (lapsed.1.updateAttempt x.a.id fun row =>
            { row with heartbeatAt := some env.now },
            decide (lapsed.2 = .uncertain))

/-- The writes of `reconcileDispatchAttempt`. -/
def writeResume (env : Env) (rows : RequestRows) (x : Locked) (scopeId : String) : RequestRows :=
  let rows := rows.updateAttempt x.a.id fun row =>
    { row with state := .running, heartbeatAt := some env.now }
  let rows := rows.updateCandidate x.c.id fun row =>
    { row with state := .running }
  let rows := rows.insertEvent env none (.service none) (.resumeSameAttempt x.a.id scopeId)
  state env rows .running

def reconcileDispatchAttempt (env : Env) (store : Store) (rows : RequestRows) (actor : Actor)
    (proof : AttemptProof)
    (scope : RuntimeScope) : Except Failure RequestRows := do
  let x ← lock store.registry rows proof.candidateId proof.attemptId
  verifyProof actor proof x
  validScope scope x
  ensure (env.enabled = true ∧ x.r.productId ∈ env.productAllowlist ∧ x.Active ∧
      x.r.state = .uncertain ∧ x.a.state = .uncertain ∧ x.a.startedAt ≠ none)
    conflict
  let scopeId ← require x.a.scopeId conflict
  let profile ← answered (authorize env store actor x .start)
  ensure (¬ x.Overdue env profile) conflict
  verifyRecordedScope rows x scope
  return writeResume env rows x scopeId

/-- One row of `markExpiredAttempts`: whether the lease was marked. -/
def markExpiredAttempt (env : Env) (registry : Registry) (rows : RequestRows)
    (candidateId attemptId : Uuid) : Except Failure (RequestRows × Bool) := do
  let x ← lock registry rows candidateId attemptId
  if x.r.generation ≠ x.c.generation ∨ ¬ x.r.state.Live ∨ ¬ x.a.state.Live ∨
      x.a.stoppedAt ≠ none ∧ rows.stopsOf x.a.id ≠ [] then
    return (rows, false)
  else
    let profile ← require (registry.profile? x.c.profileRevisionId) .other
    if x.Overdue env profile.config then
      return (cancelForStop env rows x "maximum_duration", false)
    else if x.a.state = .uncertain ∨ x.a.heartbeatAt = none ∨
        x.HeartbeatFresh env then
      return (rows, false)
    else
      return (uncertain env rows x, true)

end Dispatch
end Scrum4Me
