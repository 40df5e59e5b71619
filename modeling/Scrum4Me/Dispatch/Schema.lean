import Scrum4Me.Dispatch.Types
import Scrum4Me.Foundation.Table

/-!
# The dispatch tables

One structure per table of the dispatch schema, with the columns that the
modelled transactions read. A nullable column is an `Option`. The rows that
belong to a request are kept with it in `RequestRows`, each table in insertion
order; slots, incarnations and profiles belong to no request and live in
`Registry`.
-/

namespace Scrum4Me
namespace Dispatch

open Foundation

/-! ## Rows of a request -/

structure AuthSource where
  source : ActorSource
  tokenId : Option String
  deriving DecidableEq

structure RequestRow where
  id : Uuid
  principalKey : String
  idempotencyKey : String
  userId : String
  productId : String
  authSource : AuthSource
  input : DispatchInput
  inputHash : Sha256
  sourcesReadyAt : Option Timestamp
  state : DispatchState
  version : Nat
  generation : Nat
  firstClaimedAt : Option Timestamp
  retryAuthorizationEventId : Option Uuid
  rootMessageId : Uuid
  replyMessageId : Uuid
  resultId : Option Uuid
  createdAt : Timestamp
  updatedAt : Timestamp
  deriving DecidableEq

structure CandidateRow where
  id : Uuid
  generation : Nat
  route : Route
  profileRevisionId : Uuid
  incarnationId : Option Uuid
  state : CandidateState
  reservedSlotId : Uuid
  deadline : Timestamp
  jobId : Option Uuid
  firstClaimedAt : Option Timestamp
  claimKey : Option String
  deriving DecidableEq

structure ReservationRow where
  id : Uuid
  candidateId : Uuid
  slotId : Uuid
  releasedAt : Option Timestamp
  deriving DecidableEq

structure AttemptRow where
  id : Uuid
  candidateId : Uuid
  incarnationId : Uuid
  credentialHash : CredentialHash
  credentialKeyVersion : Nat
  claimKey : String
  state : AttemptState
  scopeId : Option String
  startedAt : Option Timestamp
  heartbeatAt : Option Timestamp
  stoppedAt : Option Timestamp
  revokedAt : Option Timestamp
  deriving DecidableEq

inductive UsageStatus
  | captured | missingModel | noUsageEvents | parseError | truncated
  deriving DecidableEq

/-- The usage columns of `claude_jobs`; `captureStatus` is their marker. -/
structure UsageColumns where
  modelId : Option String
  inputTokens : Option Nat
  outputTokens : Option Nat
  cacheReadTokens : Option Nat
  cacheWriteTokens : Option Nat
  reasoningOutputTokens : Option Nat
  captureStatus : UsageStatus
  deriving DecidableEq

inductive JobKind
  | queueTask | queueReview | taskImplementation
  deriving DecidableEq

/-- A `claude_jobs` row bound to a dispatch candidate. -/
structure JobRow where
  id : Uuid
  dispatchRequestId : Uuid
  dispatchCandidateId : Uuid
  userId : String
  productId : String
  taskId : Option String
  kind : JobKind
  status : JobStatus
  runtime : Runtime
  requiredCapability : Option String
  requestedModel : Option String
  claimedAt : Option Timestamp
  startedAt : Option Timestamp
  finishedAt : Option Timestamp
  workerInstanceId : Option String
  usage : Option UsageColumns
  deriving DecidableEq

structure ResultRow where
  id : Uuid
  attemptId : Option Uuid
  outcome : Outcome
  payload : DispatchResult
  sha256 : ResultHash
  deriving DecidableEq

structure ArtifactRow where
  id : Uuid
  attemptId : Option Uuid
  key : String
  sha256 : Sha256
  bytes : Document
  byteSize : Nat
  deriving DecidableEq

inductive ReceiptStatus
  | confirmed | failed | unknown
  deriving DecidableEq

/-- `value.status.toUpperCase()`. -/
def ReceiptStatus.state : ReceiptStatus → PublicationState
  | .confirmed => .confirmed
  | .failed => .failed
  | .unknown => .unknown

structure PublicationReceipt where
  operationId : Uuid
  status : ReceiptStatus
  branchOf : Uuid
  headSha : String
  prUrl : Option String
  deriving DecidableEq

/-- `${request}:${attempt}:${artifact}`. -/
structure PublicationKey where
  requestId : Uuid
  attemptId : Uuid
  artifactId : Uuid
  deriving DecidableEq

structure PublicationRow where
  id : Uuid
  attemptId : Uuid
  actionKey : PublicationKey
  inputHash : Sha256
  baseSha : String
  headSha : String
  branchOf : Uuid
  mode : PublishMode
  expectedRemoteHead : Option String
  state : PublicationState
  remoteReceipt : Option PublicationReceipt
  createdAt : Timestamp
  updatedAt : Timestamp
  deriving DecidableEq

/-! ## Events -/

inductive StopKind
  | preparedCreatedNonlaunch
  | registeredStartedScope
  | claimBoundUnscoped
  | signedOffUnstarted
  | attested (kind : EvidenceKind)
  deriving DecidableEq

/-- The binding an accepted stop records: a scope for the observed kinds, the
claim alone for the two that no scope ever existed for. -/
inductive StopBinding
  | scoped (binding : StartBinding)
  | claim (binding : SourceBinding)
  deriving DecidableEq

inductive StopProvenance
  | unregisteredPreparedScope | registeredStartedScope
  deriving DecidableEq

/-- The binding staged with an artifact. -/
inductive StagedBinding
  | none
  | observed (binding : StartBinding) (slotId : Uuid) (provenance : StopProvenance)
  | scoped (binding : StartBinding)
  | claim (binding : SourceBinding)
  deriving DecidableEq

inductive StagingSource
  | supervisor | supervisorOutput | stoppedSupervisorCollector
  deriving DecidableEq

/-- The `actor` column of an event. -/
inductive EventActor
  | service (authorizedBy : Option String)
  | submitter (source : AuthSource) (userId : String)
  | staged (source : StagingSource) (userId : String) (tokenId : Option String)
      (incarnationId : Uuid) (acceptedBy : Option String)
  | recoveryOperator (userId principalKey : String)
  | sourceService
  | attemptSupervisor (incarnationId : Uuid) (tokenId : Option String)
  | user (userId : String)
  deriving DecidableEq

/-- `actor.service === 'dispatch'`. -/
def EventActor.isService : EventActor → Bool
  | .service _ => true
  | _ => false

structure SourceRef where
  key : String
  artifactId : Uuid
  sha256 : Sha256
  byteSize : Nat
  deriving DecidableEq

/-- The payload of an accepted stop. -/
structure StopAcceptance where
  kind : StopKind
  artifactId : Option Uuid
  sha256 : Option Sha256
  binding : StopBinding
  observedAt : Timestamp
  deriving DecidableEq

/-- `type` and `payload` of an event. -/
inductive EventBody
  | submitted (inputHash : Sha256)
  | waitingReason (reason : String)
  | sourceRetry (attempt : Nat) (reason : String) (nextAttemptAt : Timestamp)
  | sourcesPrepared (sources : List SourceRef)
  | reserved (candidateId profileRevisionId slotId : Uuid) (route : Route) (jobId : Option Uuid)
  | poolCooldown (profileRevisionId : Uuid) (route : Route) (eligibleAfter : Timestamp)
      (candidateId : Uuid)
  | claimed (candidateId attemptId incarnationId slotId : Uuid)
  | retryConsumed (authorizationEventId attemptId : Uuid)
  | startedScope (attemptId : Uuid) (scope : RuntimeScope)
  | leaseExpired (attemptId : Uuid)
  | stopRequired (attemptId : Uuid) (reason : String)
  | resumeSameAttempt (attemptId : Uuid) (scopeId : String)
  | artifactStaged (artifactId : Uuid) (key : String) (sha256 : Sha256) (byteSize : Nat)
      (binding : StagedBinding)
  | sourceDelivered (attemptId : Uuid) (key : String) (artifactId : Uuid) (sha256 : Sha256)
  | stopAccepted (acceptance : StopAcceptance)
  | cancelRequested
  | cancelAction (key : OperationKey) (hash : CancelDigest)
  | cancelUnclaimed (resultId : Uuid)
  | cancelRecoveredUnstarted (resultId : Uuid)
  | rejectUnstarted (reason : String) (resultId : Uuid)
  | resultAccepted (resultId : Uuid) (submittedHash : ResultHash)
  | lateResult (submittedHash : ResultHash) (result : DispatchResult)
  | retryAuthorized (oldAttemptId : Uuid) (inputHash : Sha256) (generation : Nat)
      (stopReceiptId : Uuid)
  | recoveryAction (key : OperationKey) (hash : RecoveryDigest)
  | taskVerified (artifactId : Uuid) (allowed : Bool)
  | publicationPrepared (operationId artifactId baseArtifactId : Uuid) (repoUrl : String)
      (baseBranch : String) (checks : List String)
  | publicationResolved (key : OperationKey) (operationId artifactId : Uuid) (sha256 : Sha256)
  deriving DecidableEq

structure EventRow where
  id : Uuid
  attemptId : Option Uuid
  actor : EventActor
  body : EventBody
  createdAt : Timestamp
  deriving DecidableEq

/-! ## Outbox -/

/-- The arguments of `buildDispatchProjection`, which are what an outbox row
freezes. -/
structure DispatchProjection where
  requestId : Uuid
  version : Nat
  state : DispatchState
  input : DispatchInput
  rootId : Uuid
  replyId : Uuid
  route : Option Route
  reason : String
  result : Option DispatchResult
  deriving DecidableEq

structure OutboxRow where
  id : Uuid
  version : Nat
  payload : DispatchProjection
  publishedAt : Option Timestamp
  attempts : Nat
  nextAttemptAt : Timestamp
  deriving DecidableEq

/-- Everything that belongs to one request. -/
structure RequestRows where
  request : RequestRow
  candidates : List CandidateRow
  reservations : List ReservationRow
  attempts : List AttemptRow
  jobs : List JobRow
  events : List EventRow
  results : List ResultRow
  artifacts : List ArtifactRow
  publications : List PublicationRow
  outbox : List OutboxRow
  deriving DecidableEq

/-! ## The registry of executors -/

inductive Tier
  | high | medium | low
  deriving DecidableEq

/-- `ManagedSlotConfig`. -/
structure ManagedSlotConfig where
  runtime : Runtime
  productIds : List String
  capabilities : List String
  tier : Option Tier
  workerInstanceId : Option String
  deriving DecidableEq

/-- `IncarnationScope`: the slot configuration frozen at registration. -/
structure IncarnationScope extends ManagedSlotConfig where
  profileRevisionIds : List Uuid
  imageDigest : String
  profileSha256 : String
  supervisorTokenId : String
  deriving DecidableEq

structure SlotRow where
  id : Uuid
  capacityKey : String
  ownerUserId : String
  tokenId : String
  kind : Route
  config : ManagedSlotConfig
  enabled : Bool
  deriving DecidableEq

structure IncarnationRow where
  id : Uuid
  slotId : Uuid
  bootId : String
  credentialHash : CredentialHash
  lastSeenAt : Timestamp
  signedOffAt : Option Timestamp
  busy : Bool
  runtimeScope : IncarnationScope
  deriving DecidableEq

structure ProfileConfig where
  protocol : String
  productIds : List String
  actions : List DispatchAction
  runtime : Runtime
  access : Access
  publishModes : List PublishMode
  environmentKeys : List String
  repositoryProductIds : List String
  imageDigest : String
  maxDurationSeconds : Nat
  deriving DecidableEq

structure ProfileRow where
  id : Uuid
  key : String
  revision : Nat
  productId : String
  ownerUserId : String
  config : ProfileConfig
  sha256 : String
  revokedAt : Option Timestamp
  deriving DecidableEq

structure SlotProfileRow where
  slotId : Uuid
  profileRevisionId : Uuid
  deriving DecidableEq

/-- The answer an administrative operation recorded under its key. -/
inductive OperationResponse
  | session (incarnationId slotId : Uuid) (tokenId : String) (keyVersion : Nat)
  | slot (id : Uuid)
  | profile (id : Uuid)
  deriving DecidableEq

inductive OperationInput
  | register (slotId : Uuid) (bootId : String) (runtime : Runtime)
      (imageDigest profileSha256 : String)
  | slot (tokenId productId : String) (kind : Route) (capacityKey : String)
      (profileRevisionIds : List Uuid)
  | disableSlot (id : Uuid) (expectedVersion : Nat)
  | revokeProfile (id : Uuid) (reason : String)
  | profile (key productId : String) (config : ProfileConfig)
  deriving DecidableEq

/-- An event outside any request, unique by its operation key. -/
structure OperationRow where
  operationKey : OperationKey
  input : OperationInput
  response : OperationResponse
  deriving DecidableEq

structure Registry where
  slots : List SlotRow
  slotProfiles : List SlotProfileRow
  incarnations : List IncarnationRow
  profiles : List ProfileRow
  operations : List OperationRow
  deriving DecidableEq

end Dispatch
end Scrum4Me
