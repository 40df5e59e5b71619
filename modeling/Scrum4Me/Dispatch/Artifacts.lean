import Scrum4Me.Dispatch.Outbox
import Mathlib.Algebra.GroupWithZero.Nat

/-!
# Locked attempts and staged artifacts

`lockArtifactAttempt` takes the locks of an attempt's whole chain and returns a
snapshot of it; `insertArtifact` stages immutable bytes with their provenance.
-/

namespace Scrum4Me
namespace Dispatch

open Foundation

namespace Registry

variable (registry : Registry)

def slot? (id : Uuid) : Option SlotRow :=
  registry.slots.find? fun slot => slot.id = id

def incarnation? (id : Uuid) : Option IncarnationRow :=
  registry.incarnations.find? fun incarnation => incarnation.id = id

def profile? (id : Uuid) : Option ProfileRow :=
  registry.profiles.find? fun profile => profile.id = id

/-- `queue_dispatch_slot_profiles` holds the pair. -/
def Bound (slotId profileRevisionId : Uuid) : Prop :=
  (⟨slotId, profileRevisionId⟩ : SlotProfileRow) ∈ registry.slotProfiles

instance (slotId profileRevisionId : Uuid) :
    Decidable (registry.Bound slotId profileRevisionId) :=
  inferInstanceAs (Decidable (_ ∈ _))

end Registry

/-- `ArtifactAttempt`: the rows of an attempt as they were when locked. -/
structure ArtifactAttempt where
  r : RequestRow
  c : CandidateRow
  s : SlotRow
  a : AttemptRow
  i : IncarnationRow
  p : ProfileRow

/-- The frozen runtime scope of the incarnation. -/
def ArtifactAttempt.scope (x : ArtifactAttempt) : IncarnationScope :=
  x.i.runtimeScope

/-- `requestActor`. -/
def requestActor (r : RequestRow) : Actor :=
  { userId := r.userId
    principalKey := r.principalKey
    tokenId := r.authSource.tokenId
    source := r.authSource.source }

/-- `actorForToken`; its principal key is derived from the two others. -/
def actorForToken (userId tokenId : String) : Actor :=
  { userId := userId
    principalKey := "bearer:" ++ userId ++ ":" ++ tokenId
    tokenId := some tokenId
    source := .bearer }

/-- The hierarchy lock that every lifecycle lock of a task takes first. -/
def lockHierarchyOf (env : Env) (input : DispatchInput) :
    Except Failure Unit :=
  if input.action = .taskImplementation then
    answered (env.lockManagedTaskHierarchy input.taskId)
  else
    .ok ()

def lockArtifactAttempt (env : Env) (registry : Registry) (rows : RequestRows)
    (attemptId : Uuid) : Except Failure ArtifactAttempt := do
  let a ← require (rows.attempt? attemptId) forbidden
  let c ← require (rows.candidate? a.candidateId) forbidden
  lockHierarchyOf env rows.request.input
  let s ← require (registry.slot? c.reservedSlotId) forbidden
  let i ← require (registry.incarnation? a.incarnationId) forbidden
  let p ← require (registry.profile? c.profileRevisionId) forbidden
  ensure (i.slotId = s.id ∧ c.incarnationId = some a.incarnationId) forbidden
  return { r := rows.request, c := c, s := s, a := a, i := i, p := p }

/-- The bearer that the supervisor of this attempt must present. -/
def ArtifactAttempt.SupervisedBy (x : ArtifactAttempt) (actor : Actor) : Prop :=
  actor.source = .bearer ∧ actor.userId = x.s.ownerUserId ∧
    actor.tokenId = some x.scope.supervisorTokenId ∧
    actor.tokenId = some x.s.tokenId

instance (x : ArtifactAttempt) (actor : Actor) :
    Decidable (x.SupervisedBy actor) :=
  inferInstanceAs (Decidable (_ ∧ _))

def verifyArtifactProof (actor : Actor) (proof : AttemptProof)
    (x : ArtifactAttempt) : Except Failure Unit :=
  ensure
    (proof.requestId = x.r.id ∧ proof.candidateId = x.c.id ∧
      proof.generation = x.c.generation ∧ proof.attemptId = x.a.id ∧
      proof.incarnationId = x.i.id ∧ x.SupervisedBy actor ∧
      credentialMatches proof.credential x.a.credentialHash = true)
    forbidden

def authorizeArtifactAttempt (env : Env) (registry : Registry)
    (x : ArtifactAttempt) : Except Failure Unit := do
  let input := x.r.input
  let profile := x.p.config
  ensure
    (x.r.generation = x.c.generation ∧
      (x.r.state = .claimed ∨ x.r.state = .running) ∧
      (x.c.state = .claimed ∨ x.c.state = .running) ∧
      (x.a.state = .claimed ∨ x.a.state = .running) ∧
      x.a.revokedAt = none ∧ x.i.signedOffAt = none ∧ x.s.enabled = true ∧
      x.p.revokedAt = none ∧
      (∃ heartbeat ∈ x.a.heartbeatAt, env.clock - heartbeat < 120000) ∧
      (∀ started ∈ x.a.startedAt,
        env.clock - started < profile.maxDurationSeconds * 1000) ∧
      x.p.sha256 = x.scope.profileSha256 ∧
      profile.imageDigest = x.scope.imageDigest ∧
      x.scope.supervisorTokenId = x.s.tokenId ∧
      x.c.profileRevisionId ∈ x.scope.profileRevisionIds)
    forbidden
  ensure
    (input.action ∈ profile.actions ∧ input.productId ∈ profile.productIds ∧
      profile.access = input.access ∧ input.publish ∈ profile.publishModes ∧
      (∀ key ∈ input.environmentKeys, key ∈ profile.environmentKeys) ∧
      (∀ repo ∈ input.repository,
        repo.productId ∈ profile.repositoryProductIds) ∧
      (∀ ref ∈ input.reviewDocuments, ref.productId ∈ profile.productIds ∧
        (ref.source = .git → ref.productId ∈ profile.repositoryProductIds)))
    forbidden
  ensure (registry.Bound x.s.id x.c.profileRevisionId) forbidden
  answered (env.authorizeDispatch (requestActor x.r) input .claim)
  answered (env.authorizeDispatch
    (actorForToken x.s.ownerUserId x.s.tokenId) input .claim)

/-! ## Historical bindings -/

/-- `validateHistoricalBinding`. -/
def validateHistoricalBinding (rows : RequestRows) (x : ArtifactAttempt)
    (b : StartBinding) : Except Failure Unit := do
  let started := rows.scopesOf x.a.id
  let accepted := rows.stopsOf x.a.id
  ensure
    (b.requestId = x.r.id ∧ b.candidateId = x.c.id ∧
      b.generation = x.c.generation ∧ b.attemptId = x.a.id ∧
      b.incarnationId = x.i.id ∧ b.scope.bootId = x.i.bootId ∧
      b.scope.imageDigest = x.scope.imageDigest ∧
      b.scope.profileSha256 = x.scope.profileSha256)
    conflict
  ensure
    (∀ scopeId ∈ x.a.scopeId,
      scopeId = b.scope.scopeId ∧ started = [b.scope])
    conflict
  ensure
    (x.a.scopeId = none → x.a.startedAt = none ∧ started = [])
    conflict
  ensure
    (accepted = [] ∨
      accepted.map (fun stop => stop.acceptance.binding) = [.scoped b])
    conflict

/-! ## Artifacts -/

def supervisorStopKey : String := "__supervisor_stop"
def operatorRecoveryKey : String := "__operator_recovery"
def claimBoundStopKey : String := "__claim_bound_stop"
def publicationResolutionKey : String := "__publication_resolution"
def repositorySourceKey : String := "__repository_base"
def dispatchInputSourceKey : String := "__dispatch_input"

/-- The keys that share the control reserve of an attempt. -/
def controlKeys : List String :=
  [supervisorStopKey, operatorRecoveryKey, claimBoundStopKey,
    publicationResolutionKey]

/-- What `insertArtifact` is asked to store. -/
structure ArtifactInput where
  attemptId : Option Uuid
  key : String
  bytes : Document
  sha256 : Sha256
  actor : EventActor
  binding : StagedBinding

/-- The bytes stored under an attempt (or the request) that meet a condition. -/
def RequestRows.storedBytes (rows : RequestRows) (attemptId : Option Uuid)
    (counted : String → Bool) : Nat :=
  ((rows.artifacts.filter fun artifact =>
    artifact.attemptId = attemptId ∧ counted artifact.key).map
      ArtifactRow.byteSize).sum

/-- The rows after storing a new artifact and its staging event. -/
def RequestRows.appendArtifact (env : Env) (rows : RequestRows)
    (input : ArtifactInput) : RequestRows :=
  let id := env.uuid .artifact rows.artifacts.length
  let size := env.byteLength input.bytes
  ({ rows with
      artifacts := rows.artifacts ++
        [{ id := id
           attemptId := input.attemptId
           key := input.key
           sha256 := input.sha256
           bytes := input.bytes
           byteSize := size }] } : RequestRows).insertEvent env
    input.attemptId input.actor
    (.artifactStaged id input.key input.sha256 size input.binding)

def insertArtifact (env : Env) (rows : RequestRows)
    (input : ArtifactInput) : Except Failure (RequestRows × Uuid) := do
  let size := env.byteLength input.bytes
  ensure (size ≤ env.artifactMaxBytes) tooLarge
  ensure (artifactHash input.bytes = input.sha256) invalidInput
  match rows.artifacts.find? fun artifact =>
      artifact.attemptId = input.attemptId ∧ artifact.key = input.key with
  | some old =>
      ensure
        (old.sha256 = input.sha256 ∧ old.byteSize = size ∧
          old.bytes = input.bytes)
        idempotencyConflict
      return (rows, old.id)
  | none =>
      ensure
        (rows.storedBytes input.attemptId (fun _ => true) + size ≤
          env.attemptMaxBytes)
        tooLarge
      let control := controlKeys.contains input.key
      ensure
        (input.attemptId = none ∨
          rows.storedBytes input.attemptId
              (fun key => controlKeys.contains key == control) + size ≤
            if control then
              env.stopEvidenceMaxBytes
            else
              env.attemptOutputMaxBytes)
        tooLarge
      return (rows.appendArtifact env input,
        env.uuid .artifact rows.artifacts.length)

/-- `storeAttemptArtifact`: an output of the running attempt. -/
def storeAttemptArtifact
    (env : Env) (registry : Registry) (rows : RequestRows) (actor : Actor)
    (proof : AttemptProof) (key : String) (bytes : Document)
    (sha256 : Sha256) : Except Failure (RequestRows × Uuid) := do
  ensure (keyValid key = true ∧ key.toList.length ≤ 64) invalidInput
  ensure (¬ ['_', '_'].isPrefixOf key.toList) forbidden
  let x ← lockArtifactAttempt env registry rows proof.attemptId
  verifyArtifactProof actor proof x
  answered (env.refreshActor actor)
  authorizeArtifactAttempt env registry x
  insertArtifact env rows
    { attemptId := some x.a.id
      key := key
      bytes := bytes
      sha256 := sha256
      actor :=
        .staged .supervisorOutput actor.userId actor.tokenId x.i.id none
      binding := .none }

/-- `stageCollectedArtifact`: an output collected after the accepted stop. -/
def stageCollectedArtifact
    (env : Env) (registry : Registry) (rows : RequestRows) (actor : Actor)
    (binding : StartBinding) (key : String) (bytes : Document)
    (sha256 : Sha256) : Except Failure (RequestRows × Uuid) := do
  ensure (key = "report" ∨ key = "checks" ∨ key = "code") forbidden
  let x ← lockArtifactAttempt env registry rows binding.attemptId
  answered (env.refreshActor actor)
  ensure (x.SupervisedBy actor) forbidden
  validateHistoricalBinding rows x binding
  ensure (x.a.stoppedAt ≠ none ∧ rows.stopsOf x.a.id ≠ []) conflict
  ensure
    (key = "code" →
      x.r.input.access = .repoWrite ∧ x.r.input.action ≠ .review)
    forbidden
  insertArtifact env rows
    { attemptId := some x.a.id
      key := key
      bytes := bytes
      sha256 := sha256
      actor :=
        .staged .stoppedSupervisorCollector actor.userId actor.tokenId x.i.id
          none
      binding := .scoped binding }

/-- `loadBoundSourceArtifact`: delivering a pinned document is recorded once. -/
def loadBoundSourceArtifact
    (env : Env) (registry : Registry) (rows : RequestRows) (actor : Actor)
    (proof : AttemptProof)
    (id : Uuid) : Except Failure (RequestRows × Document) := do
  let x ← lockArtifactAttempt env registry rows proof.attemptId
  verifyArtifactProof actor proof x
  answered (env.refreshActor actor)
  authorizeArtifactAttempt env registry x
  let row ← require
    (rows.artifacts.find? fun artifact =>
      artifact.id = id ∧ artifact.attemptId = none) notFound
  ensure
    (row.byteSize = env.byteLength row.bytes ∧
      artifactHash row.bytes = row.sha256)
    conflict
  let pinned := x.r.input.reviewDocuments.any fun ref =>
    ref.key == row.key && row.sha256 == artifactHash (.text ref.sha256)
  let delivered := rows.events.any fun event =>
    match event.body with
    | .sourceDelivered attemptId key _ _ =>
        decide (attemptId = x.a.id ∧ key = row.key)
    | _ => false
  if pinned && !delivered then
    return (rows.insertEvent env (some x.a.id)
      (.attemptSupervisor x.i.id actor.tokenId)
      (.sourceDelivered x.a.id row.key row.id row.sha256), row.bytes)
  else
    return (rows, row.bytes)

/-- `stageSupervisorStop`: the broker's observation, before it is accepted. -/
def stageSupervisorStop
    (env : Env) (registry : Registry) (rows : RequestRows) (actor : Actor)
    (body : StopObservation)
    (sha256 : Sha256) : Except Failure (RequestRows × StopEvidence) := do
  let bytes := Document.stopObservation body
  ensure (env.byteLength bytes ≤ env.stopEvidenceMaxBytes) tooLarge
  ensure (artifactHash bytes = sha256) invalidInput
  let b := body.binding
  let x ← lockArtifactAttempt env registry rows b.attemptId
  answered (env.refreshActor actor)
  ensure
    (x.SupervisedBy actor ∧ b.requestId = x.r.id ∧ b.candidateId = x.c.id ∧
      b.generation = x.c.generation ∧ b.incarnationId = x.i.id ∧
      body.slotId = x.s.id ∧ b.scope.bootId = x.i.bootId ∧
      b.scope.imageDigest = x.scope.imageDigest ∧
      b.scope.profileSha256 = x.scope.profileSha256 ∧
      body.observer = .broker x.s.id)
    forbidden
  ensure
    (∀ scopeId ∈ x.a.scopeId,
      scopeId = b.scope.scopeId ∧ rows.scopesOf x.a.id = [b.scope])
    forbidden
  let staged ← insertArtifact env rows
    { attemptId := some x.a.id
      key := supervisorStopKey
      bytes := bytes
      sha256 := sha256
      actor := .staged .supervisor actor.userId actor.tokenId x.i.id none
      binding :=
        .observed b x.s.id
          (if x.a.scopeId = none then
            .unregisteredPreparedScope
          else
            .registeredStartedScope) }
  return (staged.1,
    { kind := .containerStopped
      artifactId := staged.2
      sha256 := sha256
      attemptId := x.a.id
      incarnationId := x.i.id
      scopeId := b.scope.scopeId
      profileSha256 := b.scope.profileSha256
      observedAt := body.observedAt })

end Dispatch
end Scrum4Me
