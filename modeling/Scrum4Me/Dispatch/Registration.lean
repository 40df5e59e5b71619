import Scrum4Me.Dispatch.Publication

/-!
# Registration and administration

The transactions on slots, incarnations and profiles. None of them touches a
row of a request: signing an incarnation off, disabling its slot or revoking its
profile is not stop evidence.
-/

namespace Scrum4Me
namespace Dispatch

open Foundation

/-- `productInput`. -/
def productInput (productId : String) : DispatchInput :=
  { productId := productId
    action := .freeTask
    taskId := none
    access := .read
    runtime := none
    environmentKeys := []
    repository := none
    reviewDocuments := []
    publish := .artifact
    replyTo := "mac:jp" }

/-- Ask for one right on each of several products. -/
def authorizeProducts (env : Env) (actor : Actor)
    (operation : Operation) : List String → Except Failure Unit
  | [] => .ok ()
  | productId :: rest => do
      answered (env.authorizeDispatch actor (productInput productId) operation)
      authorizeProducts env actor operation rest

/-- The response recorded under an operation key. -/
def Registry.operation? (registry : Registry) (key : OperationKey) :
    Option OperationRow :=
  registry.operations.find? fun operation => operation.operationKey = key

/-- `withDispatchOperation`: a key answers once, and repeats its answer. -/
def withDispatchOperation
    (registry : Registry) (key : OperationKey) (input : OperationInput)
    (mutate : Except Failure (Registry × OperationResponse)) :
    Except Failure (Registry × OperationResponse) := do
  ensure (keyValid key.actionId = true) invalidInput
  match registry.operation? key with
  | some old =>
      ensure (old.input = input) idempotencyConflict
      return (registry, old.response)
  | none =>
      let mutated ← mutate
      return ({ mutated.1 with
          operations := mutated.1.operations ++
            [{ operationKey := key, input := input, response := mutated.2 }] },
        mutated.2)

/-- `slotAuthorization`: an enabled slot of the actor's own token, and the
profiles it may still run. -/
def slotAuthorization (env : Env) (registry : Registry) (actor : Actor)
    (slotId : Uuid) : Except Failure (SlotRow × List ProfileRow) := do
  answered (env.refreshActor actor)
  let slot ← require (registry.slot? slotId) forbidden
  ensure
    (actor.source = .bearer ∧ slot.enabled = true ∧
      slot.ownerUserId = actor.userId ∧ actor.tokenId = some slot.tokenId)
    forbidden
  let allowed := registry.profiles.filter fun profile =>
    decide (registry.Bound slotId profile.id ∧ profile.revokedAt = none)
  ensure (allowed ≠ []) forbidden
  authorizeProducts env actor .claim slot.config.productIds
  return (slot, allowed)

/-- `UPDATE queue_dispatch_incarnations SET signed_off_at=now()`. -/
def Registry.signOff (env : Env) (registry : Registry) (slotId : Uuid) :
    Registry :=
  { registry with
    incarnations :=
      updateWhere
        (fun row => row.slotId = slotId ∧ row.signedOffAt = none)
        (fun row => { row with signedOffAt := some env.now })
        registry.incarnations }

structure RegisterInput where
  slotId : Uuid
  bootId : String
  runtime : Runtime
  imageDigest : String
  profileSha256 : String
  registrationKey : String
  deriving DecidableEq

/-- `registerDispatchExecutor`: a fresh incarnation signs off the older ones. -/
def registerDispatchExecutor (env : Env) (registry : Registry) (actor : Actor)
    (input : RegisterInput) : Except Failure (Registry × OperationResponse) := do
  let authorized ← slotAuthorization env registry actor input.slotId
  let slot := authorized.1
  let matched := authorized.2.filter fun profile =>
    decide (profile.config.runtime = input.runtime ∧
      profile.sha256 = input.profileSha256 ∧
      profile.config.imageDigest = input.imageDigest)
  ensure (slot.config.runtime = input.runtime ∧ matched ≠ []) forbidden
  ensure
    (slot.kind = .job →
      ∃ worker ∈ env.worker slot, worker.runtime = slot.config.runtime)
    forbidden
  let key : OperationKey :=
    { principalKey := actor.principalKey
      purpose := .register
      actionId := input.registrationKey }
  withDispatchOperation registry key
    (.register input.slotId input.bootId input.runtime input.imageDigest
      input.profileSha256) do
    let id := env.uuid .incarnation registry.incarnations.length
    let signedOff := registry.signOff env slot.id
    return ({ signedOff with
        incarnations := signedOff.incarnations ++
          [{ id := id
             slotId := slot.id
             bootId := input.bootId
             credentialHash :=
               credentialHash (.session id slot.id slot.tokenId env.keyVersion)
             lastSeenAt := env.now
             signedOffAt := none
             busy := false
             runtimeScope :=
               { slot.config with
                 profileRevisionIds := matched.map ProfileRow.id
                 imageDigest := input.imageDigest
                 profileSha256 := input.profileSha256
                 supervisorTokenId := slot.tokenId } }] },
      .session id slot.id slot.tokenId env.keyVersion)

/-- `heartbeatExecutor`: whether the incarnation is still open. -/
def heartbeatExecutor
    (env : Env) (registry : Registry) (actor : Actor) (incarnationId : Uuid)
    (sessionCredential : Credential)
    (busy : Bool) : Except Failure (Registry × Bool) := do
  let row ← require (registry.incarnation? incarnationId) forbidden
  let _ ← slotAuthorization env registry actor row.slotId
  let _ ← authenticateExecutorSession env registry actor incarnationId
    sessionCredential
  return ({ registry with
      incarnations :=
        updateWhere
          (fun row => row.id = incarnationId ∧ row.signedOffAt = none)
          (fun row => { row with lastSeenAt := env.now, busy := busy })
          registry.incarnations },
    decide (row.signedOffAt = none))

structure SlotInput where
  actionId : String
  ownerUserId : String
  tokenId : String
  productId : String
  kind : Route
  capacityKey : String
  profileRevisionIds : List Uuid
  deriving DecidableEq

/-- The configuration of a new slot, from its profiles and its worker. -/
def slotConfig? (env : Env) (input : SlotInput) (slot : SlotRow)
    (profiles : List ProfileRow) : Option ManagedSlotConfig :=
  match profiles with
  | [] => none
  | first :: _ =>
      let productIds :=
        (profiles.flatMap fun p => p.config.productIds).dedup
      let capabilities :=
        (profiles.flatMap fun p =>
          (if p.config.actions.contains .review then ["review"] else []) ++
            if p.config.access = .repoWrite then ["code_edit"] else []).dedup
      let base : ManagedSlotConfig :=
        { runtime := first.config.runtime
          productIds := productIds
          capabilities := capabilities
          tier := none
          workerInstanceId := none }
      match input.kind with
      | .host => some base
      | .job =>
          (env.worker slot).map fun w =>
            { base with
              productIds := productIds.filter fun id =>
                decide (w.productId = none ∨ w.productId = some id)
              capabilities := w.capabilities
              tier := w.tier
              workerInstanceId := some input.capacityKey }

/-- `createSlot`: capacity keys keep their slot across tokens and profiles. -/
def createSlot (env : Env) (registry : Registry) (actor : Actor)
    (input : SlotInput) : Except Failure (Registry × OperationResponse) := do
  answered (env.authorizeDispatch actor (productInput input.productId) .profile)
  let profiles := registry.profiles.filter fun profile =>
    input.profileRevisionIds.contains profile.id
  ensure
    (input.profileRevisionIds ≠ [] ∧
      (∀ id ∈ input.profileRevisionIds, ∃ p ∈ profiles, p.id = id) ∧
      (∀ p ∈ profiles, p.revokedAt = none) ∧
      ∀ p ∈ profiles, ∀ other ∈ profiles,
        p.config.runtime = other.config.runtime)
    forbidden
  authorizeProducts env actor .profile (profiles.map ProfileRow.productId)
  let target := actorForToken input.ownerUserId input.tokenId
  answered (env.refreshActor target)
  let key : OperationKey :=
    { principalKey := actor.principalKey
      purpose := .slot
      actionId := input.actionId }
  withDispatchOperation registry key
    (.slot input.tokenId input.productId input.kind input.capacityKey
      input.profileRevisionIds) do
    let existing := registry.slots.find? fun slot =>
      slot.capacityKey = input.capacityKey
    let id := (existing.map SlotRow.id).getD
      (env.uuid .slot registry.slots.length)
    let draft : SlotRow :=
      { id := id
        capacityKey := input.capacityKey
        ownerUserId := input.ownerUserId
        tokenId := input.tokenId
        kind := input.kind
        config :=
          { runtime := .codex
            productIds := []
            capabilities := []
            tier := none
            workerInstanceId := none }
        enabled := true }
    let config ← require (slotConfig? env input draft profiles) forbidden
    authorizeProducts env target .claim config.productIds
    ensure (input.productId ∈ config.productIds) forbidden
    ensure (∀ slot ∈ existing, slot.ownerUserId = input.ownerUserId) conflict
    let slots :=
      match existing with
      | some _ =>
          updateWhere (fun row => row.id = id)
            (fun row => { row with tokenId := input.tokenId, config := config })
            registry.slots
      | none => registry.slots ++ [{ draft with config := config }]
    let added := (profiles.map fun p =>
      (⟨id, p.id⟩ : SlotProfileRow)).filter fun row =>
        !registry.slotProfiles.contains row
    return ({ registry with
        slots := slots
        slotProfiles := registry.slotProfiles ++ added },
      .slot id)

/-- `disableSlot`: no new claims; open reservations stay open. -/
def disableSlot
    (env : Env) (registry : Registry) (actor : Actor) (id : Uuid) (actionId : String)
    (expectedVersion : Nat) : Except Failure (Registry × OperationResponse) :=
  withDispatchOperation registry
    { principalKey := actor.principalKey
      purpose := .disableSlot
      actionId := actionId }
    (.disableSlot id expectedVersion) do
    let slot ← require (registry.slot? id) notFound
    authorizeProducts env actor .profile slot.config.productIds
    ensure (slot.config.productIds ≠ []) forbidden
    ensure ((if slot.enabled then 1 else 2) = expectedVersion) conflict
    return ({ registry with
        slots :=
          updateWhere (fun row => row.id = id)
            (fun row => { row with enabled := false }) registry.slots },
      .slot id)

/-- `createProfile`: the next revision of an owned key. -/
def createProfile (env : Env) (registry : Registry) (actor : Actor)
    (key productId actionId sha256 : String)
    (config : ProfileConfig) : Except Failure (Registry × OperationResponse) := do
  ensure (keyValid key = true ∧ productId ∈ config.productIds) invalidInput
  withDispatchOperation registry
    { principalKey := actor.principalKey
      purpose := .profile
      actionId := actionId }
    (.profile key productId config) do
    authorizeProducts env actor .profile
      (productId :: config.productIds ++ config.repositoryProductIds)
    let siblings := registry.profiles.filter fun p => p.key = key
    ensure
      (∀ p ∈ siblings, p.productId = productId ∧ p.ownerUserId = actor.userId)
      conflict
    let id := env.uuid .profile registry.profiles.length
    return ({ registry with
        profiles := registry.profiles ++
          [{ id := id
             key := key
             revision := ((siblings.map ProfileRow.revision).max?).getD 0 + 1
             productId := productId
             ownerUserId := actor.userId
             config := config
             sha256 := sha256
             revokedAt := none }] },
      .profile id)

/-- `revokeProfile`: a one-way marker. -/
def revokeProfile (env : Env) (registry : Registry) (actor : Actor) (id : Uuid)
    (actionId reason : String) : Except Failure (Registry × OperationResponse) := do
  ensure (reason ≠ "" ∧ reason.toList.length ≤ 4000) invalidInput
  withDispatchOperation registry
    { principalKey := actor.principalKey
      purpose := .revokeProfile
      actionId := actionId }
    (.revokeProfile id reason) do
    let row ← require (registry.profile? id) notFound
    authorizeProducts env actor .profile
      (row.productId :: row.config.productIds ++
        row.config.repositoryProductIds)
    return ({ registry with
        profiles :=
          updateWhere (fun profile => profile.id = id)
            (fun profile =>
              { profile with
                revokedAt := profile.revokedAt <|> some env.now })
            registry.profiles },
      .profile id)

end Dispatch
end Scrum4Me
