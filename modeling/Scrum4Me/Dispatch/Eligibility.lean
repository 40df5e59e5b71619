import Scrum4Me.Dispatch.Store
import Mathlib.Data.List.Lex
import Mathlib.Data.List.Sort

/-!
# Eligible executors

The capacity that is registered for the owner of a request, and the pools of
slots that may execute it now.
-/

namespace Scrum4Me
namespace Dispatch

/-- `tierPriority`. -/
def tierPriority : Option Tier → Nat
  | some .high => 3
  | some .medium => 2
  | some .low => 1
  | none => 0

/-- `ClaimJob`, for the jobs that managed dispatch creates. -/
structure ClaimJob where
  userId : String
  productId : String
  runtime : Runtime
  status : JobStatus
  kind : JobKind
  requiredCapability : Option String
  profileRevisionId : Uuid
  taskId : Option String
  deriving DecidableEq

/-- `ClaimExecutor`, for a managed executor. -/
structure ClaimExecutor where
  userId : String
  productIds : List String
  runtime : Runtime
  capabilities : List String
  profileRevisionIds : List Uuid
  quotaPct : Option Nat
  minQuotaPct : Nat

/-- `requestJob`. -/
def requestJob (input : DispatchInput) (userId : String) (runtime : Runtime)
    (profileRevisionId : Uuid) : ClaimJob :=
  { userId := userId
    productId := input.productId
    runtime := runtime
    status := .queued
    kind :=
      match input.action with
      | .review => .queueReview
      | .taskImplementation => .taskImplementation
      | .freeTask => .queueTask
    requiredCapability :=
      if input.action = .review then
        some "review"
      else if input.access = .repoWrite then
        some "code_edit"
      else
        none
    profileRevisionId := profileRevisionId
    taskId := input.taskId }

/-- `evaluateClaimPredicates` finds no failing predicate. An executor that is
dedicated to deployments or documentation audits takes no managed kind of job;
every managed job is a `COPILOT` job outside any sprint run. -/
def ClaimPredicates (job : ClaimJob) (executor : ClaimExecutor) : Prop :=
  job.userId = executor.userId ∧
    job.productId ∈ executor.productIds ∧
    job.runtime = executor.runtime ∧
    job.status = .queued ∧
    job.profileRevisionId ∈ executor.profileRevisionIds ∧
    (executor.capabilities ≠ ["deploy"] ∧
      executor.capabilities ≠ ["docs_audit"] ∧
      ∀ capability ∈ job.requiredCapability,
        capability ∈ executor.capabilities) ∧
    ∀ quota ∈ executor.quotaPct, executor.minQuotaPct ≤ quota

instance (job : ClaimJob) (executor : ClaimExecutor) :
    Decidable (ClaimPredicates job executor) :=
  inferInstanceAs (Decidable (_ ∧ _))

/-- `RegisteredSlot`: a slot with its open incarnation and its occupancy. -/
structure RegisteredSlot where
  id : Uuid
  kind : Route
  ownerUserId : String
  enabled : Bool
  config : ManagedSlotConfig
  profileRevisionIds : List Uuid
  incarnationId : Uuid
  incarnationProfileIds : List Uuid
  lastSeenAt : Timestamp
  busy : Bool
  workerSeenAt : Option Timestamp
  liveJob : Bool
  openReservation : Bool
  ordinaryRequestClaim : Bool
  quotaPct : Option Nat
  minQuotaPct : Nat
  lastReservedAt : Option Timestamp
  currentProductIds : List String
  currentCapabilities : List String
  currentRuntime : Option Runtime

/-- An open reservation holds the slot. -/
def Store.OpenReservation (store : Store) (slotId : Uuid) : Prop :=
  ∃ reservation ∈ store.allReservations,
    reservation.slotId = slotId ∧ reservation.releasedAt = none

instance (store : Store) (slotId : Uuid) :
    Decidable (store.OpenReservation slotId) :=
  inferInstanceAs (Decidable (∃ reservation ∈ store.allReservations, _))

/-- A dispatch job of the slot's worker is live. -/
def Store.liveJob (store : Store) (slot : SlotRow) : Bool :=
  store.allJobs.any fun job =>
    decide (job.workerInstanceId ≠ none ∧
      job.workerInstanceId = slot.config.workerInstanceId ∧
      (job.status = .claimed ∨ job.status = .running))

/-- `max(deadline - 120 s)` over the reservations of the slot. -/
def Store.lastReservedAt (store : Store) (slotId : Uuid) : Option Timestamp :=
  (store.allReservations.filterMap fun reservation =>
    if reservation.slotId = slotId then
      (store.allCandidates.find? fun candidate =>
        candidate.id = reservation.candidateId).map fun candidate =>
          candidate.deadline - 120000
    else
      none).max?

/-- The lowest tier, where all three are known. -/
def lowestTier (kind : Route) (tiers : List (Option Tier)) : Option Tier :=
  if kind = .job ∧ none ∉ tiers then
    ((tiers.insertionSort fun first second =>
      tierPriority first ≤ tierPriority second).head?).join
  else
    none

/-- The incarnation runs as the slot is configured. -/
def SlotRow.Runs (slot : SlotRow) (scope : IncarnationScope) : Prop :=
  scope.supervisorTokenId = slot.tokenId ∧
    scope.runtime = slot.config.runtime ∧
    (∀ capability ∈ scope.capabilities, capability ∈ slot.config.capabilities) ∧
    slot.config.capabilities.length = scope.capabilities.length

instance (slot : SlotRow) (scope : IncarnationScope) : Decidable (slot.Runs scope) :=
  inferInstanceAs (Decidable (_ ∧ _ ∧ _ ∧ _))

/-- The owner of the slot may claim for the requester. -/
def Env.claimAuthorized (env : Env) (request : RequestRow) (slot : SlotRow) : Bool :=
  match env.authorizeDispatch (actorForToken slot.ownerUserId slot.tokenId) request.input
      .claim with
  | .ok _ => true
  | .error _ => false

/-- One row of `loadRegisteredCapacity`. -/
def registeredSlot? (env : Env) (store : Store) (request : RequestRow)
    (slot : SlotRow) : Option RegisteredSlot :=
  match store.registry.incarnations.find? fun incarnation =>
      incarnation.slotId = slot.id ∧ incarnation.signedOffAt = none with
  | none => none
  | some incarnation =>
    if slot.Runs incarnation.runtimeScope ∧ env.claimAuthorized request slot = true then
      let scope := incarnation.runtimeScope
      let worker := env.worker slot
      let productIds := slot.config.productIds.filter fun id =>
        scope.productIds.contains id
      some
        { id := slot.id
          kind := slot.kind
          ownerUserId := slot.ownerUserId
          enabled := slot.enabled
          config :=
            { slot.config with
              tier := lowestTier slot.kind
                [slot.config.tier, scope.tier, worker.bind WorkerRow.tier]
              productIds := productIds
              capabilities := scope.capabilities }
          profileRevisionIds :=
            (store.registry.slotProfiles.filter fun row =>
              row.slotId = slot.id).map SlotProfileRow.profileRevisionId
          incarnationId := incarnation.id
          incarnationProfileIds := scope.profileRevisionIds
          lastSeenAt := incarnation.lastSeenAt
          busy := incarnation.busy
          workerSeenAt := worker.map WorkerRow.lastSeenAt
          liveJob := store.liveJob slot || env.ordinaryLiveJob slot
          openReservation := decide (store.OpenReservation slot.id)
          ordinaryRequestClaim := env.ordinaryRequestClaim slot
          quotaPct :=
            if slot.kind = .job then worker.bind WorkerRow.quotaPct else none
          minQuotaPct := env.minQuotaPct slot.ownerUserId
          lastReservedAt := store.lastReservedAt slot.id
          currentProductIds := slot.config.productIds.filter fun id =>
            decide (slot.kind = .host) ||
              match worker.bind WorkerRow.productId with
              | none => true
              | some product => product == id
          currentCapabilities :=
            if slot.kind = .job then
              (worker.map WorkerRow.capabilities).getD []
            else
              slot.config.capabilities
          currentRuntime :=
            if slot.kind = .job then
              worker.map WorkerRow.runtime
            else
              some scope.runtime }
    else
      none

/-- The profiles and slots of `loadRegisteredCapacity`. -/
structure Capacity where
  profiles : List ProfileRow
  slots : List RegisteredSlot

def loadRegisteredCapacity (env : Env) (store : Store) (request : RequestRow) : Capacity :=
  { profiles := store.registry.profiles.filter fun profile =>
      profile.config.productIds.contains request.productId
    slots :=
      ((store.registry.slots.filter fun slot =>
        slot.ownerUserId = request.userId).insertionSort fun first second =>
          first.id ≤ second.id).filterMap (registeredSlot? env store request) }

structure EligiblePool where
  route : Route
  profileRevisionId : Uuid
  slotIds : List Uuid
  /-- `loadRatio` as occupied slots of suitable slots. -/
  occupied : Nat
  suitable : Nat
  lastReservedAt : Timestamp

/-- A profile that may execute the input. -/
def ProfileRow.Admits (profile : ProfileRow) (request : RequestRow) : Prop :=
  let p := profile.config
  let input := request.input
  profile.revokedAt = none ∧ profile.ownerUserId = request.userId ∧
    p.protocol = "dispatch-v1" ∧ input.productId ∈ p.productIds ∧
    input.action ∈ p.actions ∧ (∀ runtime ∈ input.runtime, runtime = p.runtime) ∧
    (input.access = .repoWrite → p.access = .repoWrite) ∧
    input.publish ∈ p.publishModes ∧
    (∀ key ∈ input.environmentKeys, key ∈ p.environmentKeys) ∧
    (∀ repo ∈ input.repository, repo.productId ∈ p.repositoryProductIds) ∧
    ∀ ref ∈ input.reviewDocuments, ref.productId ∈ p.productIds ∧
      (ref.source = .git → ref.productId ∈ p.repositoryProductIds)

instance (profile : ProfileRow) (request : RequestRow) :
    Decidable (profile.Admits request) :=
  inferInstanceAs (Decidable (_ ∧ _))

/-- A slot that could execute the job over this route if it were free. -/
def RegisteredSlot.Suitable
    (s : RegisteredSlot) (route : Route) (profile : ProfileRow) (job : ClaimJob)
    (now : Timestamp) : Prop :=
  let executor : ClaimExecutor :=
    { userId := s.ownerUserId
      productIds := s.config.productIds.filter fun id =>
        s.currentProductIds.contains id
      runtime := s.config.runtime
      capabilities := s.config.capabilities
      profileRevisionIds := s.incarnationProfileIds
      quotaPct := s.quotaPct
      minQuotaPct := s.minQuotaPct }
  s.kind = route ∧ s.enabled = true ∧ profile.id ∈ s.profileRevisionIds ∧
    profile.id ∈ s.incarnationProfileIds ∧
    now - s.lastSeenAt < (if route = .job then 30000 else 45000) ∧
    (route = .job → ∃ seen ∈ s.workerSeenAt, now - seen < 30000) ∧
    s.currentRuntime = some s.config.runtime ∧
    ClaimPredicates job executor ∧
    ClaimPredicates job
      { executor with
        productIds := s.currentProductIds
        capabilities := s.currentCapabilities }

instance
    (s : RegisteredSlot) (route : Route) (profile : ProfileRow) (job : ClaimJob)
    (now : Timestamp) :
    Decidable (s.Suitable route profile job now) :=
  inferInstanceAs (Decidable (_ ∧ _))

/-- A slot that nothing occupies. -/
def RegisteredSlot.free (s : RegisteredSlot) : Bool :=
  !s.busy && !s.openReservation && !s.liveJob && !s.ordinaryRequestClaim

/-- Higher tiers first, then by identifier. -/
def slotRanking (first second : RegisteredSlot) : Prop :=
  tierPriority second.config.tier < tierPriority first.config.tier ∨
    tierPriority second.config.tier = tierPriority first.config.tier ∧
      first.id ≤ second.id

instance : DecidableRel slotRanking := fun _ _ =>
  inferInstanceAs (Decidable (_ ∨ _))

/-- The pool of one profile over one route, if any of its slots is free. -/
def eligiblePool? (request : RequestRow) (slots : List RegisteredSlot) (now : Timestamp)
    (profile : ProfileRow)
    (route : Route) : Option EligiblePool :=
  let job := requestJob request.input request.userId profile.config.runtime
    profile.id
  let suitable := slots.filter fun s => s.Suitable route profile job now
  let free := (suitable.filter RegisteredSlot.free).insertionSort slotRanking
  if free.isEmpty then
    none
  else
    some
      { route := route
        profileRevisionId := profile.id
        slotIds := free.map RegisteredSlot.id
        occupied := suitable.length - free.length
        suitable := suitable.length
        lastReservedAt :=
          ((suitable.filterMap RegisteredSlot.lastReservedAt).max?).getD 0 }

/-- Job pools before host pools, then by load, by last reservation, by profile
and by first slot. -/
def poolRanking (first second : EligiblePool) : Prop :=
  let load (pool other : EligiblePool) : Nat := pool.occupied * other.suitable
  let key (pool : EligiblePool) : List Nat :=
    [pool.lastReservedAt, pool.profileRevisionId, pool.slotIds.headD 0]
  first.route = .job ∧ second.route = .host ∨
    first.route = second.route ∧ (load first second < load second first ∨
        load first second = load second first ∧ key first ≤ key second)

instance : DecidableRel poolRanking := fun _ _ =>
  inferInstanceAs (Decidable (_ ∨ _))

def eligibleExecutors
    (request : RequestRow) (profiles : List ProfileRow) (slots : List RegisteredSlot)
    (now : Timestamp) : List EligiblePool :=
  ((profiles.filter fun profile => profile.Admits request).flatMap fun profile =>
      [Route.job, Route.host].filterMap
        (eligiblePool? request slots now profile)).insertionSort poolRanking

end Dispatch
end Scrum4Me
