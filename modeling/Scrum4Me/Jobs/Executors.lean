import Scrum4Me.Dispatch.Eligibility
import Scrum4Me.Foundation.Batches
import Scrum4Me.Foundation.Table
import Scrum4Me.Jobs.ClaimFilter
import Mathlib.Algebra.Order.Field.Rat

/-!
# Selecting executors

`eligibleExecutors` over the slots as the query returns them: with or without an
incarnation, with whatever it and the worker last reported.
-/

namespace Scrum4Me
namespace Jobs

open Foundation

/-- Milliseconds of a `Date`. -/
abbrev Milliseconds := Int

/-- `ManagedSlotConfig`, as far as selection reads it. -/
structure SlotConfig where
  runtime : AgentRuntime
  productIds : List String
  capabilities : List String
  tier : Option Tier

/-- `RegisteredSlot`. -/
structure RegisteredSlot where
  id : Uuid
  kind : Dispatch.Route
  ownerUserId : String
  enabled : Bool
  config : SlotConfig
  profileRevisionIds : List Uuid
  incarnationId : Option Uuid
  incarnationProfileIds : List Uuid
  lastSeenAt : Option Milliseconds
  signedOffAt : Option Milliseconds
  busy : Bool
  workerSeenAt : Option Milliseconds
  liveJob : Bool
  openReservation : Bool
  ordinaryRequestClaim : Bool
  quotaPct : Option Int
  minQuotaPct : Int
  lastReservedAt : Option Milliseconds
  currentProductIds : List String
  currentCapabilities : List String
  currentRuntime : Option String

/-- `EligiblePool`. -/
structure EligiblePool where
  route : Dispatch.Route
  profileRevisionId : Uuid
  slotIds : List Uuid
  loadRatio : ℚ
  lastReservedAt : Milliseconds

def agentRuntime : Dispatch.Runtime → AgentRuntime
  | .claude => .claude
  | .codex => .codex

/-- `requestJob`. -/
def requestJob (input : Dispatch.DispatchInput) (userId : String) (runtime : Dispatch.Runtime)
    (profileRevisionId requestId : Uuid) : ClaimJob where
  userId := userId
  productId := input.productId
  runtime := agentRuntime runtime
  status := .queued
  kind :=
    match input.action with
    | .review => .queueReview
    | .taskImplementation => .taskImplementation
    | .freeTask => .queueTask
  source := .copilot
  requiredCapability :=
    if input.action = .review then
      some "review"
    else if input.access = .repoWrite then
      some "code_edit"
    else
      none
  dispatchRequestId := some requestId
  profileRevisionId := some profileRevisionId
  sprintRunId := none
  sprintStatus := none
  earlierSibling := false
  taskId := input.taskId
  ideaId := none

namespace RegisteredSlot

variable (s : RegisteredSlot)

/-- The executor as its incarnation froze it, as far as it is current. -/
def frozen : ClaimExecutor where
  userId := s.ownerUserId
  productIds := s.config.productIds.filter fun id => s.currentProductIds.contains id
  runtime := s.config.runtime.text
  capabilities := s.config.capabilities
  managed := true
  incarnationId := s.incarnationId
  profileRevisionIds := s.incarnationProfileIds
  quotaPct := s.quotaPct
  minQuotaPct := s.minQuotaPct

/-- The executor as its worker reports it now. -/
def current : ClaimExecutor where
  userId := s.ownerUserId
  productIds := s.currentProductIds
  runtime := s.currentRuntime.getD ""
  capabilities := s.currentCapabilities
  managed := true
  incarnationId := s.incarnationId
  profileRevisionIds := s.incarnationProfileIds
  quotaPct := s.quotaPct
  minQuotaPct := s.minQuotaPct

/-- Seen less than so many milliseconds ago. -/
def seenWithin (seen : Option Milliseconds) (now limit : Milliseconds) : Bool :=
  seen.any fun moment => now - moment < limit

/-- The filter of `suitable`. -/
def suits (route : Dispatch.Route) (profileId : Uuid) (job : ClaimJob)
    (now : Milliseconds) : Bool :=
  decide (s.kind = route) && s.enabled && s.incarnationId.isSome && s.signedOffAt.isNone &&
    s.profileRevisionIds.contains profileId && s.incarnationProfileIds.contains profileId &&
    seenWithin s.lastSeenAt now (if route = .job then 30000 else 45000) &&
    (decide (route ≠ .job) || seenWithin s.workerSeenAt now 30000) &&
    decide (s.currentRuntime = some s.config.runtime.text) &&
    (evaluateClaimPredicates job s.frozen).isEmpty &&
    (evaluateClaimPredicates job s.current).isEmpty

/-- The filter of `free`. -/
def free : Bool :=
  !s.busy && !s.openReservation && !s.liveJob && !s.ordinaryRequestClaim

/-- What `free.sort` compares: the tier, highest first, and the id. -/
def rank : Nat ×ₗ Uuid :=
  toLex (3 - Dispatch.tierPriority s.config.tier, s.id)

end RegisteredSlot

/-- `[...new Map(slots.map(s => [s.id, s])).values()]`: a later slot takes the place of
an earlier one with its id. -/
def byId (slots : List RegisteredSlot) : List RegisteredSlot :=
  slots.foldl (fun kept s =>
    if kept.any fun other => other.id == s.id then
      updateWhere (fun other => other.id == s.id) (fun _ => s) kept
    else
      kept ++ [s]) []

/-- The slots that could take the job over this route. -/
def suitableSlots (request : Dispatch.RequestRow) (slots : List RegisteredSlot) (now : Milliseconds)
    (profile : Dispatch.ProfileRow)
    (route : Dispatch.Route) : List RegisteredSlot :=
  let job := requestJob request.input request.userId profile.config.runtime profile.id
    request.id
  byId (slots.filter fun s => s.suits route profile.id job now)

def eligiblePool? (request : Dispatch.RequestRow) (slots : List RegisteredSlot) (now : Milliseconds)
    (profile : Dispatch.ProfileRow)
    (route : Dispatch.Route) : Option EligiblePool :=
  let suitable := suitableSlots request slots now profile route
  let free := suitable.filter RegisteredSlot.free
  if free.isEmpty then
    none
  else
    some
      { route := route
        profileRevisionId := profile.id
        slotIds := (oldestFirst RegisteredSlot.rank free).map RegisteredSlot.id
        loadRatio := ((suitable.length : ℚ) - free.length) / suitable.length
        lastReservedAt :=
          (suitable.map fun s => s.lastReservedAt.getD 0).foldl max 0 }

/-- What `pools.sort` compares: job pools first, the load, the last reservation, the
profile and the first slot. -/
def EligiblePool.rank (pool : EligiblePool) :
    Nat ×ₗ ℚ ×ₗ Milliseconds ×ₗ Uuid ×ₗ Uuid :=
  toLex (if pool.route = .host then 1 else 0,
    toLex (pool.loadRatio,
      toLex (pool.lastReservedAt,
        toLex (pool.profileRevisionId, pool.slotIds.headD 0))))

def eligibleExecutors (request : Dispatch.RequestRow) (profiles : List Dispatch.ProfileRow)
    (slots : List RegisteredSlot)
    (now : Milliseconds) : List EligiblePool :=
  oldestFirst EligiblePool.rank
    ((profiles.filter fun profile => profile.Admits request).flatMap fun profile =>
      [Dispatch.Route.job, .host].filterMap (eligiblePool? request slots now profile))

end Jobs
end Scrum4Me
