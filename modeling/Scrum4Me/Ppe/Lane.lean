import Scrum4Me.Foundation.Execution
import Scrum4Me.Foundation.Transaction
import Scrum4Me.Queue.Messages

/-!
# The marked lane

Messages of a plan execution carry a marker and are claimed by registered consumers
under fences: the generation of the run, the generation and fence of its
orchestrator, and the generation of the consumer. Every call locks the rows of its
run first and keeps them locked, so that its transaction is one step; run,
orchestrator and consumer rows are otherwise changed by others.
-/

namespace Scrum4Me
namespace Ppe

open Foundation
open Jobs (Moment)
open Queue (MessageRow MessageType oldestFirst)

/-! ## Runs and orchestrators -/

inductive RunState
  | active
  | terminal
  | abandoned
  | other (text : String)
  deriving DecidableEq

/-- `ppe_run_registry`. -/
structure RunRow where
  runId : String
  principal : String
  state : RunState
  generation : Nat
  deriving DecidableEq

inductive OrchestratorStatus
  | current
  | other (text : String)
  deriving DecidableEq

/-- `ppe_orchestrator_lease`. -/
structure OrchestratorRow where
  runId : String
  generation : Nat
  ownerPrincipal : String
  leaseExpiresAt : Moment
  fenceSha256 : String
  status : OrchestratorStatus
  deriving DecidableEq

/-- `orchestrator:<run>`. -/
def orchestratorOf (runId : String) : String := "orchestrator:" ++ runId

/-! ## Consumers and leases -/

inductive Lane
  | claude | codex
  deriving DecidableEq

inductive ConsumerStatus
  | registerIntent
  | readyAck
  | retired
  | other (text : String)
  deriving DecidableEq

/-- `ppe_consumer`. -/
structure ConsumerRow where
  consumerId : String
  runId : String
  lane : Lane
  generation : Nat
  operationKey : String
  configSha256 : String
  attestationSha256 : String
  status : ConsumerStatus
  heartbeatAt : Option Moment := none
  deriving DecidableEq

inductive LeaseStatus
  | current
  | cancelled
  | other (text : String)
  deriving DecidableEq

/-- `ppe_claim_lease`. -/
structure LeaseRow where
  messageId : String
  runId : String
  consumerId : String
  consumerGeneration : Nat
  leaseGeneration : Nat
  tokenSha256 : String
  status : LeaseStatus
  claimedAt : Moment
  renewedAt : Option Moment := none
  finishedAt : Option Moment := none
  deriving DecidableEq

/-- A token that a claim has returned. -/
structure Grant where
  messageId : String
  leaseGeneration : Nat
  claimToken : String
  deriving DecidableEq

structure World where
  runs : List RunRow
  orchestrators : List OrchestratorRow
  consumers : List ConsumerRow
  messages : List MessageRow
  leases : List LeaseRow
  /-- All tokens ever returned. -/
  grants : List Grant
  deriving DecidableEq

/-- `parallel-plan-execution/v1`. -/
def ppeProtocol : String := "parallel-plan-execution/v1"

/-- The message belongs to the marked lane. -/
def Marked (row : MessageRow) : Prop := row.marker.protocol = some ppeProtocol

instance (row : MessageRow) : Decidable (Marked row) := inferInstanceAs (Decidable (_ = _))

/-! ## Authority -/

/-- `authoritySchema`. -/
structure Authority where
  runId : String
  runGeneration : Nat
  orchestratorGeneration : Nat
  fenceSha256 : String
  deriving DecidableEq

/-- `consumerAuthoritySchema`. -/
structure ConsumerAuthority extends Authority where
  consumerId : String
  consumerGeneration : Nat
  deriving DecidableEq

/-- The joined rows of a run and its current orchestrator. -/
structure AuthorityRow where
  run : RunRow
  orchestrator : OrchestratorRow

namespace World

variable (world : World)

/-- `ppe_run_registry JOIN ppe_orchestrator_lease ON status = 'CURRENT'`. -/
def authority? (runId : String) : Option AuthorityRow :=
  match world.runs.find? (·.runId = runId),
      world.orchestrators.find? fun lease =>
        lease.runId = runId ∧ lease.status = .current with
  | some run, some orchestrator => some { run, orchestrator }
  | _, _ => none

def consumer? (runId consumerId : String) : Option ConsumerRow :=
  world.consumers.find? fun row => row.runId = runId ∧ row.consumerId = consumerId

def message? (messageId : String) : Option MessageRow :=
  world.messages.find? (·.id = messageId)

end World

def assertRunAuthority (row : Option AuthorityRow) (input : Authority) (now : Moment) :
    Except String Unit := do
  let row ← require row "PPE_RUN_FENCE"
  ensure (row.run.state = .active ∧ row.run.generation = input.runGeneration)
    "PPE_RUN_FENCE"
  ensure (row.orchestrator.generation = input.orchestratorGeneration ∧
      row.orchestrator.ownerPrincipal = row.run.principal ∧
        row.run.principal = orchestratorOf input.runId ∧
          now < row.orchestrator.leaseExpiresAt)
    "PPE_ORCHESTRATOR_FENCE"
  ensure (row.orchestrator.fenceSha256 = input.fenceSha256) "PPE_FENCE_MISMATCH"

/-- The query joins the consumer as well: without it there is no row at all. -/
def lockConsumerAuthority (world : World) (input : ConsumerAuthority) (now : Moment) :
    Except String Unit := do
  let consumer := world.consumer? input.runId input.consumerId
  let row := consumer.bind fun _ => world.authority? input.runId
  assertRunAuthority row input.toAuthority now
  let consumer ← require consumer "PPE_CONSUMER_FENCE"
  ensure (consumer.generation = input.consumerGeneration ∧ consumer.status = .readyAck)
    "PPE_CONSUMER_FENCE"

/-! ## Registration -/

/-- `registerSchema`. -/
structure RegisterInput extends Authority where
  lane : Lane
  generation : Nat
  operationKey : String
  configSha256 : String
  attestationSha256 : String
  deriving DecidableEq

/-- `ORDER BY generation DESC LIMIT 1`. -/
def World.prior? (world : World) (runId : String) (lane : Lane) : Option ConsumerRow :=
  (newestFirst (·.generation)
    (world.consumers.filter fun row => row.runId = runId ∧ row.lane = lane)).head?

/-- The generation rule, with the error that a violation throws. -/
def checkGeneration (prior : Option ConsumerRow) (generation : Nat) :
    Except String Unit :=
  match prior with
  | none => ensure (generation = 1) "PPE_CONSUMER_GENERATION_FENCE"
  | some prior =>
      ensure (prior.generation + 1 = generation ∧ prior.status = .retired)
        (if prior.generation = 3 then "PPE_CONSUMER_GENERATION_EXHAUSTED"
          else "PPE_CONSUMER_GENERATION_FENCE")

/-- `INSERT INTO ppe_consumer` under its unique keys. -/
def insertConsumer (world : World) (row : ConsumerRow) : Except String World := do
  ensure (∀ other ∈ world.consumers, other.consumerId ≠ row.consumerId ∧
      other.operationKey ≠ row.operationKey ∧
        ¬ (other.runId = row.runId ∧ other.lane = row.lane ∧
          other.generation = row.generation))
    "unique constraint"
  return { world with consumers := world.consumers ++ [row] }

def registerMarkedConsumer
    (world : World) (input : RegisterInput) (consumerId : String) (now : Moment) :
    Except String (World × ConsumerRow) := do
  ensure (input.generation ≠ 4) "PPE_CONSUMER_GENERATION_EXHAUSTED"
  assertRunAuthority (world.authority? input.runId) input.toAuthority now
  match world.consumers.find? (·.operationKey = input.operationKey) with
  | some row =>
      ensure (row.runId = input.runId ∧ row.lane = input.lane ∧
          row.generation = input.generation ∧ row.configSha256 = input.configSha256 ∧
            row.attestationSha256 = input.attestationSha256)
        "PPE_OPERATION_KEY_REUSE"
      return (world, row)
  | none =>
      checkGeneration (world.prior? input.runId input.lane) input.generation
      let intent : ConsumerRow :=
        { consumerId := consumerId
          runId := input.runId
          lane := input.lane
          generation := input.generation
          operationKey := input.operationKey
          configSha256 := input.configSha256
          attestationSha256 := input.attestationSha256
          status := .registerIntent }
      let inserted ← insertConsumer world intent
      let ready := { intent with status := .readyAck, heartbeatAt := some now }
      let acknowledged := updateWhere
        (fun row => row.consumerId = consumerId ∧ row.status = .registerIntent)
        (fun row => { row with status := .readyAck, heartbeatAt := some now })
        inserted.consumers
      ensure (ready ∈ acknowledged) "PPE_CONSUMER_READY_CAS"
      return ({ inserted with consumers := acknowledged }, ready)

/-! ## Claiming -/

/-- `claimSchema`. -/
structure ClaimInput extends ConsumerAuthority where
  types : List MessageType
  deriving DecidableEq

/-- The message is addressed to the consumer and waits for a first claim. -/
def ClaimInput.Selects (input : ClaimInput) (row : MessageRow) : Prop :=
  Marked row ∧ row.marker.runId = some input.runId ∧
    row.marker.fromPrincipal = some (orchestratorOf input.runId) ∧
      row.marker.toPrincipal = none ∧ row.marker.toConsumerId = some input.consumerId ∧
        row.marker.consumerGeneration = some input.consumerGeneration ∧
          row.marker.operationKey ≠ none ∧ row.marker.payloadSha256 ≠ none ∧
            row.marker.leaseGeneration = none ∧ row.type ∈ input.types ∧
              row.status = .pending

instance (input : ClaimInput) (row : MessageRow) : Decidable (input.Selects row) :=
  inferInstanceAs (Decidable (_ ∧ _))

/-- `COALESCE(MAX(lease_generation), 0) + 1`. -/
def World.nextLeaseGeneration (world : World) (messageId : String) : Nat :=
  ((world.leases.filter (·.messageId = messageId)).map (·.leaseGeneration)).foldr max 0 + 1

/-- `INSERT INTO ppe_claim_lease` under its unique keys. -/
def insertLease (world : World) (row : LeaseRow) : Except String World := do
  ensure (∀ other ∈ world.leases, other.messageId = row.messageId →
      other.leaseGeneration ≠ row.leaseGeneration ∧ other.status ≠ .current)
    "unique constraint"
  return { world with leases := world.leases ++ [row] }

structure Claimed where
  message : MessageRow
  claimToken : String
  leaseGeneration : Nat
  deriving DecidableEq

section Calls

-- The digest of the standard library.
variable (sha256 : String → String)

/-- The rows that other transactions have locked are skipped. -/
def claimMarkedMessage (world : World) (input : ClaimInput) (token : String) (skipped : List String)
    (now : Moment) :
    Except String (World × Option Claimed) := do
  lockConsumerAuthority world input.toConsumerAuthority now
  let candidates := oldestFirst (world.messages.filter fun row =>
    input.Selects row ∧ row.id ∉ skipped)
  match candidates.head? with
  | none => return (world, none)
  | some message =>
      let leaseGeneration := world.nextLeaseGeneration message.id
      let inserted ← insertLease world
        { messageId := message.id
          runId := input.runId
          consumerId := input.consumerId
          consumerGeneration := input.consumerGeneration
          leaseGeneration := leaseGeneration
          tokenSha256 := sha256 token
          status := .current
          claimedAt := now }
      let guarded := fun row : MessageRow => decide (row.id = message.id ∧
        row.status = .pending ∧ row.marker.runId = some input.runId ∧
          row.marker.toConsumerId = some input.consumerId ∧
            row.marker.consumerGeneration = some input.consumerGeneration ∧
              row.marker.leaseGeneration = none)
      ensure (inserted.messages.countP guarded = 1) "PPE_CLAIM_FENCE"
      return ({ inserted with
        messages := updateWhere guarded (fun row =>
            { row with
              status := .claimed
              claimedBy := some input.consumerId
              claimedAt := some now
              marker := { row.marker with leaseGeneration := some leaseGeneration } })
          inserted.messages
        grants := inserted.grants ++ [⟨message.id, leaseGeneration, token⟩] },
        some { message, claimToken := token, leaseGeneration })

/-! ## Renewing and cancelling -/

/-- `leaseSchema`. -/
structure LeaseInput extends ConsumerAuthority where
  messageId : String
  leaseGeneration : Nat
  claimToken : String
  deriving DecidableEq

/-- The lease is current and of this generation. -/
def LeaseInput.Leases (input : LeaseInput) (row : LeaseRow) : Prop :=
  row.messageId = input.messageId ∧ row.leaseGeneration = input.leaseGeneration ∧
    row.status = .current

instance (input : LeaseInput) (row : LeaseRow) : Decidable (input.Leases row) :=
  inferInstanceAs (Decidable (_ ∧ _))

def lockMarkedLease (world : World) (input : LeaseInput) (now : Moment) :
    Except String Unit := do
  lockConsumerAuthority world input.toConsumerAuthority now
  ensure (∃ row ∈ world.messages, row.id = input.messageId ∧ row.status = .claimed ∧
      row.marker.runId = some input.runId ∧
        row.marker.toConsumerId = some input.consumerId ∧
          row.marker.consumerGeneration = some input.consumerGeneration ∧
            row.marker.leaseGeneration = some input.leaseGeneration)
    "PPE_CLAIM_FENCE"
  let stored := (world.leases.find? fun row => input.Leases row ∧
    row.runId = input.runId ∧ row.consumerId = input.consumerId ∧
      row.consumerGeneration = input.consumerGeneration).map (·.tokenSha256)
  ensure (stored = some (sha256 input.claimToken)) "PPE_CLAIM_FENCE"

def renewMarkedMessage (world : World) (input : LeaseInput) (now : Moment) :
    Except String (World × Bool) := do
  lockMarkedLease sha256 world input now
  ensure (world.leases.countP (fun row => input.Leases row) = 1) "PPE_CLAIM_FENCE"
  return ({ world with
    leases := updateWhere (fun row => input.Leases row)
      (fun row => { row with renewedAt := some now }) world.leases }, true)

/-- `cancelSchema`. -/
inductive CancelInput
  | pending (authority : ConsumerAuthority) (messageId : String)
  | claimed (lease : LeaseInput)
  deriving DecidableEq

def CancelInput.authority : CancelInput → ConsumerAuthority
  | pending authority _ => authority
  | claimed lease => lease.toConsumerAuthority

def CancelInput.messageId : CancelInput → String
  | pending _ messageId => messageId
  | claimed lease => lease.messageId

/-- `expected_status`. -/
def CancelInput.expectedStatus : CancelInput → Queue.MessageStatus
  | pending .. => .pending
  | claimed _ => .claimed

def cancelled (now : Moment) (row : MessageRow) : MessageRow :=
  { row with status := .cancelled, finishedAt := some now }

def cancelMarkedMessage (world : World) (input : CancelInput) (now : Moment) :
    Except String (World × Bool) := do
  let authority := input.authority
  lockConsumerAuthority world authority now
  let row ← require (world.messages.find? fun row => row.id = input.messageId ∧ Marked row)
    "PPE_CONSUMER_FENCE"
  ensure (row.status = input.expectedStatus ∧ row.marker.runId = some authority.runId ∧
      row.marker.toConsumerId = some authority.consumerId ∧
        row.marker.consumerGeneration = some authority.consumerGeneration)
    "PPE_CONSUMER_FENCE"
  match input with
  | .pending _ messageId =>
      ensure (row.marker.leaseGeneration = none) "PPE_CLAIM_FENCE"
      let guarded := fun row : MessageRow => decide (row.id = messageId ∧
        row.status = .pending ∧ row.marker.leaseGeneration = none)
      ensure (world.messages.countP guarded = 1) "PPE_CONSUMER_FENCE"
      return ({ world with
        messages := updateWhere guarded (cancelled now) world.messages }, true)
  | .claimed lease =>
      ensure (row.marker.leaseGeneration = some lease.leaseGeneration) "PPE_CLAIM_FENCE"
      lockMarkedLease sha256 world lease now
      let guarded := fun row : MessageRow => decide (row.id = lease.messageId ∧
        row.status = .claimed ∧
          row.marker.leaseGeneration = some lease.leaseGeneration)
      ensure (world.leases.countP (fun row => lease.Leases row) = 1 ∧
        world.messages.countP guarded = 1) "PPE_CLAIM_FENCE"
      return ({ world with
        leases := updateWhere (fun row => lease.Leases row)
          (fun row => { row with status := .cancelled, finishedAt := some now })
          world.leases
        messages := updateWhere guarded (cancelled now) world.messages }, true)

/-! ## The machine -/

/-- A call, or a change that others make: to runs and orchestrators any, to the
status of a consumer any but reviving a retired one, and new messages. -/
inductive Step
  | registerMarkedConsumer (input : RegisterInput) (consumerId : String) (now : Moment)
  | claimMarkedMessage (input : ClaimInput) (token : String) (skipped : List String) (now : Moment)
  | renewMarkedMessage (input : LeaseInput) (now : Moment)
  | cancelMarkedMessage (input : CancelInput) (now : Moment)
  | changeRuns (runs : List RunRow) (orchestrators : List OrchestratorRow)
  | changeConsumer (consumerId : String) (status : ConsumerStatus) (now : Moment)
  | push (row : MessageRow)
  deriving DecidableEq

def execute (world : World) : Step → World
  | .registerMarkedConsumer input consumerId now =>
      commit (Ppe.registerMarkedConsumer world input consumerId now) world
  | .claimMarkedMessage input token skipped now =>
      commit (Ppe.claimMarkedMessage sha256 world input token skipped now) world
  | .renewMarkedMessage input now =>
      commit (Ppe.renewMarkedMessage sha256 world input now) world
  | .cancelMarkedMessage input now =>
      commit (Ppe.cancelMarkedMessage sha256 world input now) world
  | .changeRuns runs orchestrators => { world with runs, orchestrators }
  | .changeConsumer consumerId status now =>
      { world with
        consumers := updateWhere (fun row => row.consumerId = consumerId ∧ row.status ≠ .retired)
          (fun row => { row with status := status, heartbeatAt := some now })
          world.consumers }
  | .push row =>
      if row.id ∉ world.messages.map (·.id) ∧ row.status = .pending ∧
          row.marker.leaseGeneration = none then
        { world with messages := world.messages ++ [row] }
      else world

end Calls

end Ppe
end Scrum4Me
