import Scrum4Me.Foundation.Execution
import Scrum4Me.Foundation.Table
import Scrum4Me.Ppe.Mutations

/-!
# Mutations under a fence

`executePpeMutation` keeps a transaction of the controller database open around a
mutation of the product database, which commits by itself. The controller transaction
holds the advisory lock of the operation key and the row of the run, looks the key up,
and stores the receipt after the mutation. A connection can be lost and a call can end
between any two of these.
-/

namespace Scrum4Me
namespace Ppe
namespace Operations

open Foundation

/-- How far a call is. -/
inductive Stage
  /-- The controller transaction has begun. -/
  | waiting
  /-- It holds the locks and has found no receipt. -/
  | locked
  /-- The mutation is committed. -/
  | mutated (result : Json)

def Stage.isLocked : Stage → Bool
  | locked => true
  | _ => false

def Stage.isMutated : Stage → Bool
  | mutated _ => true
  | _ => false

/-- A call of `executePpeMutation`. -/
structure Call where
  id : Nat
  ppe : PpeMutationInput
  request : Request
  /-- Its connection to the controller database is open. -/
  connected : Bool
  stage : Stage

/-- A committed mutation. -/
structure Commit where
  ppe : PpeMutationInput
  request : Request
  result : Json

/-- What a call returned. -/
structure Answer where
  ppe : PpeMutationInput
  request : Request
  outcome : Except String Json

/-- The two databases, the calls, and what was ever committed and answered. -/
structure World where
  runs : List RunRow
  orchestrators : List OrchestratorRow
  receipts : List ReceiptRow
  product : Product
  calls : List Call
  commits : List Commit
  answers : List Answer

/-- The payload of a call. -/
def payloadOf (ppe : PpeMutationInput) (request : Request) : Json :=
  buildPpeOperationPayload ppe.operationKey request.operationKind request.json
    request.targetScope

/-- The receipt of a call with its result. -/
def receiptOf (ppe : PpeMutationInput) (request : Request) (result : Json) : Json :=
  operationReceipt ppe.runId ppe.operationKey ppe.payloadHash request.operationKind
    (payloadOf ppe request) result

/-- The call holds the locks of its transaction. -/
def Call.Holds (call : Call) : Prop :=
  call.connected = true ∧ (call.stage.isLocked || call.stage.isMutated) = true

instance (call : Call) : Decidable call.Holds := inferInstanceAs (Decidable (_ ∧ _))

/-- The kinds of the two mutations. -/
def operationKinds : List String := ["CEREMONY_PBI", "TASK_STATUS_CAS"]

namespace World

variable (world : World)

def call? (id : Nat) : Option Call := world.calls.find? (·.id = id)

/-- No other call holds the lock of the key or the row of the run. -/
def Free (ppe : PpeMutationInput) : Prop :=
  ∀ other ∈ world.calls, other.Holds →
    other.ppe.operationKey ≠ ppe.operationKey ∧ other.ppe.runId ≠ ppe.runId

instance (ppe : PpeMutationInput) : Decidable (world.Free ppe) :=
  inferInstanceAs (Decidable (∀ _ ∈ _, _ → _))

/-- The call ends with an answer. -/
def finished (call : Call) (outcome : Except String Json) : World :=
  { world with
    calls := world.calls.filter (·.id ≠ call.id)
    answers := world.answers ++ [⟨call.ppe, call.request, outcome⟩] }

end World

section Machine

-- The digest of the standard library.
variable (sha256 : String → String)

/-- What is checked before the connection is opened. -/
def assertPayload (ppe : PpeMutationInput) (request : Request) : Except String Unit := do
  request.precheck sha256 ppe
  let payloadHash ← sha256PpeJcs sha256 (payloadOf ppe request)
  ensure (payloadHash = ppe.payloadHash) "PPE_PAYLOAD_HASH"

/-- Under the locks: the fence, the authority, and the result of an earlier run. -/
def World.enter (world : World) (ppe : PpeMutationInput) (request : Request) :
    Except String (Option Json) := do
  assertFence world.runs world.orchestrators ppe
  assertAuthority sha256 world.receipts ppe request.authority
  let replay ← lookupReceipt sha256 world.receipts ppe.runId ppe.operationKey
  match replay with
  | none => return none
  | some replay =>
      ensure (replay.payloadSha256 = ppe.payloadHash ∧
          replay.kind = request.operationKind)
        "PPE_OPERATION_KEY_REUSE"
      return some replay.result

/-- `INSERT INTO ppe_operation_receipt` under its unique key, and the commit. -/
def World.record (world : World) (call : Call) (result : Json) :
    Except String (List ReceiptRow) := do
  let receipt := receiptOf call.ppe call.request result
  let receiptHash ← sha256PpeJcs sha256 receipt
  ensure (call.connected = true) "connection lost"
  ensure (∀ row ∈ world.receipts, ¬ row.Under call.ppe.runId call.ppe.operationKey)
    "unique constraint"
  return world.receipts ++
    [{ runId := call.ppe.runId
       operationKey := call.ppe.operationKey
       payloadSha256 := call.ppe.payloadHash
       kind := call.request.operationKind
       status := "COMMITTED"
       receiptJson := receipt
       receiptSha256 := receiptHash }]

/-- One statement of a call, or what others do. A call can end at any moment, because
its process dies or a query of it fails, and can lose its connection to the controller
without noticing. Others change runs and the product, and store receipts of other
kinds; a receipt references its run and waits for the call that holds it. -/
inductive Step
  | executePpeMutation (id : Nat) (ppe : PpeMutationInput) (request : Request)
  | lock (id : Nat)
  | mutate (id : Nat) (generated : Generated)
  | record (id : Nat) (answerLost : Bool)
  | disconnect (id : Nat)
  | fail (id : Nat)
  | changeRuns (runs : List RunRow) (orchestrators : List OrchestratorRow)
  | changeProduct (product : Product)
  | insertReceipt (row : ReceiptRow)

def execute (world : World) : Step → World
  | .executePpeMutation id ppe request =>
      if (world.call? id).isNone then
        let call : Call := { id, ppe, request, connected := true, stage := .waiting }
        match assertPayload sha256 ppe request with
        | .ok _ => { world with calls := world.calls ++ [call] }
        | .error error => world.finished call (.error error)
      else world
  | .lock id =>
      match world.call? id with
      | some call =>
          match call.stage with
          | .waiting =>
              if call.connected = true ∧ world.Free call.ppe then
                match world.enter sha256 call.ppe call.request with
                | .ok none =>
                    { world with
                      calls := updateWhere (·.id = id)
                        (fun call => { call with stage := .locked }) world.calls }
                | .ok (some result) => world.finished call (.ok result)
                | .error error => world.finished call (.error error)
              else world
          | _ => world
      | none => world
  | .mutate id generated =>
      match world.call? id with
      | some call =>
          match call.stage with
          | .locked =>
              match call.request.mutate generated world.product with
              | .ok (product, result) =>
                  { world with
                    product := product
                    calls := updateWhere (·.id = id)
                      (fun call => { call with stage := .mutated result }) world.calls
                    commits := world.commits ++ [⟨call.ppe, call.request, result⟩] }
              | .error error => world.finished call (.error error)
          | _ => world
      | none => world
  | .record id answerLost =>
      match world.call? id with
      | some call =>
          match call.stage with
          | .mutated result =>
              match world.record sha256 call result with
              | .ok receipts =>
                  World.finished { world with receipts } call
                    (if answerLost then .error "connection lost" else .ok result)
              | .error error => world.finished call (.error error)
          | _ => world
      | none => world
  | .disconnect id =>
      { world with
        calls := updateWhere (·.id = id)
          (fun call => { call with connected := false }) world.calls }
  | .fail id => { world with calls := world.calls.filter (·.id ≠ id) }
  | .changeRuns runs orchestrators => { world with runs, orchestrators }
  | .changeProduct product => { world with product }
  | .insertReceipt row =>
      if row.kind ∉ operationKinds ∧
          (∀ other ∈ world.receipts, ¬ other.Under row.runId row.operationKey) ∧
            ∀ call ∈ world.calls, call.Holds → call.ppe.runId ≠ row.runId then
        { world with receipts := world.receipts ++ [row] }
      else world

end Machine

/-- Two databases, and no call yet. -/
def World.initial
    (runs : List RunRow) (orchestrators : List OrchestratorRow) (product : Product) :
    World where
  runs := runs
  orchestrators := orchestrators
  receipts := []
  product := product
  calls := []
  commits := []
  answers := []

end Operations
end Ppe
end Scrum4Me
