import Scrum4Me.Foundation.Json
import Scrum4Me.Ppe.Lane

/-!
# Operation receipts

A mutation for a plan execution is stored with a receipt under its run and its
operation key. A receipt that is read back is checked against its row and its
digests. The same receipts carry the authority for a mutation: the reviewed plan, and
the start.
-/

namespace Scrum4Me
namespace Ppe
namespace Operations

open Foundation

/-- `ppeInputSchema`. -/
structure PpeMutationInput where
  runId : String
  orchestratorId : String
  orchestratorGeneration : Nat
  operationKey : String
  payloadHash : String
  planAuthorityOperationKey : String
  jpStartOperationKey : Option String := none
  deriving DecidableEq

/-- `PpeAuthorityRequirement`. -/
inductive AuthorityRequirement
  | ceremony | composition | execution
  deriving DecidableEq

/-- `ppe_operation_receipt`. -/
structure ReceiptRow where
  runId : String
  operationKey : String
  payloadSha256 : String
  kind : String
  status : String
  receiptJson : Json
  receiptSha256 : String

/-- What is read of a receipt, an absent result as null. -/
structure Receipt where
  payloadSha256 : String
  kind : String
  result : Json

/-- The row of a run and a key. -/
def ReceiptRow.Under (runId operationKey : String) (row : ReceiptRow) : Prop :=
  row.runId = runId ∧ row.operationKey = operationKey

instance (runId operationKey : String) (row : ReceiptRow) :
    Decidable (row.Under runId operationKey) :=
  inferInstanceAs (Decidable (_ ∧ _))

/-! ## Payloads and receipts -/

def canonicalizePpeJcs (value : Json) : Except String String := do
  ensure value.Safe "PPE_JCS_UNSUPPORTED_NUMBER"
  return value.render

def buildPpeOperationPayload
    (operationKey operationKind : String) (request : Json) (targetScope : String) :
    Json :=
  .object [("operation_key", .string operationKey),
      ("operation_kind", .string operationKind),
      ("request", request),
      ("target_scope", .string targetScope),
      ("version", .string "operation-payload-v1")]

/-- `OperationReceiptV1`, under a run, a key, a digest and a kind. -/
def operationReceipt (runId operationKey payloadSha256 kind : String) (payload result : Json) :
    Json :=
  .object [("version", .string "operation-receipt-v1"),
      ("run_id", .string runId),
      ("operation_key", .string operationKey),
      ("payload_sha256", .string payloadSha256),
      ("kind", .string kind),
      ("status", .string "COMMITTED"),
      ("payload", payload),
      ("result", result)]

section Receipts

-- The digest of the standard library.
variable (sha256 : String → String)

def sha256PpeJcs (value : Json) : Except String String :=
  sha256 <$> canonicalizePpeJcs value

def ceremonyOperationKey (runId kind objectKey : String) : String :=
  "ceremony:" ++ runId ++ ":" ++ kind ++ ":" ++ sha256 objectKey

/-- The checks stand in the order of the source, digests last. -/
def validateReceipt (row : ReceiptRow) : Except String Receipt := do
  let receipt := row.receiptJson
  ensure (receipt.isRecord = true) "PPE_OPERATION_RECEIPT_CORRUPT"
  ensure (receipt.text? "version" = some "operation-receipt-v1" ∧
      receipt.text? "run_id" = some row.runId ∧
        receipt.text? "operation_key" = some row.operationKey ∧
          receipt.text? "payload_sha256" = some row.payloadSha256 ∧
            receipt.text? "kind" = some row.kind ∧
              receipt.text? "status" = some "COMMITTED" ∧ row.status = "COMMITTED")
    "PPE_OPERATION_RECEIPT_CORRUPT"
  let payload ← require (receipt.get? "payload") "PPE_JCS_UNSUPPORTED_VALUE"
  let payloadHash ← sha256PpeJcs sha256 payload
  ensure (payloadHash = row.payloadSha256) "PPE_OPERATION_RECEIPT_CORRUPT"
  let receiptHash ← sha256PpeJcs sha256 receipt
  ensure (receiptHash = row.receiptSha256) "PPE_OPERATION_RECEIPT_CORRUPT"
  let result := (receipt.get? "result").getD .null
  return { payloadSha256 := row.payloadSha256, kind := row.kind, result }

def lookupReceipt (receipts : List ReceiptRow) (runId operationKey : String) :
    Except String (Option Receipt) :=
  match receipts.find? fun row => row.Under runId operationKey with
  | some row => some <$> validateReceipt sha256 row
  | none => .ok none

/-! ## Authority -/

/-- The receipt of the start gate. -/
def assertStart (receipts : List ReceiptRow) (runId operationKey : String) :
    Except String Unit := do
  let start ← lookupReceipt sha256 receipts runId operationKey
  let start ← require start "PPE_JP_START_AUTHORITY"
  ensure (start.kind = "JP_START_GATE") "PPE_JP_START_AUTHORITY"

/-- The receipt of the reviewed plan. -/
def assertPlan (receipts : List ReceiptRow) (ppe : PpeMutationInput) :
    Except String Unit := do
  let plan ← lookupReceipt sha256 receipts ppe.runId ppe.planAuthorityOperationKey
  let plan ← require plan "PPE_PLAN_AUTHORITY"
  ensure (plan.kind = "COMPOSITION_BOOTSTRAP") "PPE_PLAN_AUTHORITY"
  ensure (plan.result.text? "runId" = some ppe.runId ∧
      plan.result.text? "principal" = some ppe.orchestratorId)
    "PPE_PLAN_AUTHORITY"

def assertAuthority (receipts : List ReceiptRow) (ppe : PpeMutationInput)
    (requirement : AuthorityRequirement) :
    Except String Unit := do
  assertPlan sha256 receipts ppe
  match requirement, ppe.jpStartOperationKey with
  | .ceremony, none => return ()
  | .ceremony, some _ => .error "PPE_CEREMONY_TOPOLOGY"
  | .composition, none => return ()
  | .composition, some start => assertStart sha256 receipts ppe.runId start
  | .execution, none => .error "PPE_JP_START_AUTHORITY"
  | .execution, some start =>
      ensure (start ≠ ppe.planAuthorityOperationKey) "PPE_JP_START_AUTHORITY"
      assertStart sha256 receipts ppe.runId start

end Receipts

/-- The run is active under the generation and the principal of the input, and so is
its current lease. -/
def assertFence
    (runs : List RunRow) (orchestrators : List OrchestratorRow) (ppe : PpeMutationInput) :
    Except String Unit := do
  let run ← require (runs.find? (·.runId = ppe.runId)) "PPE_CONTROLLER_FENCE"
  let lease ← require
    (orchestrators.find? fun lease => lease.runId = ppe.runId ∧ lease.status = .current)
    "PPE_CONTROLLER_FENCE"
  ensure (run.state = .active ∧ run.generation = ppe.orchestratorGeneration ∧
      lease.generation = ppe.orchestratorGeneration ∧ run.principal = ppe.orchestratorId ∧
        lease.ownerPrincipal = ppe.orchestratorId ∧
          ppe.orchestratorId = orchestratorOf ppe.runId)
    "PPE_CONTROLLER_FENCE"

/-! ## What is stored is valid -/

variable {sha256 : String → String}

theorem sha256PpeJcs_ok {value : Json} {digest : String} :
    sha256PpeJcs sha256 value = .ok digest ↔ value.Safe ∧ sha256 value.render = digest := by
  simp [sha256PpeJcs, canonicalizePpeJcs]

theorem safe_payload (operationKey operationKind : String) (request : Json) (targetScope : String) :
    (buildPpeOperationPayload operationKey operationKind request targetScope).Safe ↔
      request.Safe := by
  simp [buildPpeOperationPayload]

theorem safe_operationReceipt
    (runId operationKey payloadSha256 kind : String) (payload result : Json) :
    (operationReceipt runId operationKey payloadSha256 kind payload result).Safe ↔
      payload.Safe ∧ result.Safe := by
  simp [operationReceipt]

/-- The row that a mutation stores passes the check. -/
theorem validateReceipt_of_stored {row : ReceiptRow} {payload result : Json}
    (hashed : sha256PpeJcs sha256 payload = .ok row.payloadSha256)
    (stored : row.receiptJson = operationReceipt row.runId row.operationKey
      row.payloadSha256 row.kind payload result)
    (digest : sha256PpeJcs sha256 row.receiptJson = .ok row.receiptSha256)
    (committed : row.status = "COMMITTED") :
    validateReceipt sha256 row = .ok
      { payloadSha256 := row.payloadSha256, kind := row.kind, result := result } := by
  simp only [validateReceipt, bind_eq_ok, ensure_eq_ok, require_eq_ok, pure_eq_ok]
  refine ⟨(), ?_, (), ?_, payload, ?_, _, hashed, (), rfl, _, digest, (), rfl, ?_⟩ <;>
    simp [stored, operationReceipt, Json.isRecord, Json.text?, Json.get?, committed]

/-! ## More receipts -/

variable {receipts : List ReceiptRow}

/-- Rows are only appended, and never a second one under a run and a key. -/
theorem lookupReceipt_append {runId operationKey : String} {receipt : Receipt}
    (found : lookupReceipt sha256 receipts runId operationKey = .ok (some receipt))
    (more : List ReceiptRow) :
    lookupReceipt sha256 (receipts ++ more) runId operationKey = .ok (some receipt) := by
  unfold lookupReceipt at found ⊢
  rw [List.find?_append]
  cases first : receipts.find? fun row => row.Under runId operationKey with
  | some row => rwa [first] at found
  | none => rw [first] at found; cases found

theorem assertStart_append {runId operationKey : String}
    (started : assertStart sha256 receipts runId operationKey = .ok ()) (more : List ReceiptRow) :
    assertStart sha256 (receipts ++ more) runId operationKey = .ok () := by
  simp only [assertStart, bind_eq_ok, require_eq_ok] at started ⊢
  obtain ⟨_, found, start, rfl, kind⟩ := started
  exact ⟨_, lookupReceipt_append found more, start, rfl, kind⟩

variable {ppe : PpeMutationInput}

theorem assertPlan_append
    (planned : assertPlan sha256 receipts ppe = .ok ()) (more : List ReceiptRow) :
    assertPlan sha256 (receipts ++ more) ppe = .ok () := by
  simp only [assertPlan, bind_eq_ok, require_eq_ok] at planned ⊢
  obtain ⟨_, found, plan, rfl, checks⟩ := planned
  exact ⟨_, lookupReceipt_append found more, plan, rfl, checks⟩

theorem assertAuthority_append {requirement : AuthorityRequirement}
    (authorized : assertAuthority sha256 receipts ppe requirement = .ok ())
    (more : List ReceiptRow) :
    assertAuthority sha256 (receipts ++ more) ppe requirement = .ok () := by
  unfold assertAuthority at authorized ⊢
  obtain ⟨_, planned, started⟩ := (bind_eq_ok _ _ _).mp authorized
  refine (bind_eq_ok _ _ _).mpr ⟨_, assertPlan_append planned more, ?_⟩
  cases requirement with
  | ceremony =>
    cases key : ppe.jpStartOperationKey with
    | none => rfl
    | some start => rw [key] at started; cases started
  | composition =>
    cases key : ppe.jpStartOperationKey with
    | none => rfl
    | some start =>
      rw [key] at started
      exact assertStart_append started more
  | execution =>
    cases key : ppe.jpStartOperationKey with
    | none => rw [key] at started; cases started
    | some start =>
      rw [key] at started
      obtain ⟨_, apart, begun⟩ := (bind_eq_ok _ _ _).mp started
      exact (bind_eq_ok _ _ _).mpr ⟨_, apart, assertStart_append begun more⟩

end Operations
end Ppe
end Scrum4Me
