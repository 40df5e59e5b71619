import Scrum4Me.Hierarchy.Propagation
import Scrum4Me.Ppe.Receipts

/-!
# Fenced mutations

The two mutations of the product database, each a transaction of its own: a backlog
item with its links, and a compare-and-swap of a task status with its propagation.
Both answer with the text and the structure of what they wrote.
-/

namespace Scrum4Me
namespace Ppe
namespace Operations

open Foundation
open Jobs (TaskStatus)

/-! ## The product database -/

/-- The role of a source document. -/
inductive DocRole
  | plan | grill
  deriving DecidableEq

def DocRole.text : DocRole → String
  | plan => "PLAN"
  | grill => "GRILL"

/-- `pbis`, with whole sort orders. -/
structure PbiRow where
  id : String
  productId : String
  code : String
  title : String
  description : Option String
  priority : Nat
  sortOrder : Nat
  createdAt : String
  deriving DecidableEq

/-- `product_doc_revisions`. -/
structure DocRevisionRow where
  id : String
  docId : String
  revision : Nat
  deriving DecidableEq

/-- `pbi_docs`. -/
structure PbiDocRow where
  pbiId : String
  docRevisionId : String
  role : DocRole
  createdBy : String
  deriving DecidableEq

/-- `ideas`. -/
structure IdeaRow where
  id : String
  pbiId : Option String
  deriving DecidableEq

structure Product where
  pbis : List PbiRow
  docRevisions : List DocRevisionRow
  pbiDocs : List PbiDocRow
  ideas : List IdeaRow
  /-- Tasks, stories, PBIs and sprints with their statuses. -/
  board : Hierarchy.Db
  /-- The tasks that have a plan, each with its plan. -/
  implementationPlans : List (String × String)
  deriving DecidableEq

/-- A double holds the next sort order and every revision number. -/
def Product.Representable (product : Product) : Prop :=
  (∀ pbi ∈ product.pbis, pbi.sortOrder < Json.maxSafeInteger) ∧
    ∀ row ∈ product.docRevisions, row.revision ≤ Json.maxSafeInteger

instance (product : Product) : Decidable product.Representable :=
  inferInstanceAs (Decidable (_ ∧ _))

/-! ## Requests -/

structure SourceDoc where
  docId : String
  revisionId : Option String
  role : DocRole
  deriving DecidableEq

/-- A source document with the revision that it stands for. -/
structure ResolvedLink where
  docId : String
  revisionId : String
  role : DocRole
  deriving DecidableEq

structure CreatePbi where
  productId : String
  title : String
  description : Option String
  priority : Nat
  sourceDocs : Option (List SourceDoc)
  ceremonyObjectKey : String
  ideaId : Option String
  /-- As they are resolved before the mutation. -/
  resolvedLinks : List ResolvedLink
  userId : String
  deriving DecidableEq

structure UpdateTaskStatus where
  taskId : String
  expectedStatus : TaskStatus
  targetStatus : TaskStatus
  sprintRunId : Option String
  deriving DecidableEq

inductive Request
  | createPbi (input : CreatePbi)
  | updateTaskStatus (input : UpdateTaskStatus)
  deriving DecidableEq

/-- What a transaction generates, and what is read of a changed sprint run after it. -/
structure Generated where
  id : String
  createdAt : String
  sprintRunStatus : Option String
  deriving DecidableEq

/-- `taskStatusToApi`. -/
def taskStatusToApi : TaskStatus → String
  | .toDo => "todo"
  | .inProgress => "in_progress"
  | .review => "review"
  | .done => "done"
  | .failed => "failed"
  | .excluded => "excluded"

/-- `PPE_STATUS_TRANSITIONS`. -/
def ppeStatusTransitions : TaskStatus → List TaskStatus
  | .toDo => [.inProgress, .failed, .excluded]
  | .inProgress => [.review, .failed]
  | .review => [.inProgress, .done, .failed]
  | _ => []

def SourceDoc.json (source : SourceDoc) : Json :=
  .object ([("doc_id", .string source.docId)] ++
      (source.revisionId.map fun id => ("revision_id", .string id)).toList ++
        [("role", .string source.role.text)])

namespace Request

def operationKind : Request → String
  | createPbi _ => "CEREMONY_PBI"
  | updateTaskStatus _ => "TASK_STATUS_CAS"

def targetScope : Request → String
  | createPbi input => "product:" ++ input.productId
  | updateTaskStatus input => "task:" ++ input.taskId

def authority : Request → AuthorityRequirement
  | createPbi _ => .ceremony
  | updateTaskStatus _ => .execution

/-- The request as it is hashed. -/
def json : Request → Json
  | createPbi input =>
      .object ([("product_id", .string input.productId),
          ("title", .string input.title),
          ("description", .ofText input.description),
          ("priority", .number input.priority),
          ("source_docs",
            input.sourceDocs.elim .null fun docs => .array (docs.map SourceDoc.json)),
          ("ceremony_object_key", .string input.ceremonyObjectKey)] ++
          (input.ideaId.map fun id => ("idea_id", .string id)).toList)
  | updateTaskStatus input =>
      .object [("task_id", .string input.taskId),
          ("expected_status", .string (taskStatusToApi input.expectedStatus)),
          ("target_status", .string (taskStatusToApi input.targetStatus)),
          ("sprint_run_id", .ofText input.sprintRunId)]

/-- What a handler checks about the key and the statuses. -/
def precheck (sha256 : String → String) (ppe : PpeMutationInput) :
    Request → Except String Unit
  | createPbi input =>
      ensure (ppe.operationKey =
          ceremonyOperationKey sha256 ppe.runId "pbi" input.ceremonyObjectKey)
        "PPE_CEREMONY_OBJECT_KEY"
  | updateTaskStatus input =>
      ensure (input.targetStatus ∈ ppeStatusTransitions input.expectedStatus)
        "PPE_STATUS_REGRESSION"

end Request

/-- `toolJson`. -/
def toolJson (value : Json) : Json :=
  .object [("content",
        .array [.object [("type", .string "text"),
          ("text", .string (value.stringify 0))]]),
      ("structuredContent", value)]

/-! ## Creating a backlog item -/

/-- The number of a code that is `PBI-` and digits. -/
def autoNumber (code : String) : Option Nat :=
  match code.toList with
  | 'P' :: 'B' :: 'I' :: '-' :: digits =>
      if digits ≠ [] ∧ digits.all Char.isDigit = true then
        some (digits.foldl (fun number digit => 10 * number + (digit.toNat - 48)) 0)
      else none
  | _ => none

namespace Product

variable (product : Product)

/-- The backlog items of a product. -/
def pbisOf (productId : String) : List PbiRow :=
  product.pbis.filter (·.productId = productId)

/-- `last?.sort_order ?? 0`. -/
def lastSortOrder (productId : String) : Nat :=
  ((product.pbisOf productId).map (·.sortOrder)).foldr max 0

def generateNextPbiCode (productId : String) : String :=
  "PBI-" ++ toString
    (((product.pbisOf productId).filterMap fun pbi => autoNumber pbi.code).foldr max 0 + 1)

/-- `pbi.create`, with its unique keys. -/
def insertPbi (row : PbiRow) : Except String Product := do
  ensure (∀ other ∈ product.pbis, other.id ≠ row.id ∧
      ¬ (other.productId = row.productId ∧ other.code = row.code))
    "unique constraint"
  return { product with
    pbis := product.pbis ++ [row]
    board := { product.board with
      pbis := product.board.pbis ++ [{ id := row.id, status := .ready }] } }

/-- `pbiDoc.upsert`. -/
def link (pbiId userId : String) (resolved : ResolvedLink) :
    Except String (Product × Json) := do
  let revision ← require (product.docRevisions.find? (·.id = resolved.revisionId))
    "foreign key constraint"
  let stored := product.pbiDocs.any fun row =>
    row.pbiId = pbiId ∧ row.docRevisionId = resolved.revisionId ∧
      row.role = resolved.role
  let row : PbiDocRow :=
    { pbiId := pbiId
      docRevisionId := resolved.revisionId
      role := resolved.role
      createdBy := userId }
  return (if stored then product
      else { product with pbiDocs := product.pbiDocs ++ [row] },
    .object [("doc_id", .string revision.docId),
        ("revision_id", .string resolved.revisionId),
        ("revision", .number revision.revision),
        ("role", .string resolved.role.text)])

def linkAll (product : Product) (pbiId userId : String) :
    List ResolvedLink → Except String (Product × List Json)
  | [] => .ok (product, [])
  | resolved :: rest => do
      let (product, json) ← product.link pbiId userId resolved
      let (product, jsons) ← linkAll product pbiId userId rest
      return (product, json :: jsons)

/-- The idea is linked if it has no backlog item yet. -/
def linkIdeaIfEmpty (ideaId pbiId : String) : Product × Json :=
  let empty := fun row : IdeaRow => decide (row.id = ideaId ∧ row.pbiId = none)
  ({ product with
      ideas := updateWhere empty (fun row => { row with pbiId := some pbiId })
        product.ideas },
    .object [("idea_id", .string ideaId),
        ("field", .string "pbi_id"),
        ("outcome",
          .string (if product.ideas.any empty then "set" else "skipped_existing"))])

end Product

def createPbi (input : CreatePbi) (generated : Generated) (product : Product) :
    Except String (Product × Json) := do
  let row : PbiRow :=
    { id := generated.id
      productId := input.productId
      code := product.generateNextPbiCode input.productId
      title := input.title
      description := input.description
      priority := input.priority
      sortOrder := product.lastSortOrder input.productId + 1
      createdAt := generated.createdAt }
  let product ← product.insertPbi row
  let (product, links) ← product.linkAll row.id input.userId input.resolvedLinks
  let entries : List (String × Json) :=
    [("id", .string row.id),
      ("code", .string row.code),
      ("title", .string row.title),
      ("description", .ofText row.description),
      ("priority", .number row.priority),
      ("sort_order", .number row.sortOrder),
      ("created_at", .string row.createdAt),
      ("source_docs", .array links)]
  match input.ideaId with
  | none => return (product, toolJson (.object entries))
  | some ideaId =>
      let (product, ideaLink) := product.linkIdeaIfEmpty ideaId row.id
      return (product, toolJson (.object (entries ++ [("idea_link", ideaLink)])))

/-! ## Swapping a task status -/

/-- `propagateStatusUpwards` by itself, from its start to its commit. -/
def propagateStatusUpwards (db : Hierarchy.Db) (taskId : String) (newStatus : TaskStatus) :
    Option (Hierarchy.Db × Hierarchy.PropagationResult) :=
  let advance := fun call : Hierarchy.Call =>
    (Hierarchy.World.next? { db := db, calls := [call], results := [] } call).elim call
      fun stage => { call with stage := stage }
  -- Eleven statements lead from the start to the commit.
  let call := advance^[11]
    { taskId := taskId, newStatus := newStatus, stage := .called }
  call.result?.map fun result => (db.withWrites call, result)

def updateTaskStatus (input : UpdateTaskStatus) (generated : Generated) (product : Product) :
    Except String (Product × Json) := do
  let current ← require (product.board.task? input.taskId) "PPE_TASK_STATUS_CAS"
  ensure (current.status = input.expectedStatus) "PPE_TASK_STATUS_CAS"
  let (board, result) ← require
    (propagateStatusUpwards product.board input.taskId input.targetStatus)
    "record not found"
  let storyStatusChange : Json :=
    if result.storyChanged then
      .string (if input.targetStatus = .done then "promoted" else "demoted")
    else .null
  let plan := (product.implementationPlans.find? (·.1 = input.taskId)).map (·.2)
  return ({ product with board },
    toolJson (.object [("id", .string result.taskId),
        ("status", .string (taskStatusToApi input.targetStatus)),
        ("implementation_plan", .ofText plan),
        ("story_status_change", storyStatusChange),
        ("sprint_run_status_change",
          .ofText (input.sprintRunId.bind fun _ => generated.sprintRunStatus))]))

def Request.mutate (request : Request) (generated : Generated) (product : Product) :
    Except String (Product × Json) :=
  match request with
  | createPbi input => Operations.createPbi input generated product
  | updateTaskStatus input => Operations.updateTaskStatus input generated product

/-! ## Results have a canonical form -/

theorem authority_of_operationKind {request other : Request}
    (same : request.operationKind = other.operationKind) :
    request.authority = other.authority := by
  cases request <;> cases other <;> first | rfl | simp [Request.operationKind] at same

@[simp] theorem safe_toolJson (value : Json) : (toolJson value).Safe ↔ value.Safe := by
  simp [toolJson]

theorem lastSortOrder_lt {product : Product}
    (representable : product.Representable) (productId : String) :
    product.lastSortOrder productId < Json.maxSafeInteger := by
  unfold Product.lastSortOrder
  have bounded : ∀ order ∈ (product.pbisOf productId).map (·.sortOrder),
      order < Json.maxSafeInteger := by
    intro order member
    obtain ⟨pbi, listed, rfl⟩ := List.mem_map.mp member
    exact representable.1 pbi (List.mem_filter.mp listed).1
  generalize (product.pbisOf productId).map (·.sortOrder) = orders at bounded
  induction orders with
  | nil => decide
  | cons order orders ih =>
    obtain ⟨first, rest⟩ := List.forall_mem_cons.mp bounded
    exact max_lt first (ih rest)

theorem linkAll_ok {product after : Product} {pbiId userId : String} {links : List ResolvedLink}
    {jsons : List Json} (bounded : ∀ row ∈ product.docRevisions, row.revision ≤ Json.maxSafeInteger)
    (linked : product.linkAll pbiId userId links = .ok (after, jsons)) :
    ∀ json ∈ jsons, json.Safe := by
  induction links generalizing product jsons with
  | nil =>
    obtain ⟨-, rfl⟩ := Prod.mk.inj (Except.ok.inj linked)
    exact List.forall_mem_nil _
  | cons link links ih =>
    simp only [Product.linkAll, bind_eq_ok, pure_eq_ok, Product.link, require_eq_ok]
      at linked
    obtain ⟨_, ⟨revision, found, rfl⟩, ⟨later, others⟩, rest, answer⟩ := linked
    obtain ⟨rfl, rfl⟩ := Prod.mk.inj answer
    refine List.forall_mem_cons.mpr ⟨?_, ih ?_ rest⟩
    · have known := bounded revision (List.mem_of_find?_eq_some found)
      simpa using known
    · split <;> exact bounded

/-- Whatever a mutation answers can be stored, while the numbers it reads can. -/
theorem safe_mutate
    {request : Request} {generated : Generated} {product after : Product} {result : Json}
    (representable : product.Representable) (requested : request.json.Safe)
    (mutated : request.mutate generated product = .ok (after, result)) :
    result.Safe := by
  cases request with
  | createPbi input =>
    have order := lastSortOrder_lt representable input.productId
    have priority : input.priority ≤ Json.maxSafeInteger := by
      have safe := (Json.safe_object _).mp requested ("priority", .number input.priority) (by simp)
      simpa using safe
    simp only [Request.mutate, createPbi, bind_eq_ok] at mutated
    obtain ⟨inserted, insert, ⟨linked, links⟩, link, answer⟩ := mutated
    have kept : inserted.docRevisions = product.docRevisions := by
      simp only [Product.insertPbi, bind_eq_ok, pure_eq_ok] at insert
      obtain ⟨_, -, rfl⟩ := insert
      rfl
    have safeLinks := linkAll_ok (kept ▸ representable.2) link
    cases idea : input.ideaId with
    | none =>
      simp only [idea, pure_eq_ok, Prod.mk.injEq] at answer
      obtain ⟨-, rfl⟩ := answer
      simp only [safe_toolJson, Json.safe_object, List.forall_mem_cons]
      exact ⟨by simp, by simp, by simp, by simp, (Json.safe_natCast _).mpr priority,
        (Json.safe_natCast _).mpr order, by simp, by simpa using safeLinks, by simp⟩
    | some ideaId =>
      simp only [idea, pure_eq_ok, Prod.mk.injEq] at answer
      obtain ⟨-, rfl⟩ := answer
      simp only [safe_toolJson, Json.safe_object, List.forall_mem_append, List.forall_mem_cons]
      exact ⟨⟨by simp, by simp, by simp, by simp, (Json.safe_natCast _).mpr priority,
        (Json.safe_natCast _).mpr order, by simp, by simpa using safeLinks, by simp⟩,
        by simp [Product.linkIdeaIfEmpty], by simp⟩
  | updateTaskStatus input =>
    simp only [Request.mutate, updateTaskStatus, bind_eq_ok, pure_eq_ok] at mutated
    obtain ⟨_, -, _, -, ⟨board, propagated⟩, -, answer⟩ := mutated
    obtain ⟨-, rfl⟩ := Prod.mk.inj answer
    simp only [safe_toolJson, Json.safe_object, List.forall_mem_cons]
    refine ⟨by simp, by simp, by simp, ?_, by simp, by simp⟩
    split <;> simp

end Operations
end Ppe
end Scrum4Me
