import Scrum4Me.Foundation.Execution
import Scrum4Me.Foundation.Table
import Scrum4Me.Foundation.Transaction

/-!
# Usage segments

`record_usage_segment` stores one stretch of a session. A header opens a segment, the
first closing message ends it, and all further messages have no effect. A call reads the
segment, then creates or closes it; a creation that loses against another one starts
again.
-/

namespace Scrum4Me
namespace Usage

open Foundation

/-! ## Messages -/

inductive IdeaPhase
  | grill | spec | plan | ceremony
  deriving DecidableEq

inductive IssuePhase
  | research | plan
  deriving DecidableEq

/-- `ENDED_REASONS`; `UsageEndedReason` has the same members. -/
inductive EndedReason
  | todo | review | done | failed | excluded | switched | sessionEnd | untracked
  deriving DecidableEq

/-- `lineSchema`. -/
structure Line where
  agentKey : String
  agentLabel : String
  modelId : String
  inputTokens : Nat
  outputTokens : Nat
  cacheReadTokens : Nat
  cacheWriteTokens : Nat
  requests : Nat
  deriving DecidableEq

/-- The fields that say which segment it is, and where it belongs. -/
structure Header where
  id : String
  taskId : Option String
  anchorTaskId : Option String
  productId : Option String
  ideaId : Option String
  ideaPhase : Option IdeaPhase
  issueId : Option String
  issuePhase : Option IssuePhase
  sessionId : String
  startedAt : Nat
  modVersion : String
  deriving DecidableEq

/-- `inputSchema`; amounts are texts. -/
structure Input extends Header where
  endedAt : Option Nat
  endedReason : Option EndedReason
  activeMs : Option Nat
  costStartUsd : Option String
  costEndUsd : Option String
  lines : Option (List Line)
  deriving DecidableEq

/-- The closing part of a message. -/
structure Close where
  endedAt : Nat
  endedReason : Option EndedReason
  activeMs : Nat
  reportedCostUsd : Option String
  lines : List Line
  deriving DecidableEq

def validate (input : Input) : Option String :=
  if (input.ideaId = none) ≠ (input.ideaPhase = none) then
    some "idea_id and idea_phase come together"
  else if input.ideaId ≠ none ∧ (input.taskId ≠ none ∨ input.anchorTaskId ≠ none) then
    some "an idea segment has no task or anchor"
  else if (input.issueId = none) ≠ (input.issuePhase = none) then
    some "issue_id and issue_phase come together"
  else if input.issueId ≠ none ∧ (input.taskId ≠ none ∨ input.anchorTaskId ≠ none) then
    some "an issue segment has no task or anchor"
  else if input.issueId ≠ none ∧ input.ideaId ≠ none then
    some "an issue segment has no idea"
  else if input.issueId = none ∧ input.anchorTaskId = none ∧ input.ideaId = none ∧
      input.taskId ≠ none then
    some "a task segment needs anchor_task_id = task_id"
  else if input.issueId = none ∧ input.anchorTaskId = none ∧ input.ideaId = none ∧
      input.productId = none then
    some "a product segment (anchor_task_id null) needs product_id"
  else if input.issueId = none ∧ ¬ (input.anchorTaskId = none ∧ input.ideaId = none) ∧
      input.taskId ≠ none ∧ input.taskId ≠ input.anchorTaskId then
    some "anchor_task_id must equal task_id for a task segment"
  else if (input.endedAt = none) ≠ (input.endedReason = none) then
    some "ended_at and ended_reason come together"
  else if ∃ endedAt ∈ input.endedAt, endedAt < input.startedAt then
    some "ended_at is before started_at"
  else if ¬ ((input.lines.getD []).map fun line => (line.agentKey, line.modelId)).Nodup then
    some "duplicate line for one agent_key and model_id"
  else none

/-! ## Rows -/

/-- `usage_segments`. -/
structure SegmentRow where
  id : String
  userId : String
  productId : String
  sprintId : Option String
  taskId : Option String
  anchorTaskId : Option String
  ideaId : Option String
  ideaPhase : Option IdeaPhase
  issueId : Option String
  issuePhase : Option IssuePhase
  sessionId : String
  startedAt : Nat
  modVersion : String
  endedAt : Option Nat
  endedReason : Option EndedReason
  activeMs : Nat
  reportedCostUsd : Option String
  deriving DecidableEq

/-- `usage_lines`. -/
structure LineRow where
  segmentId : String
  line : Line
  deriving DecidableEq

structure ProductRow where
  id : String
  code : Option String
  userId : String
  memberIds : List String

structure TaskRow where
  id : String
  productId : String
  sprintId : Option String

structure IdeaRow where
  id : String
  userId : String
  productId : Option String

structure IssueRow where
  id : String
  productId : String

/-- What a segment can belong to. -/
structure Directory where
  products : List ProductRow
  tasks : List TaskRow
  ideas : List IdeaRow
  issues : List IssueRow
  /-- `(end - start).toFixed(4)`. -/
  difference : String → String → String

/-- The user of a token, and the products that the token is limited to, if any. -/
structure Auth where
  userId : String
  scopedProducts : List String
  deriving DecidableEq

/-- Where a new segment belongs. -/
structure Scope where
  productId : String
  sprintId : Option String
  deriving DecidableEq

def ProductRow.InScope (product : ProductRow) (userId : String) : Prop :=
  product.userId = userId ∨ userId ∈ product.memberIds

instance (product : ProductRow) (userId : String) : Decidable (product.InScope userId) :=
  inferInstanceAs (Decidable (_ ∨ _))

def rejected (text : String) : String := "USAGE_SEGMENT_REJECTED: " ++ text

namespace Directory

variable (directory : Directory)

def userCanAccessProduct (productId : String) (auth : Auth) : Bool :=
  (auth.scopedProducts = [] ∨ productId ∈ auth.scopedProducts) ∧
    directory.products.any fun product =>
      product.id = productId ∧ product.InScope auth.userId

def resolveProductRef (ref userId : String) : Option String :=
  ((directory.products.find? fun product =>
      product.id = ref ∧ product.InScope userId).or
    (directory.products.find? fun product =>
      product.code = some ref ∧ product.InScope userId)).map (·.id)

/-- The closing part of a message, or nothing for a header. -/
def closing (input : Input) : Option Close :=
  input.endedAt.map fun endedAt =>
    { endedAt := endedAt
      endedReason := input.endedReason
      activeMs := input.activeMs.getD 0
      reportedCostUsd := input.costStartUsd.bind fun start =>
        input.costEndUsd.map fun finish => directory.difference start finish
      lines := input.lines.getD [] }

/-- The product of an issue. -/
def issueScope (auth : Auth) (issueId : String) : Except String Scope := do
  let issue ← require (directory.issues.find? (·.id = issueId))
    ("issue " ++ issueId ++ " not found or not accessible")
  ensure (directory.userCanAccessProduct issue.productId auth = true)
    ("issue " ++ issueId ++ " not found or not accessible")
  pure ⟨issue.productId, none⟩

/-- The product of an idea of the user. -/
def ideaScope (auth : Auth) (ideaId : String) : Except String Scope := do
  let idea ← require
    (directory.ideas.find? fun idea => idea.id = ideaId ∧ idea.userId = auth.userId)
    ("idea " ++ ideaId ++ " not found or not accessible")
  let productId ← require idea.productId ("idea " ++ ideaId ++ " has no product")
  ensure (directory.userCanAccessProduct productId auth = true)
    ("product of idea " ++ ideaId ++ " not accessible")
  pure ⟨productId, none⟩

def productScope (auth : Auth) (ref : String) : Except String Scope := do
  let productId ← require (directory.resolveProductRef ref auth.userId)
    ("product " ++ ref ++ " not found or not accessible")
  ensure (directory.userCanAccessProduct productId auth = true)
    ("product " ++ ref ++ " not found or not accessible")
  pure ⟨productId, none⟩

/-- The product and the sprint of the anchor. -/
def anchorScope (auth : Auth) (anchorTaskId : String) : Except String Scope := do
  let anchor ← require (directory.tasks.find? (·.id = anchorTaskId))
    ("task " ++ anchorTaskId ++ " not found or not accessible")
  ensure (directory.userCanAccessProduct anchor.productId auth = true)
    ("task " ++ anchorTaskId ++ " not found or not accessible")
  let sprintId ← require anchor.sprintId ("task " ++ anchorTaskId ++ " has no sprint")
  pure ⟨anchor.productId, some sprintId⟩

/-- Where a message puts a segment that does not exist, or why it is rejected. -/
def scope (header : Header) (auth : Auth) : Except String Scope :=
  header.issueId.elim (header.ideaId.elim (header.anchorTaskId.elim
        (directory.productScope auth (header.productId.getD ""))
        (directory.anchorScope auth))
      (directory.ideaScope auth))
    (directory.issueScope auth)

end Directory

/-- The row that a message creates. -/
def Header.row (header : Header) (userId : String) (scope : Scope) : SegmentRow where
  id := header.id
  userId := userId
  productId := scope.productId
  sprintId := scope.sprintId
  taskId := header.taskId
  anchorTaskId := header.anchorTaskId
  ideaId := header.ideaId
  ideaPhase := if header.ideaId = none then none else header.ideaPhase
  issueId := header.issueId
  issuePhase := if header.issueId = none then none else header.issuePhase
  sessionId := header.sessionId
  startedAt := header.startedAt
  modVersion := header.modVersion
  endedAt := none
  endedReason := none
  activeMs := 0
  reportedCostUsd := none

def SegmentRow.close (row : SegmentRow) (close : Close) : SegmentRow :=
  { row with
    endedAt := some close.endedAt
    endedReason := close.endedReason
    activeMs := close.activeMs
    reportedCostUsd := close.reportedCostUsd }

def Close.rows (close : Close) (segmentId : String) : List LineRow :=
  close.lines.map fun line => ⟨segmentId, line⟩

/-! ## Calls -/

inductive Effect
  | created | closed | none
  deriving DecidableEq

inductive Reply
  /-- `{ state, effect }`; the state is `closed` or `open`. -/
  | recorded (isClosed : Bool) (effect : Effect)
  | error (message : String)
  deriving DecidableEq

/-- What a call is about to do. -/
inductive Stage
  | reading (retried : Bool)
  | scoping (retried : Bool)
  | creating (scope : Scope) (retried : Bool)
  | closing
  deriving DecidableEq

structure Call where
  input : Input
  auth : Auth
  stage : Stage
  deriving DecidableEq

structure Answer where
  input : Input
  auth : Auth
  reply : Reply
  deriving DecidableEq

/-- The tables, the calls in progress and what was answered. -/
structure World where
  segments : List SegmentRow
  lines : List LineRow
  calls : List Call
  answers : List Answer
  deriving DecidableEq

namespace World

def empty : World := ⟨[], [], [], []⟩

variable (world : World)

def segment? (id : String) : Option SegmentRow := world.segments.find? (·.id = id)

/-- The call answers. -/
def answer (call : Call) (reply : Reply) : World :=
  { world with answers := world.answers ++ [⟨call.input, call.auth, reply⟩] }

def goOn (call : Call) (stage : Stage) : World :=
  { world with calls := world.calls ++ [{ call with stage }] }

/-- The transaction of `create`. -/
def insert (row : SegmentRow) (close : Option Close) : World :=
  { world with
    segments := world.segments ++ [close.elim row row.close]
    lines := world.lines ++ (close.map (·.rows row.id)).getD [] }

/-- The transaction of `closeOpen`, if it matches. -/
def closeOpen (id : String) (close : Close) : World :=
  { world with
    segments := updateWhere (fun row => row.id = id ∧ row.endedAt = none) (·.close close)
      world.segments
    lines := (world.lines.filter fun row => row.segmentId ≠ id) ++ close.rows id }

/-- The next statement of a call, which is not among the calls in progress. -/
def advance (directory : Directory) (call : Call) : World :=
  match call.stage with
  | .reading retried =>
      match world.segment? call.input.id with
      | none => world.goOn call (.scoping retried)
      | some existing =>
          if existing.userId ≠ call.auth.userId ∨
              directory.userCanAccessProduct existing.productId call.auth = false then
            world.answer call (.error (rejected ("segment " ++ call.input.id ++
              " belongs to another user or product")))
          else if existing.endedAt ≠ none ∨ directory.closing call.input = none then
            world.answer call (.recorded (existing.endedAt ≠ none) .none)
          else if ∃ endedAt ∈ call.input.endedAt, endedAt < existing.startedAt then
            world.answer call (.error (rejected "ended_at is before the stored started_at"))
          else world.goOn call .closing
  | .scoping retried =>
      match directory.scope call.input.toHeader call.auth with
      | .error message => world.answer call (.error (rejected message))
      | .ok scope => world.goOn call (.creating scope retried)
  | .creating scope retried =>
      if world.segment? call.input.id = none then
        (world.insert (call.input.row call.auth.userId scope)
          (directory.closing call.input)).answer call
            (.recorded (directory.closing call.input ≠ none) .created)
      else if retried = true then world.answer call (.error "Unique constraint failed")
      else world.goOn call (.reading true)
  | .closing =>
      match directory.closing call.input with
      | none => world
      | some close =>
          if ∃ row ∈ world.segments, row.id = call.input.id ∧ row.endedAt = none then
            (world.closeOpen call.input.id close).answer call (.recorded true .closed)
          else world.answer call (.recorded true .none)

end World

/-- A message arrives, a call executes its next statement, or a call is lost. -/
inductive Step
  | receive (input : Input) (auth : Auth)
  | advance (call : Call)
  | lose (call : Call)
  deriving DecidableEq

def execute (directory : Directory) (world : World) : Step → World
  | .receive input auth =>
      (validate input).elim
        { world with calls := world.calls ++ [⟨input, auth, .reading false⟩] }
        fun message => world.answer ⟨input, auth, .reading false⟩ (.error (rejected message))
  | .advance call =>
      if call ∈ world.calls then
        World.advance { world with calls := world.calls.erase call } directory call
      else world
  | .lose call => { world with calls := world.calls.erase call }

end Usage
end Scrum4Me
