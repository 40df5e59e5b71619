import Scrum4Me.Jobs.ClaimFilter
import Scrum4Me.Foundation.ThreeValued

/-!
# The claim filter as a query

`ClaimPredicate.sql` gives every predicate its condition. Two fragments and a
text template are built from conditions; which rows they select is read off
with the lemmas on three-valued conditions.
-/

namespace Scrum4Me
namespace Jobs

open Foundation

/-- A row of a claim query: a job with what is joined to it. -/
structure ClaimRow where
  cj : JobRow
  sr : Option SprintRunRow
  dc : Option Dispatch.CandidateRow

/-- The tables that the subqueries of the conditions read. -/
structure ClaimTables where
  jobs : List JobRow
  incarnations : List Dispatch.IncarnationRow
  profiles : List Dispatch.ProfileRow
  deriving DecidableEq

/-- `dc.profile_revision_id`. -/
def ClaimRow.profileRevisionId (row : ClaimRow) : Option Uuid :=
  row.dc.map (·.profileRevisionId)

/-- `sr.status`. -/
def ClaimRow.sprintStatus (row : ClaimRow) : Option SprintRunStatus :=
  row.sr.map (·.status)

/-- An unfinished task job of the same sprint run goes first. -/
def EarlierSibling (jobs : List JobRow) (cj : JobRow) : Prop :=
  ∃ earlier ∈ jobs,
    (∃ run ∈ cj.sprintRunId, earlier.sprintRunId = some run) ∧
      earlier.kind = .taskImplementation ∧
      (∃ before ∈ earlier.sprintSequence, ∃ after ∈ cj.sprintSequence,
        before < after) ∧
      earlier.status.Active

instance (jobs : List JobRow) (cj : JobRow) :
    Decidable (EarlierSibling jobs cj) :=
  inferInstanceAs (Decidable (∃ _ ∈ jobs, _))

/-- The `ClaimJob` of a joined row. -/
def ClaimRow.claimJob (row : ClaimRow) (tables : ClaimTables) : ClaimJob where
  userId := row.cj.userId
  productId := row.cj.productId
  runtime := row.cj.runtime
  status := row.cj.status
  kind := row.cj.kind
  source := row.cj.source
  requiredCapability := row.cj.requiredCapability
  dispatchRequestId := row.cj.dispatchRequestId
  profileRevisionId := row.profileRevisionId
  sprintRunId := row.cj.sprintRunId
  sprintStatus := row.sprintStatus
  earlierSibling := decide (EarlierSibling tables.jobs row.cj)
  taskId := row.cj.taskId
  ideaId := row.cj.ideaId

/-! ## Conditions -/

namespace Condition

open Truth

/-- The subquery over earlier siblings. -/
def earlierSibling (cj earlier : JobRow) : Truth :=
  all [compare Eq earlier.sprintRunId cj.sprintRunId,
    of (earlier.kind = .taskImplementation),
    compare LT.lt earlier.sprintSequence cj.sprintSequence,
    of (earlier.status ∈ [JobStatus.queued, .claimed, .running])]

/-- The subquery accepts what `EarlierSibling` asks of the earlier job. -/
theorem earlierSibling_holds {cj earlier : JobRow} :
    earlierSibling cj earlier = .holds ↔ (∃ run ∈ cj.sprintRunId, earlier.sprintRunId = some run) ∧
        earlier.kind = .taskImplementation ∧
        (∃ before ∈ earlier.sprintSequence, ∃ after ∈ cj.sprintSequence, before < after) ∧
        earlier.status.Active := by
  simp [earlierSibling, JobStatus.Active, and_comm]

def sprint (jobs : List JobRow) (cj : JobRow) : Truth :=
  any [of (cj.kind ≠ .taskImplementation), isNull cj.sprintRunId,
    (someRow jobs (earlierSibling cj)).not]

/-- `CLAIMABLE_JOB_KIND_FILTER`. -/
def ordinaryKind (row : ClaimRow) : Truth :=
  any [
    all [of (row.cj.kind ∈ standaloneKinds), of (row.cj.source ≠ .orchestrator)],
    all [of (row.cj.kind = .deploy),
      of (row.cj.source ∈ [JobSource.system, .manual])],
    all [of (row.cj.kind = .docsAudit),
      of (row.cj.source ∈ [JobSource.system, .manual])],
    all [of (row.cj.kind = .planChat), of (row.cj.source = .orchestrator),
      isNull row.cj.taskId, isNull row.cj.ideaId, isNull row.cj.sprintRunId],
    all [of (row.cj.kind = .taskImplementation),
      of (row.cj.source ∈ [JobSource.manual, .copilot])],
    all [of (row.cj.kind ∈ [JobKind.taskImplementation, .sprintImplementation]),
      (isNull row.cj.sprintRunId).not,
      within row.sprintStatus [.queued, .running]]]

def managedKind (cj : JobRow) : Truth :=
  all [of (cj.source = .copilot),
    of (cj.kind ∈ [JobKind.queueTask, .queueReview, .taskImplementation]),
    isNull cj.sprintRunId]

def harness (cj : JobRow) : Truth :=
  all [isNull cj.requiredCapability,
    any [
      all [of (cj.kind = .ideaChat), of (cj.source = .system)],
      all [of (cj.kind = .taskImplementation), of (cj.source = .copilot),
        isNull cj.sprintRunId],
      all [of (cj.kind = .agentChat), of (cj.source = .manual)]]]

/-- The condition of a worker dedicated to one kind. -/
def dedicated (cj : JobRow) (only : String) (kind : JobKind) : Truth :=
  all [compare Eq cj.requiredCapability (some only), of (cj.kind = kind),
    of (cj.source ∈ [JobSource.system, .manual])]

def deployOnly (cj : JobRow) : Truth := dedicated cj "deploy" .deploy

def docsAuditOnly (cj : JobRow) : Truth := dedicated cj "docs_audit" .docsAudit

def generic (cj : JobRow) (capabilities : List String) : Truth :=
  if capabilities = [] then isNull cj.requiredCapability
  else any [isNull cj.requiredCapability,
    within cj.requiredCapability capabilities]

/-- The binding of a managed executor: the subquery finds its incarnation still
signed on, with the profile of the candidate unrevoked and in its scope. -/
def managedBinding (tables : ClaimTables) (row : ClaimRow) (e : ClaimExecutor) :
    Truth :=
  all [(isNull row.cj.dispatchRequestId).not,
    within row.profileRevisionId e.profileRevisionIds,
    someRow tables.incarnations fun di =>
      someRow tables.profiles fun dp =>
        all [compare Eq (some dp.id) row.profileRevisionId,
          compare Eq (some di.id) e.incarnationId,
          isNull di.signedOffAt,
          isNull dp.revokedAt,
          compare (fun id ids => id ∈ ids) row.profileRevisionId
            (some di.runtimeScope.profileRevisionIds)]]

end Condition

open Truth Condition in
/-- `claimConditionSql[name](e)`. A runtime that the enumeration does not know
makes the query fail, so that no row is selected. -/
def ClaimPredicate.sql (tables : ClaimTables) (row : ClaimRow) (e : ClaimExecutor) :
    ClaimPredicate → Truth
  | user => of (row.cj.userId = e.userId)
  | product => within (some row.cj.productId) e.productIds
  | runtime => of (row.cj.runtime.text = e.runtime)
  | queued => of (row.cj.status = .queued)
  | binding =>
      if e.managed = true then managedBinding tables row e
      else isNull row.cj.dispatchRequestId
  | capability =>
      if e.runtime = "HARNESS" then harness row.cj
      else if e.capabilities = ["deploy"] then deployOnly row.cj
      else if e.capabilities = ["docs_audit"] then docsAuditOnly row.cj
      else generic row.cj e.capabilities
  | kind =>
      if e.runtime = "HARNESS" then .holds
      else if e.managed = true then managedKind row.cj
      else ordinaryKind row
  | sprint => Condition.sprint tables.jobs row.cj
  | quota => any [isNull e.quotaPct, compare GE.ge e.quotaPct (some e.minQuotaPct)]

/-- `buildClaimPredicateFragment`. -/
def buildClaimPredicateFragment (executor : ClaimExecutor) (tables : ClaimTables) (row : ClaimRow) :
    Truth :=
  Truth.all (ClaimPredicate.names.map fun name => name.sql tables row executor)

/-! ## The older filters -/

/-- `ClaimSqlFilterInput`: the product is there exactly with a product scope. -/
structure ClaimSqlFilterInput where
  userId : String
  productId : Option String
  runtime : AgentRuntime
  capabilities : Option (List String)

/-- The executor that stands for the input. -/
abbrev ClaimSqlFilterInput.executor (input : ClaimSqlFilterInput) :
    ClaimExecutor where
  userId := input.userId
  productIds := input.productId.toList
  runtime := input.runtime.text
  capabilities := input.capabilities.getD []
  managed := false
  incarnationId := none
  profileRevisionIds := []
  quotaPct := none
  minQuotaPct := 0

/-- `['deploy', 'docs_audit'].includes(capabilities[0])`, alone. -/
def Dedicated (capabilities : List String) : Prop :=
  capabilities = ["deploy"] ∨ capabilities = ["docs_audit"]

instance (capabilities : List String) : Decidable (Dedicated capabilities) :=
  inferInstanceAs (Decidable (_ ∨ _))

open ClaimPredicate in
/-- `buildClaimableJobWhereFragment`. -/
def buildClaimableJobWhereFragment
    (input : ClaimSqlFilterInput) (tables : ClaimTables) (row : ClaimRow) :
    Truth :=
  let e := input.executor
  let sql (name : ClaimPredicate) := name.sql tables row e
  Truth.all <|
    [sql user] ++ (input.productId.map fun id => Truth.of (row.cj.productId = id)).toList ++
      [sql runtime, sql queued, sql binding, sql capability] ++
      if e.runtime = "HARNESS" ∨ Dedicated e.capabilities then []
      else [sql kind]

/-- `ClaimFilterInput`. -/
structure ClaimFilterInput where
  runtime : AgentRuntime
  hasProductScope : Bool
  capabilities : Option (List String)

/-- What a caller puts in the places that the template leaves open. -/
structure TemplateValues where
  userId : String
  productId : String
  capabilities : List String

open Truth in
/-- `buildClaimableJobWhereClause`, with its places filled in. -/
def buildClaimableJobWhereClause
    (input : ClaimFilterInput) (values : TemplateValues) (row : ClaimRow) :
    Truth :=
  let cj := row.cj
  let scope :=
    [of (cj.userId = values.userId)] ++
      (if input.hasProductScope then [of (cj.productId = values.productId)]
        else []) ++
      [of (cj.runtime = input.runtime), of (cj.status = .queued),
        isNull cj.dispatchRequestId]
  if input.runtime = .harness then
    all <| scope ++ [isNull cj.requiredCapability,
        any [
          all [of (cj.kind = .ideaChat), of (cj.source = .system)],
          all [of (cj.kind = .taskImplementation), of (cj.source = .copilot),
            isNull cj.sprintRunId],
          all [of (cj.kind = .agentChat), of (cj.source = .manual)]]]
  else if input.capabilities.getD [] = ["deploy"] then
    all <| scope ++ [compare Eq cj.requiredCapability (some "deploy"), of (cj.kind = .deploy),
        of (cj.source ∈ [JobSource.system, .manual])]
  else if input.capabilities.getD [] = ["docs_audit"] then
    all <| scope ++ [compare Eq cj.requiredCapability (some "docs_audit"),
        of (cj.kind = .docsAudit),
        of (cj.source ∈ [JobSource.system, .manual])]
  else
    let capabilityFilter :=
      if input.capabilities.getD [] = [] then isNull cj.requiredCapability
      else any [isNull cj.requiredCapability,
        within cj.requiredCapability values.capabilities]
    all (scope ++ [capabilityFilter, Condition.ordinaryKind row])

/-- The input of the template and the values for it, from one input. -/
abbrev ClaimSqlFilterInput.template (input : ClaimSqlFilterInput) :
    ClaimFilterInput × TemplateValues where
  fst :=
    { runtime := input.runtime
      hasProductScope := input.productId.isSome
      capabilities := input.capabilities }
  snd :=
    { userId := input.userId
      productId := input.productId.getD ""
      capabilities := input.capabilities.getD [] }

end Jobs
end Scrum4Me
