import Scrum4Me.Jobs.Machine

/-!
# The context of a claimed job

`getFullJobContext` builds what a worker gets with its claim. A kind that cannot be
served leaves by one of several ways: the claim is rolled back, so that the job is queued
again where it was; the job ends; or it stays claimed.
-/

namespace Scrum4Me
namespace Jobs

/-! ## What is found for a job -/

/-- A document that is to be reviewed, with the text of its current revision. -/
structure ReviewDoc where
  folder : String
  content : Option String

/-- What the review of a task reads of the task. -/
structure ReviewTask where
  repoUrl : Option String

/-- `resolveTaskImplContext`. -/
structure TaskImplContext where
  baseSha : Option String
  headSha : Option String
  prUrl : Option String

/-- A diff, or `{error}`. -/
inductive Fetched
  | diff (text : String)
  | error (message : String)

structure IdeaFacts where
  productId : Option String
  /-- The products beside it, each with its repository. -/
  secondaryProducts : List (String × Option String)

/-- `resolveRepoRoot`. -/
inductive RepoRoot
  | resolved
  | unresolved
  | terminal (reason : String)
  | lost

/-- What the reads for one job find, apart from its own row. -/
structure Findings where
  /-- The product of a chat is outside the scope of the token. -/
  outOfScope : Bool
  /-- `payload.skip` of a chat. -/
  chatSkip : Option String
  docId : Option String
  doc : Option ReviewDoc
  task : Option ReviewTask
  impl : TaskImplContext
  /-- `product.repo_url`. -/
  repoUrl : Option String
  compareDiff : Fetched
  prDiff : Fetched
  /-- `product.deploy_flow`. -/
  deployFlow : Option String
  /-- `manual_drafts[0]` exists. -/
  draft : Bool
  idea : Option IdeaFacts
  /-- `setupProductWorktrees` succeeds for these products. -/
  productWorktrees : List String → Bool
  repoRoot : RepoRoot
  /-- The worktree of the sprint can be made. -/
  sprintWorktree : Bool
  /-- The transaction that saves the scope of the sprint commits. -/
  scopeSaved : Bool

/-- `resolveRuntimeJobConfig`, as far as it refuses a job. It refuses kinds and
configurations of the harness, and a chat that another runtime claimed. -/
structure ConfigResolver where
  refusal : String → JobKind → AgentRuntime → Option String
  ordinary : ∀ jobId kind runtime, runtime ≠ .harness → kind ≠ .agentChat →
    refusal jobId kind runtime = none

/-- What stays as it is around the jobs. -/
structure Surroundings where
  resolver : ConfigResolver
  /-- `FORGEJO_HOSTS`. -/
  hosts : List String
  found : String → Findings
  /-- `tasks.implementation_plan`. -/
  plan : String → String
  /-- The last message of the conversation on the idea of a job. -/
  cutoff : String → Option (String × Moment)

/-! ## Pull requests -/

/-- The address parses: `https://host/owner/repo/pulls/N` on a known host. -/
def ForgejoPrUrl (hosts : List String) (url : String) : Prop :=
  let parts := (trimmed (some url)).splitOn '/'
  let part := fun index => parts.getD index []
  (part 0 = "http:".toList ∨ part 0 = "https:".toList) ∧ part 1 = [] ∧
    (∀ index ∈ [2, 3, 4], part index ≠ []) ∧ part 5 = "pulls".toList ∧
    part 6 ≠ [] ∧ (part 6).all Char.isDigit ∧
    (parts.length = 7 ∨ parts.length = 8 ∧ part 7 = []) ∧
    (part 2).map Char.toLower ≠ "github.com".toList ∧ String.ofList (part 2) ∈ hosts

instance (hosts : List String) (url : String) : Decidable (ForgejoPrUrl hosts url) :=
  inferInstanceAs (Decidable (_ ∧ _))

/-! ## The answer -/

inductive Answer
  /-- A payload. -/
  | context
  /-- `null`. -/
  | nothing
  /-- `TerminalJobError`. -/
  | terminal (reason : String)
  /-- `AgentChatSkippedError`. -/
  | skipped (reason : String)
  /-- `RuntimeMismatchError`. -/
  | runtimeMismatch
  /-- Any other exception. -/
  | thrown
  deriving DecidableEq

/-- The job after the call, and its answer. -/
abbrev Handled := JobRow × Answer

section Context

variable (found : Findings) (owner : Owner) (now : Moment) (job : JobRow)

/-- `rollbackClaim`, on the row. -/
def rollbackClaim : JobRow :=
  (Statement.rollbackClaim job.id owner).apply
    ((Statement.refreshOwnership job.id owner now).apply job)

/-- The claim is rolled back and nothing is returned. -/
def givenBack : Handled := (rollbackClaim owner now job, .nothing)

def agentChatContext : Handled :=
  if found.outOfScope = true then
    (job, .terminal ("AGENT_CHAT_PRODUCT_OUT_OF_SCOPE: het token van de harness mag dit " ++
      "product niet lezen (scoped_products)"))
  else
    found.chatSkip.elim (job, .context) fun reason =>
      ((Statement.skipAgentChatJob job.id owner reason now).apply job, .skipped reason)

/-- A document that can be reviewed. -/
def Reviewable : Prop :=
  ¬ Falsy found.docId ∧
    ∃ doc ∈ found.doc, doc.folder = "SPECS" ∧ ¬ Falsy doc.content

instance : Decidable (Reviewable found) :=
  inferInstanceAs (Decidable (_ ∧ _))

/-- The repository of the task, else that of the product. -/
def diffRepoUrl (task : ReviewTask) : Option String := task.repoUrl.or found.repoUrl

def CanCompare (task : ReviewTask) : Prop :=
  ¬ Falsy (diffRepoUrl found task) ∧ ¬ Falsy found.impl.baseSha ∧
    ¬ Falsy found.impl.headSha ∧ found.impl.baseSha ≠ found.impl.headSha

instance (task : ReviewTask) : Decidable (CanCompare found task) :=
  inferInstanceAs (Decidable (_ ∧ _))

def CanPr : Prop := ¬ Falsy found.impl.prUrl

instance : Decidable (CanPr found) :=
  inferInstanceAs (Decidable (¬ _))

def Fetched.text : Fetched → String
  | .diff text => text
  | .error _ => ""

def Fetched.errors (source : String) : Fetched → List String
  | .diff _ => []
  | .error message => [source ++ ": " ++ message]

/-- `taskDiff`; an empty diff counts as none. -/
def taskDiff (task : ReviewTask) : String :=
  let compared := if CanCompare found task then found.compareDiff.text else ""
  if compared = "" ∧ CanPr found then found.prDiff.text else compared

def fetchErrors (task : ReviewTask) : List String :=
  let compared := if CanCompare found task then found.compareDiff.text else ""
  (if CanCompare found task then found.compareDiff.errors "compare" else []) ++
    if compared = "" ∧ CanPr found then found.prDiff.errors "pr" else []

/-- `DIFF_FETCH_MAX_RETRIES`. -/
def diffFetchMaxRetries : Nat := 2

/-- A fetch that failed counts; the last one ends the job. -/
def diffFetchFailed (task : ReviewTask) : Handled :=
  let bumped := { job with retryCount := job.retryCount + 1 }
  if diffFetchMaxRetries ≤ bumped.retryCount then
    (bumped, .terminal ("TASK_REVIEW job " ++ job.id ++ ": diff-fetch mislukte " ++
      toString bumped.retryCount ++ "x en wordt niet opnieuw gequeued — " ++
      String.intercalate "; " (fetchErrors found task)))
  else givenBack owner now bumped

def taskReviewContext : Handled :=
  if Falsy job.taskId then
    (job, .terminal ("TASK_REVIEW job " ++ job.id ++ " heeft geen task_id"))
  else
    found.task.elim
      (job, .terminal ("TASK_REVIEW job " ++ job.id ++ ": task " ++ job.taskId.getD "" ++
        " bestaat niet (meer)"))
      fun task =>
        if ¬ CanCompare found task ∧ ¬ CanPr found then
          (job, .terminal ("TASK_REVIEW job " ++ job.id ++ ": geen diff-bron voor task " ++
            job.taskId.getD "" ++ " (geen base/head-sha, geen pr_url" ++
            (if Falsy (diffRepoUrl found task) then ", geen repo_url" else "") ++ ")"))
        else if taskDiff found task = "" then diffFetchFailed found owner now job task
        else (job, .context)

/-- The products of an idea that get a worktree. -/
def IdeaFacts.involvedProducts (idea : IdeaFacts) : List String :=
  idea.secondaryProducts.foldl (fun involved product =>
      if ¬ Falsy product.2 ∧ product.1 ∉ involved then involved ++ [product.1]
      else involved)
    (idea.productId.filter (· ≠ "")).toList

/-- The worktrees of the products of an idea cannot be made. -/
def WorktreesFail (idea : IdeaFacts) : Prop :=
  idea.involvedProducts ≠ [] ∧ found.productWorktrees idea.involvedProducts = false

instance (idea : IdeaFacts) : Decidable (WorktreesFail found idea) :=
  inferInstanceAs (Decidable (_ ∧ _))

def ideaContext : Handled :=
  found.idea.elim (job, .nothing) fun idea =>
    if WorktreesFail found idea then givenBack owner now job else (job, .context)

/-- The run of a sprint job is there. -/
def HasRun (runs : List SprintRunRow) (job : JobRow) : Prop :=
  ∃ run ∈ runs, job.sprintRunId = some run.id

instance (runs : List SprintRunRow) (job : JobRow) : Decidable (HasRun runs job) :=
  inferInstanceAs (Decidable (∃ _ ∈ _, _))

def sprintContext (runs : List SprintRunRow) : Handled :=
  if ¬ HasRun runs job then givenBack owner now job
  else
    match found.repoRoot with
    | .terminal reason => (job, .terminal reason)
    | .lost => (job, .thrown)
    | .unresolved => givenBack owner now job
    | .resolved =>
        if found.sprintWorktree = false then givenBack owner now job
        else if found.scopeSaved = false then (job, .thrown)
        else (job, .context)

/-- The kinds that are told apart by the source of the job first. -/
def contextBySource (runs : List SprintRunRow) : Handled :=
  if job.source = .manual then
    if found.draft = true then (job, .context) else givenBack owner now job
  else if job.source = .orchestrator then (job, .context)
  else if (job.kind = .planChat ∨ job.kind = .ideaChat) ∧ job.source = .system then
    found.idea.elim (job, .nothing) fun _ => (job, .context)
  else if job.kind ∈ [JobKind.ideaGrill, .ideaMakePlan, .ideaReviewPlan, .ideaMakeSpec,
      .ideaReviseSpec] then ideaContext found owner now job
  else if job.kind = .sprintImplementation then sprintContext found owner now job runs
  else found.task.elim (job, .nothing) fun _ => (job, .context)

def contextByKind (hosts : List String) (runs : List SprintRunRow) : Handled :=
  match job.kind with
  | .agentChat => agentChatContext found owner now job
  | .prReview =>
      if ForgejoPrUrl hosts (job.prUrl.getD "") then (job, .context)
      else givenBack owner now job
  | .specReview =>
      if Reviewable found then (job, .context) else givenBack owner now job
  | .taskReview => taskReviewContext found owner now job
  | .deploy =>
      if Falsy found.deployFlow then givenBack owner now job else (job, .context)
  | .docsAudit => (job, .context)
  | _ => contextBySource found owner now job runs

end Context

/-- `getFullJobContext`. -/
def getFullJobContext (around : Surroundings) (runs : List SprintRunRow) (runtime : AgentRuntime)
    (owner : Owner) (now : Moment) (job : JobRow) :
    Handled :=
  if ¬ job.Unmanaged then (job, .thrown)
  else if job.runtime ≠ runtime then
    ((Statement.releaseMismatchedClaim job.id owner).apply job, .runtimeMismatch)
  else
    (around.resolver.refusal job.id job.kind runtime).elim
      (contextByKind (around.found job.id) owner now job around.hosts runs)
      fun code => (job, .terminal code)

end Jobs
end Scrum4Me
