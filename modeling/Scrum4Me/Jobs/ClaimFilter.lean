import Scrum4Me.Jobs.Schema
import Scrum4Me.Foundation.ThreeValued

/-!
# Which jobs an executor may claim

The policy exists three times: as predicates on a job in memory, as conditions
of a query that the predicates share their names with, and as the text of the
condition that older callers splice into a query. They are one contract.
-/

namespace Scrum4Me
namespace Jobs

open Foundation

/-- `ClaimJob`. -/
structure ClaimJob where
  userId : String
  productId : String
  runtime : AgentRuntime
  status : JobStatus
  kind : JobKind
  source : JobSource
  requiredCapability : Option String
  dispatchRequestId : Option Uuid
  profileRevisionId : Option Uuid
  sprintRunId : Option String
  sprintStatus : Option SprintRunStatus
  earlierSibling : Bool
  taskId : Option String
  ideaId : Option String

/-- `ClaimExecutor`. -/
structure ClaimExecutor where
  userId : String
  productIds : List String
  runtime : String
  capabilities : List String
  managed : Bool
  incarnationId : Option Uuid
  profileRevisionIds : List Uuid
  quotaPct : Option Int
  minQuotaPct : Int

/-- `CLAIMABLE_STANDALONE_KINDS`. -/
def standaloneKinds : List JobKind :=
  [.ideaGrill, .ideaMakePlan, .ideaReviewPlan, .ideaMakeSpec, .ideaReviseSpec,
    .ideaChat, .planChat, .prReview, .specReview, .taskReview]

/-- A text that counts as false: absent or empty. -/
def Falsy (text : Option String) : Prop := text = none ∨ text = some ""

instance (text : Option String) : Decidable (Falsy text) :=
  inferInstanceAs (Decidable (_ ∨ _))

/-- The one capability of a dedicated deployment or documentation worker. -/
def dedicated? : List String → Option String
  | [only] => if only ∈ ["deploy", "docs_audit"] then some only else none
  | _ => none

/-! ## Predicates -/

/-- The names of `claimPredicates`. -/
inductive ClaimPredicate
  | user | product | runtime | queued | binding | capability | kind | sprint
  | quota
  deriving DecidableEq

namespace ClaimPredicate

/-- The keys of `claimPredicates`, in their order. -/
def names : List ClaimPredicate :=
  [.user, .product, .runtime, .queued, .binding, .capability, .kind, .sprint,
    .quota]

theorem mem_names (name : ClaimPredicate) : name ∈ names := by
  cases name <;> decide

/-- What a `HARNESS` executor claims. -/
def HarnessJob (j : ClaimJob) : Prop :=
  j.requiredCapability = none ∧ (j.kind = .ideaChat ∧ j.source = .system ∨
      j.kind = .taskImplementation ∧ j.source = .copilot ∧
        j.sprintRunId = none ∨
      j.kind = .agentChat ∧ j.source = .manual)

instance (j : ClaimJob) : Decidable (HarnessJob j) :=
  inferInstanceAs (Decidable (_ ∧ _))

/-- What an executor of another runtime claims by its capabilities. -/
def CapableJob (j : ClaimJob) (capabilities : List String) : Prop :=
  match dedicated? capabilities with
  | some only =>
      j.requiredCapability = some only ∧ j.kind.text = only.toUpper ∧
        j.source ∈ [JobSource.system, .manual]
  | none =>
      j.requiredCapability = none ∨
        ∃ capability ∈ j.requiredCapability, capability ∈ capabilities

instance (j : ClaimJob) (capabilities : List String) :
    Decidable (CapableJob j capabilities) := by
  unfold CapableJob
  split <;> infer_instance

/-- The kinds that a managed executor claims. -/
def ManagedKind (j : ClaimJob) : Prop :=
  j.source = .copilot ∧
    j.kind ∈ [JobKind.queueTask, .queueReview, .taskImplementation] ∧
    j.sprintRunId = none

instance (j : ClaimJob) : Decidable (ManagedKind j) :=
  inferInstanceAs (Decidable (_ ∧ _))

/-- The kinds that an ordinary executor claims. -/
def OrdinaryKind (j : ClaimJob) : Prop :=
  j.kind ∈ standaloneKinds ∧ j.source ≠ .orchestrator ∨
    j.kind ∈ [JobKind.deploy, .docsAudit] ∧
      j.source ∈ [JobSource.system, .manual] ∨
    j.kind = .planChat ∧ j.source = .orchestrator ∧ Falsy j.taskId ∧
      Falsy j.ideaId ∧ Falsy j.sprintRunId ∨
    j.kind = .taskImplementation ∧ j.source ∈ [JobSource.manual, .copilot] ∨
    j.kind ∈ [JobKind.taskImplementation, .sprintImplementation] ∧
      j.sprintRunId ≠ none ∧
      ∃ status ∈ j.sprintStatus, status ∈ [SprintRunStatus.queued, .running]

instance (j : ClaimJob) : Decidable (OrdinaryKind j) :=
  inferInstanceAs (Decidable (_ ∨ _))

/-- The binding of a managed executor. -/
def ManagedBinding (j : ClaimJob) (e : ClaimExecutor) : Prop :=
  e.incarnationId ≠ none ∧ j.dispatchRequestId ≠ none ∧
    ∃ profile ∈ j.profileRevisionId, profile ∈ e.profileRevisionIds

instance (j : ClaimJob) (e : ClaimExecutor) : Decidable (ManagedBinding j e) :=
  inferInstanceAs (Decidable (_ ∧ _))

/-- `claimPredicates[name](j, e)`. -/
def Holds (j : ClaimJob) (e : ClaimExecutor) : ClaimPredicate → Prop
  | user => j.userId = e.userId
  | product => j.productId ∈ e.productIds
  | runtime => j.runtime.text = e.runtime
  | queued => j.status = .queued
  | binding =>
      if e.managed = true then ManagedBinding j e else j.dispatchRequestId = none
  | capability =>
      -- The runtime of the executor wins over its capabilities.
      if e.runtime = "HARNESS" then HarnessJob j else CapableJob j e.capabilities
  | kind =>
      e.runtime = "HARNESS" ∨
        if e.managed = true then ManagedKind j else OrdinaryKind j
  | sprint =>
      j.kind ≠ .taskImplementation ∨ Falsy j.sprintRunId ∨
        j.earlierSibling = false
  | quota => ∀ pct ∈ e.quotaPct, e.minQuotaPct ≤ pct

instance (j : ClaimJob) (e : ClaimExecutor) (name : ClaimPredicate) :
    Decidable (name.Holds j e) := by
  cases name <;> unfold Holds <;> infer_instance

end ClaimPredicate

/-- `evaluateClaimPredicates`: the names of the predicates that fail. -/
def evaluateClaimPredicates (job : ClaimJob) (executor : ClaimExecutor) :
    List ClaimPredicate :=
  ClaimPredicate.names.filter fun name => ¬ name.Holds job executor

theorem evaluateClaimPredicates_nil {job : ClaimJob} {executor : ClaimExecutor} :
    evaluateClaimPredicates job executor = [] ↔
      ∀ name : ClaimPredicate, name.Holds job executor := by
  simp only [evaluateClaimPredicates, List.filter_eq_nil_iff, decide_eq_true_eq, not_not]
  constructor
  · intro every name
    exact every name (ClaimPredicate.mem_names name)
  · intro every name _
    exact every name

end Jobs
end Scrum4Me
