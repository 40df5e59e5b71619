import Scrum4Me.Jobs.ClaimSql

/-!
# One contract

Every condition selects the rows on which its predicate holds, apart from rows
whose identifiers are empty texts: a predicate takes an empty identifier for an
absent one, a condition does not. The fragments and the template follow.
-/

namespace Scrum4Me
namespace Jobs

open Foundation

/-- No identifier that the policy asks for is the empty text. -/
structure JobRow.PlainIds (cj : JobRow) : Prop where
  task : cj.taskId ≠ some ""
  idea : cj.ideaId ≠ some ""
  sprintRun : cj.sprintRunId ≠ some ""

/-- The incarnation that the executor names is signed on with its profile list
as frozen scope, and the profile of the candidate is not revoked. -/
structure LiveBinding
    (tables : ClaimTables) (row : ClaimRow) (e : ClaimExecutor) :
    Prop where
  incarnation : ∀ id ∈ e.incarnationId, ∃ di ∈ tables.incarnations,
    di.id = id ∧ di.signedOffAt = none ∧
      di.runtimeScope.profileRevisionIds = e.profileRevisionIds
  profile : ∀ id ∈ row.profileRevisionId, ∃ dp ∈ tables.profiles,
    dp.id = id ∧ dp.revokedAt = none

theorem falsy_iff {text : Option String} (plain : text ≠ some "") : Falsy text ↔ text = none := by
  simp [Falsy, plain]

/-! ## Condition by condition -/

section Conditions

variable {tables : ClaimTables} {row : ClaimRow} {e : ClaimExecutor}

open ClaimPredicate

theorem sprint_holds (plain : row.cj.PlainIds) :
    sprint.sql tables row e = .holds ↔ sprint.Holds (row.claimJob tables) e := by
  simp [ClaimPredicate.sql, Condition.sprint, Holds, ClaimRow.claimJob,
    falsy_iff plain.sprintRun, Condition.earlierSibling_holds, EarlierSibling]

theorem ordinaryKind_holds (plain : row.cj.PlainIds) :
    Condition.ordinaryKind row = .holds ↔ OrdinaryKind (row.claimJob tables) := by
  simp [Condition.ordinaryKind, OrdinaryKind, ClaimRow.claimJob,
    falsy_iff plain.task, falsy_iff plain.idea, falsy_iff plain.sprintRun,
    or_and_right, or_assoc]

theorem managedKind_holds :
    Condition.managedKind row.cj = .holds ↔ ManagedKind (row.claimJob tables) := by
  simp [Condition.managedKind, ManagedKind, ClaimRow.claimJob]

theorem harness_holds : Condition.harness row.cj = .holds ↔ HarnessJob (row.claimJob tables) := by
  simp [Condition.harness, HarnessJob, ClaimRow.claimJob]

theorem dedicated?_eq_none {capabilities : List String} (deploy : capabilities ≠ ["deploy"])
    (docsAudit : capabilities ≠ ["docs_audit"]) :
    dedicated? capabilities = none := by
  unfold dedicated?
  split
  · next only =>
    have other : only ∉ ["deploy", "docs_audit"] := by simp_all
    simp only [other, if_false]
  · rfl

/-- The kind of a dedicated worker is its capability in capitals. -/
theorem text_eq_upper (kind : JobKind) :
    (kind.text = "deploy".toUpper ↔ kind = .deploy) ∧
      (kind.text = "docs_audit".toUpper ↔ kind = .docsAudit) := by
  cases kind <;> decide +kernel

theorem capable_holds (capabilities : List String) :
    (if capabilities = ["deploy"] then Condition.deployOnly row.cj
      else if capabilities = ["docs_audit"] then Condition.docsAuditOnly row.cj
      else Condition.generic row.cj capabilities) = .holds ↔
      CapableJob (row.claimJob tables) capabilities := by
  by_cases deploy : capabilities = ["deploy"]
  · subst deploy
    have only : dedicated? ["deploy"] = some "deploy" := by decide
    simp [CapableJob, only, Condition.deployOnly, Condition.dedicated,
      ClaimRow.claimJob, (text_eq_upper _).1]
  by_cases docsAudit : capabilities = ["docs_audit"]
  · subst docsAudit
    have only : dedicated? ["docs_audit"] = some "docs_audit" := by decide
    simp [CapableJob, only, Condition.docsAuditOnly, Condition.dedicated,
      ClaimRow.claimJob, (text_eq_upper _).2]
  · have several := dedicated?_eq_none deploy docsAudit
    simp only [if_neg deploy, if_neg docsAudit, CapableJob, several, Condition.generic]
    by_cases empty : capabilities = []
    · simp [empty, ClaimRow.claimJob]
    · simp [empty, ClaimRow.claimJob]

theorem capability_holds :
    capability.sql tables row e = .holds ↔ capability.Holds (row.claimJob tables) e := by
  by_cases harness : e.runtime = "HARNESS"
  · simp only [ClaimPredicate.sql, Holds, if_pos harness]
    exact harness_holds
  · simp only [ClaimPredicate.sql, Holds, if_neg harness]
    exact capable_holds e.capabilities

theorem kind_holds (plain : row.cj.PlainIds) :
    kind.sql tables row e = .holds ↔ kind.Holds (row.claimJob tables) e := by
  by_cases harness : e.runtime = "HARNESS"
  · simp [ClaimPredicate.sql, Holds, harness]
  · by_cases managed : e.managed = true
    · simp only [ClaimPredicate.sql, Holds, harness, managed, if_true, if_false, false_or]
      exact managedKind_holds
    · simp only [ClaimPredicate.sql, Holds, harness, managed, if_false,
        Bool.false_eq_true, false_or]
      exact ordinaryKind_holds plain

/-- The subquery of the managed binding succeeds with a live binding. -/
theorem managedBinding_holds (live : LiveBinding tables row e) :
    Condition.managedBinding tables row e = .holds ↔ ManagedBinding (row.claimJob tables) e := by
  constructor
  · intro selected
    simp only [Condition.managedBinding, Truth.all_cons, Truth.all_nil,
      Truth.and_holds, Truth.not_holds, Truth.isNull_fails, Truth.within_holds,
      Truth.someRow_holds, Truth.compare_holds] at selected
    obtain ⟨bound, listed, ⟨di, _, dp, _, _, ⟨_, _, id, named, _⟩, _⟩, _⟩ := selected
    refine ⟨?_, bound, listed⟩
    rw [Option.mem_def.1 named]
    exact Option.some_ne_none id
  · rintro ⟨named, bound, profile, ofCandidate, listed⟩
    obtain ⟨id, named⟩ := Option.ne_none_iff_exists'.1 named
    obtain ⟨di, known, rfl, signedOn, frozen⟩ := live.incarnation id named
    obtain ⟨dp, registered, rfl, unrevoked⟩ := live.profile profile ofCandidate
    replace ofCandidate : row.profileRevisionId = some dp.id := ofCandidate
    replace bound : row.cj.dispatchRequestId ≠ none := bound
    simp only [Condition.managedBinding, Truth.all_cons, Truth.all_nil,
      Truth.and_holds, Truth.not_holds, Truth.isNull_fails, Truth.within_holds,
      Truth.someRow_holds, and_true]
    refine ⟨bound, ⟨dp.id, ofCandidate, listed⟩, di, known, dp, registered, ?_⟩
    simp [ofCandidate, named, signedOn, unrevoked, frozen, listed]

theorem binding_holds (live : e.managed = true → LiveBinding tables row e) :
    binding.sql tables row e = .holds ↔ binding.Holds (row.claimJob tables) e := by
  by_cases managed : e.managed = true
  · simp only [ClaimPredicate.sql, Holds, if_pos managed, managedBinding_holds (live managed)]
  · simp [ClaimPredicate.sql, Holds, managed, ClaimRow.claimJob]

theorem quota_holds : quota.sql tables row e = .holds ↔ quota.Holds (row.claimJob tables) e := by
  cases unknown : e.quotaPct <;> simp [ClaimPredicate.sql, Holds, unknown]

/-- Every condition selects what its predicate accepts. -/
theorem sql_holds (plain : row.cj.PlainIds) (live : e.managed = true → LiveBinding tables row e)
    (name : ClaimPredicate) :
    name.sql tables row e = .holds ↔ name.Holds (row.claimJob tables) e := by
  cases name with
  | binding => exact binding_holds live
  | capability => exact capability_holds
  | kind => exact kind_holds plain
  | sprint => exact sprint_holds plain
  | quota => exact quota_holds
  | _ => simp [ClaimPredicate.sql, Holds, ClaimRow.claimJob]

/-! ## The three filters -/

theorem fragment_holds
    (plain : row.cj.PlainIds) (live : e.managed = true → LiveBinding tables row e) :
    buildClaimPredicateFragment e tables row = .holds ↔
      evaluateClaimPredicates (row.claimJob tables) e = [] := by
  rw [evaluateClaimPredicates_nil, buildClaimPredicateFragment, Truth.all_holds,
    List.forall_mem_map]
  constructor
  · intro every name
    exact (sql_holds plain live name).1 (every name (mem_names name))
  · intro every name _
    exact (sql_holds plain live name).2 (every name)

/-- The kind predicate, where the older filter leaves its condition out. -/
theorem kind_of_capability
    {j : ClaimJob} (dropped : e.runtime = "HARNESS" ∨ Dedicated e.capabilities)
    (unmanaged : e.managed = false) (capable : capability.Holds j e) :
    kind.Holds j e := by
  rcases dropped with harness | dedicated
  · exact .inl harness
  · by_cases harness : e.runtime = "HARNESS"
    · exact .inl harness
    · refine .inr ?_
      rw [if_neg (by simp [unmanaged])]
      refine .inr (.inl ?_)
      simp only [Holds, if_neg harness] at capable
      rcases dedicated with deploy | docsAudit
      · have only : dedicated? ["deploy"] = some "deploy" := by decide
        simp only [deploy, CapableJob, only, (text_eq_upper _).1] at capable
        exact ⟨by simp [capable.2.1], capable.2.2⟩
      · have only : dedicated? ["docs_audit"] = some "docs_audit" := by decide
        simp only [docsAudit, CapableJob, only, (text_eq_upper _).2] at capable
        exact ⟨by simp [capable.2.1], capable.2.2⟩

/-- What the older filter asks of a job. -/
def ClaimSqlFilterInput.Accepts (input : ClaimSqlFilterInput) (j : ClaimJob) :
    Prop :=
  (∀ name ∈ [user, .runtime, queued, binding, capability, kind],
    name.Holds j input.executor) ∧
    ∀ scope ∈ input.productId, j.productId = scope

theorem whereFragment_holds {input : ClaimSqlFilterInput} (plain : row.cj.PlainIds) :
    buildClaimableJobWhereFragment input tables row = .holds ↔
      input.Accepts (row.claimJob tables) := by
  have same := @sql_holds tables row input.executor plain (by simp [ClaimSqlFilterInput.executor])
  have productScope : (∀ condition ∈ (input.productId.map fun id =>
      Truth.of (row.cj.productId = id)).toList, condition = .holds) ↔
      ∀ scope ∈ input.productId, (row.claimJob tables).productId = scope := by
    cases input.productId <;> simp [ClaimRow.claimJob]
  simp only [buildClaimableJobWhereFragment, Truth.all_holds,
    List.forall_mem_append, List.forall_mem_cons, same, productScope,
    ClaimSqlFilterInput.Accepts]
  by_cases dropped : input.executor.runtime = "HARNESS" ∨ Dedicated input.executor.capabilities
  · have implied := kind_of_capability (j := row.claimJob tables) dropped rfl
    simp only [if_pos dropped, List.not_mem_nil, false_implies, implies_true]
    tauto
  · simp only [if_neg dropped, List.forall_mem_cons, List.not_mem_nil,
      false_implies, implies_true, same]
    tauto

/-- The template selects what the fragment selects. -/
theorem whereClause_holds (input : ClaimSqlFilterInput) :
    buildClaimableJobWhereClause input.template.1 input.template.2 row = .holds ↔
      buildClaimableJobWhereFragment input tables row = .holds := by
  obtain ⟨userId, productId, worker, capabilities⟩ := input
  have productScope : (if productId.isSome = true then
      [Truth.of (row.cj.productId = productId.getD "")] else []) =
      (productId.map fun id => Truth.of (row.cj.productId = id)).toList := by
    cases productId <;> simp
  have harnessText : worker.text = "HARNESS" ↔ worker = .harness :=
    AgentRuntime.text_inj worker .harness
  simp only [buildClaimableJobWhereClause, buildClaimableJobWhereFragment,
    ClaimSqlFilterInput.executor, ClaimPredicate.sql, harnessText,
    AgentRuntime.text_inj, productScope]
  by_cases harness : worker = .harness
  · simp [harness, Truth.all_append_holds, Condition.harness]
  by_cases deploy : capabilities.getD [] = ["deploy"]
  · simp [harness, deploy, Truth.all_append_holds, Dedicated,
      Condition.deployOnly, Condition.dedicated]
  by_cases docsAudit : capabilities.getD [] = ["docs_audit"]
  · simp [harness, docsAudit, Truth.all_append_holds, Dedicated,
      Condition.docsAuditOnly, Condition.dedicated]
  · simp [harness, deploy, docsAudit, Truth.all_append_holds, Dedicated, Condition.generic]

end Conditions

/-- The three versions of the policy agree: the fragment selects the rows that
pass every predicate, the older fragment those that pass its predicates, and the
template those of the older fragment. -/
theorem claim_contract (tables : ClaimTables) (row : ClaimRow) :
    (row.cj.PlainIds → (∀ e : ClaimExecutor, (e.managed = true → LiveBinding tables row e) →
        (buildClaimPredicateFragment e tables row = .holds ↔
          evaluateClaimPredicates (row.claimJob tables) e = [])) ∧
      ∀ input : ClaimSqlFilterInput,
        (buildClaimableJobWhereFragment input tables row = .holds ↔
          input.Accepts (row.claimJob tables))) ∧
      ∀ input : ClaimSqlFilterInput,
        (buildClaimableJobWhereClause input.template.1 input.template.2 row =
            .holds ↔
          buildClaimableJobWhereFragment input tables row = .holds) :=
  ⟨fun plain =>
    ⟨fun _ live => fragment_holds plain live, fun _ => whereFragment_holds plain⟩,
    fun input => whereClause_holds input⟩

namespace ClaimSample

def cj : JobRow where
  id := "job"
  userId := "owner"
  productId := "product"
  taskId := none
  ideaId := none
  sprintRunId := none
  sprintSequence := none
  kind := .queueTask
  status := .queued
  runtime := .codex
  source := .copilot
  requiredCapability := none
  workerInstanceId := none
  dispatchRequestId := some 1
  dispatchCandidateId := some 2
  createdAt := 0

/-- A queued managed job with the candidate it belongs to. -/
def row : ClaimRow where
  cj := cj
  sr := none
  dc := some
    { id := 2, generation := 1, route := .job, profileRevisionId := 3
      incarnationId := none, state := .reserved, reservedSlotId := 4
      deadline := 60, jobId := none, firstClaimedAt := none, claimKey := none }

def tables : ClaimTables where
  jobs := [cj]
  incarnations := [{
    id := 5, slotId := 4, bootId := "boot"
    credentialHash := Dispatch.credentialHash (.text "session")
    lastSeenAt := 0, signedOffAt := none, busy := false
    runtimeScope := {
      runtime := .codex, productIds := ["product"], capabilities := []
      tier := none, workerInstanceId := none, profileRevisionIds := [3]
      imageDigest := "image", profileSha256 := "profile"
      supervisorTokenId := "token" } }]
  profiles := [{
    id := 3, key := "profile", revision := 1, productId := "product"
    ownerUserId := "owner"
    config := {
      protocol := "dispatch-v1", productIds := ["product"], actions := []
      runtime := .codex, access := .read, publishModes := []
      environmentKeys := [], repositoryProductIds := [], imageDigest := "image"
      maxDurationSeconds := 60 }
    sha256 := "profile", revokedAt := none }]

def executor : ClaimExecutor where
  userId := "owner"
  productIds := ["product"]
  runtime := "CODEX"
  capabilities := []
  managed := true
  incarnationId := some 5
  profileRevisionIds := [3]
  quotaPct := none
  minQuotaPct := 10

theorem plainIds : row.cj.PlainIds := ⟨by decide, by decide, by decide⟩

theorem liveBinding : LiveBinding tables row executor where
  incarnation := by simp [executor, tables]
  profile := by simp [row, tables, ClaimRow.profileRevisionId]

/-- A conversation on a plan whose task has the empty text as identifier. -/
def unnamedTask : ClaimRow where
  cj := { cj with
    kind := .planChat, source := .orchestrator, taskId := some ""
    dispatchRequestId := none, dispatchCandidateId := none }
  sr := none
  dc := none

def ordinary : ClaimExecutor :=
  { executor with
    managed := false, incarnationId := none, profileRevisionIds := [] }

end ClaimSample

/-- The managed job of the sample is selected and passes every predicate. -/
theorem claim_contract_managed :
    buildClaimPredicateFragment ClaimSample.executor ClaimSample.tables ClaimSample.row = .holds ∧
      evaluateClaimPredicates (ClaimSample.row.claimJob ClaimSample.tables)
        ClaimSample.executor = [] := by
  have agree := ((claim_contract ClaimSample.tables ClaimSample.row).1
    ClaimSample.plainIds).1 ClaimSample.executor fun _ => ClaimSample.liveBinding
  have passes : evaluateClaimPredicates
      (ClaimSample.row.claimJob ClaimSample.tables) ClaimSample.executor = [] := by
    decide
  exact ⟨agree.2 passes, passes⟩

/-- With an empty identifier the predicates accept what the query leaves. -/
theorem empty_identifier_disagrees :
    evaluateClaimPredicates (ClaimSample.unnamedTask.claimJob ClaimSample.tables)
        ClaimSample.ordinary = [] ∧
      buildClaimPredicateFragment ClaimSample.ordinary ClaimSample.tables
        ClaimSample.unnamedTask ≠ .holds := by
  decide

end Jobs
end Scrum4Me
