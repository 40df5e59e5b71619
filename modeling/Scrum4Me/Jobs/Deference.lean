import Scrum4Me.Jobs.ClaimSql

/-!
# Deferring to a higher tier

A worker with a tier leaves a job to an idle worker of a higher tier that could
claim it. The fragment that decides this repeats the claim filter of the peer in
its own words. Whatever the asking worker may claim and the fragment withholds,
the peer may claim, so some worker always goes first.
-/

namespace Scrum4Me
namespace Jobs

open Foundation

/-! ## The claim query of a worker -/

/-- The tables that a claim query reads, and the moment of its transaction. -/
structure WorkerTables extends ClaimTables where
  workers : List WorkerRow
  users : List UserRow
  now : Moment
  deriving DecidableEq

/-- `managedWorkerPollScope.test`. -/
def managedPollScope (instanceId : String) : Prop :=
  instanceId.startsWith "managed:" = true

instance (instanceId : String) : Decidable (managedPollScope instanceId) :=
  inferInstanceAs (Decidable (_ = true))

/-- The tiers in order; the enumeration itself is declared the other way. -/
def tierRank : Tier → Nat
  | .high => 3
  | .medium => 2
  | .low => 1

/-- `HigherTierIdleInput`. -/
structure HigherTierIdleInput where
  selfUserId : String
  selfInstanceId : String
  selfRuntime : AgentRuntime
  selfCapability : Option Tier

/-- `COALESCE(u.min_quota_pct, 0)` of the owner of a worker. -/
def minQuota (users : List UserRow) (w : WorkerRow) : Int :=
  ((users.find? fun u => u.id = w.userId).map (·.minQuotaPct)).getD 0

namespace Condition

open Truth

/-- The filter of a peer, in the words of the fragment. -/
def peerClaims (cj : JobRow) (w : WorkerRow) : Truth :=
  if w.capabilities = ["deploy"] then
    all [of (cj.kind = .deploy), compare Eq cj.requiredCapability (some "deploy"),
      of (cj.source ∈ [JobSource.system, .manual])]
  else if w.capabilities = ["docs_audit"] then
    all [of (cj.kind = .docsAudit),
      compare Eq cj.requiredCapability (some "docs_audit"),
      of (cj.source ∈ [JobSource.system, .manual])]
  else
    any [isNull cj.requiredCapability,
      within cj.requiredCapability w.capabilities]

def alive (now : Moment) (w : WorkerRow) : Truth :=
  of (now < w.lastSeenAt + 30000)

def sufficientQuota (users : List UserRow) (w : WorkerRow) : Truth :=
  any [isNull w.lastQuotaPct,
    compare GE.ge w.lastQuotaPct (some (minQuota users w))]

/-- The worker holds no job. -/
def idle (jobs : List JobRow) (w : WorkerRow) : Truth :=
  (someRow jobs fun k =>
    all [compare Eq k.workerInstanceId (some w.instanceId),
      of (k.status ∈ [JobStatus.claimed, .running])]).not

/-- A worker to defer to. -/
def higherTierPeer
    (input : HigherTierIdleInput) (tables : WorkerTables) (cj : JobRow) (w : WorkerRow) :
    Truth :=
  all [of (w.userId = input.selfUserId),
    any [isNull w.productId, compare Eq w.productId (some cj.productId)],
    of (w.runtime = input.selfRuntime),
    of (w.instanceId ≠ input.selfInstanceId),
    (of (managedPollScope w.instanceId)).not,
    compare GT.gt (w.tier.map tierRank) (input.selfCapability.map tierRank),
    peerClaims cj w,
    alive tables.now w,
    sufficientQuota tables.users w,
    idle tables.jobs w]

end Condition

/-- `buildHigherTierIdleFragment`. -/
def buildHigherTierIdleFragment
    (input : HigherTierIdleInput) (tables : WorkerTables) (cj : JobRow) :
    Truth :=
  (Truth.someRow tables.workers (Condition.higherTierPeer input tables cj)).not

/-- What the claim filter of a registered worker is built from. An empty
product is no scope. -/
abbrev WorkerRow.claimInput (w : WorkerRow) : ClaimSqlFilterInput where
  userId := w.userId
  productId := w.productId.filter (· ≠ "")
  runtime := w.runtime
  capabilities := some w.capabilities

abbrev WorkerRow.idleInput (w : WorkerRow) : HigherTierIdleInput where
  selfUserId := w.userId
  selfInstanceId := w.instanceId
  selfRuntime := w.runtime
  selfCapability := w.tier

/-- The own claim filter of a worker: its fragment and the sprint clause. -/
def WorkerRow.ownFilter (w : WorkerRow) (tables : WorkerTables) (row : ClaimRow) :
    Truth :=
  Truth.all [buildClaimableJobWhereFragment w.claimInput tables.toClaimTables row,
    Condition.sprint tables.jobs row.cj]

/-- The condition of the query in `tryClaimJob`; a worker without a tier defers
to nobody. -/
def WorkerRow.claimQuery (w : WorkerRow) (tables : WorkerTables) (row : ClaimRow) :
    Truth :=
  Truth.all [buildClaimableJobWhereFragment w.claimInput tables.toClaimTables row,
      if w.tier = none then .holds
      else buildHigherTierIdleFragment w.idleInput tables row.cj,
      Condition.sprint tables.jobs row.cj]

/-- A worker that can take a job now: an ordinary poller, alive, idle and with
quota left. -/
structure WorkerRow.Available (w : WorkerRow) (tables : WorkerTables) : Prop where
  registered : w ∈ tables.workers
  ordinary : ¬ managedPollScope w.instanceId
  alive : Condition.alive tables.now w = .holds
  quota : Condition.sufficientQuota tables.users w = .holds
  idle : Condition.idle tables.jobs w = .holds

/-! ## What the fragment withholds -/

section Peers

variable {tables : WorkerTables} {row : ClaimRow} {w peer : WorkerRow} {claims : ClaimTables}

/-- The older filter, condition by condition. -/
theorem whereFragment_iff {input : ClaimSqlFilterInput} :
    buildClaimableJobWhereFragment input claims row = .holds ↔ row.cj.userId = input.userId ∧
      (∀ product ∈ input.productId, row.cj.productId = product) ∧ row.cj.runtime = input.runtime ∧
      row.cj.status = .queued ∧ row.cj.dispatchRequestId = none ∧
      ClaimPredicate.capability.sql claims row input.executor = .holds ∧
      (input.runtime ≠ .harness → ¬ Dedicated (input.capabilities.getD []) →
        Condition.ordinaryKind row = .holds) := by
  have productScope : Truth.all (input.productId.map fun id =>
      Truth.of (row.cj.productId = id)).toList = .holds ↔
      ∀ product ∈ input.productId, row.cj.productId = product := by
    cases input.productId <;> simp
  have harnessText : input.runtime.text = "HARNESS" ↔ input.runtime = .harness :=
    AgentRuntime.text_inj input.runtime .harness
  simp only [buildClaimableJobWhereFragment, Truth.all_append_holds, productScope]
  by_cases dropped : input.executor.runtime = "HARNESS" ∨ Dedicated input.executor.capabilities
  · have noKind : (input.runtime ≠ .harness → ¬ Dedicated (input.capabilities.getD []) →
        Condition.ordinaryKind row = .holds) ↔ True := by
      refine iff_true_intro fun other general => absurd dropped ?_
      simp [harnessText, other, general]
    simp [if_pos dropped, noKind, ClaimPredicate.sql, AgentRuntime.text_inj, and_assoc]
  · have general : input.runtime ≠ .harness ∧ ¬ Dedicated (input.capabilities.getD []) := by
      simpa [harnessText] using dropped
    simp [ClaimPredicate.sql, AgentRuntime.text_inj, general, harnessText, and_assoc]

/-- A worker dedicated to one kind claims jobs that need its capability. -/
theorem dedicated_capability {e : ClaimExecutor} (other : e.runtime ≠ "HARNESS")
    (general : Dedicated e.capabilities)
    (capable : ClaimPredicate.capability.sql claims row e = .holds) :
    Condition.ordinaryKind row = .holds := by
  rcases general with deploy | docsAudit
  · simp [ClaimPredicate.sql, other, deploy, Condition.deployOnly, Condition.dedicated] at capable
    simp [Condition.ordinaryKind, capable]
  · simp [ClaimPredicate.sql, other, docsAudit, Condition.docsAuditOnly,
      Condition.dedicated] at capable
    simp [Condition.ordinaryKind, capable]

/-- Whatever a worker may claim and the guard lets a peer of its runtime block,
that peer has the capability for. -/
theorem peer_capability (sameRuntime : peer.runtime = w.runtime)
    (own : ClaimPredicate.capability.sql claims row w.claimInput.executor = .holds)
    (guarded : Condition.peerClaims row.cj peer = .holds) :
    ClaimPredicate.capability.sql claims row peer.claimInput.executor = .holds := by
  by_cases harness : w.runtime.text = "HARNESS"
  · simpa [ClaimPredicate.sql, sameRuntime, harness] using own
  · simp only [ClaimPredicate.sql, sameRuntime, if_neg harness, Option.getD_some]
    unfold Condition.peerClaims at guarded
    by_cases deploy : peer.capabilities = ["deploy"]
    · simp [deploy, Condition.deployOnly, Condition.dedicated] at guarded ⊢
      tauto
    by_cases docsAudit : peer.capabilities = ["docs_audit"]
    · simp [docsAudit, Condition.docsAuditOnly, Condition.dedicated]
        at guarded ⊢
      tauto
    · simp only [if_neg deploy, if_neg docsAudit, Condition.generic] at guarded ⊢
      by_cases empty : peer.capabilities = []
      · simpa [empty] using guarded
      · simpa [empty] using guarded

/-- What it takes for a peer to be deferred to. -/
theorem higherTierPeer_holds :
    Condition.higherTierPeer w.idleInput tables row.cj peer = .holds ↔ peer.userId = w.userId ∧
      (∀ product ∈ peer.productId, row.cj.productId = product) ∧ peer.runtime = w.runtime ∧
      peer.instanceId ≠ w.instanceId ∧ ¬ managedPollScope peer.instanceId ∧
      (∃ higher ∈ peer.tier, ∃ own ∈ w.tier, tierRank own < tierRank higher) ∧
      Condition.peerClaims row.cj peer = .holds ∧ Condition.alive tables.now peer = .holds ∧
      Condition.sufficientQuota tables.users peer = .holds ∧
      Condition.idle tables.jobs peer = .holds := by
  have product : peer.productId = none ∨ peer.productId = some row.cj.productId ↔
      ∀ product ∈ peer.productId, row.cj.productId = product := by
    cases peer.productId <;> simp [eq_comm]
  simp only [← product]
  simp [Condition.higherTierPeer]

/-- A peer that blocks a job may claim it by its own filter. -/
theorem peer_ownFilter (own : w.ownFilter tables row = .holds)
    (blocks : Condition.higherTierPeer w.idleInput tables row.cj peer = .holds) :
    peer.ownFilter tables row = .holds := by
  simp only [WorkerRow.ownFilter, Truth.all_cons, Truth.all_nil,
    Truth.and_holds, and_true, whereFragment_iff] at own ⊢
  obtain ⟨⟨user, _, runtime, queued, unmanaged, capable, kind⟩, siblings⟩ := own
  obtain ⟨sameUser, product, sameRuntime, _, _, _, guarded, _⟩ := higherTierPeer_holds.1 blocks
  have ordinary (other : peer.runtime ≠ .harness) : Condition.ordinaryKind row = .holds := by
    rw [sameRuntime] at other
    by_cases general : Dedicated w.capabilities
    · refine dedicated_capability ?_ general capable
      exact (AgentRuntime.text_inj w.runtime .harness).not.2 other
    · exact kind other general
  refine ⟨⟨user.trans sameUser.symm, ?_, runtime.trans sameRuntime.symm, queued,
    unmanaged, peer_capability sameRuntime capable guarded,
    fun other _ => ordinary other⟩, siblings⟩
  intro scope filtered
  exact product scope ((Option.mem_filter_iff.1 filtered).1)

/-- A worker whose full query leaves a job that its own filter accepts defers to
some registered peer. -/
theorem blocked_by_peer (own : w.ownFilter tables row = .holds)
    (withheld : w.claimQuery tables row ≠ .holds) :
    ∃ peer ∈ tables.workers, Condition.higherTierPeer w.idleInput tables row.cj peer = .holds := by
  simp only [WorkerRow.ownFilter, Truth.all_cons, Truth.all_nil, Truth.and_holds, and_true] at own
  simp only [WorkerRow.claimQuery, Truth.all_cons, Truth.all_nil,
    ne_eq, Truth.and_holds, and_true, own, true_and] at withheld
  by_cases untiered : w.tier = none
  · exact absurd (if_pos untiered) withheld
  · rw [if_neg untiered, buildHigherTierIdleFragment, Truth.not_holds,
      Truth.someRow_fails] at withheld
    push Not at withheld
    exact withheld

end Peers

/-- Deferring cannot deadlock. A withheld job is withheld for a peer of a higher
tier that can take it; so when an available worker may claim a job, the full
query of some available worker accepts it. -/
theorem deference_progress (tables : WorkerTables) (row : ClaimRow) :
    (∀ w peer : WorkerRow, peer ∈ tables.workers →
      w.ownFilter tables row = .holds →
      Condition.higherTierPeer w.idleInput tables row.cj peer = .holds →
      (∃ higher ∈ peer.tier, ∃ own ∈ w.tier,
        tierRank own < tierRank higher) ∧
      peer.Available tables ∧
      peer.ownFilter tables row = .holds) ∧
    ∀ w : WorkerRow, w.Available tables → w.ownFilter tables row = .holds →
      ∃ first : WorkerRow, first.Available tables ∧
        first.userId = w.userId ∧ first.runtime = w.runtime ∧
        first.ownFilter tables row = .holds ∧
        first.claimQuery tables row = .holds := by
  have outranks (w peer : WorkerRow) (registered : peer ∈ tables.workers)
      (own : w.ownFilter tables row = .holds)
      (blocks : Condition.higherTierPeer w.idleInput tables row.cj peer =
        .holds) := by
    obtain ⟨_, _, _, _, ordinary, higher, _, alive, quota, idle⟩ :=
      higherTierPeer_holds.1 blocks
    exact And.intro higher (And.intro (WorkerRow.Available.mk registered ordinary alive quota idle)
      (peer_ownFilter own blocks))
  refine ⟨outranks, ?_⟩
  -- Each deferral climbs a tier, and there are three.
  intro w available own
  induction above : 3 - (w.tier.map tierRank).getD 0
    using Nat.strongRecOn generalizing w with
  | ind distance ih =>
    by_cases accepted : w.claimQuery tables row = .holds
    · exact ⟨w, available, rfl, rfl, own, accepted⟩
    obtain ⟨peer, registered, blocks⟩ := blocked_by_peer own accepted
    obtain ⟨⟨higher, tier, lower, ownTier, climbs⟩, ready, accepts⟩ :=
      outranks w peer registered own blocks
    have closer : 3 - (peer.tier.map tierRank).getD 0 < distance := by
      rw [← above, Option.mem_def.1 tier, Option.mem_def.1 ownTier]
      have bound : tierRank higher ≤ 3 := by cases higher <;> decide
      simp only [Option.map_some, Option.getD_some]
      omega
    obtain ⟨first, found, sameUser, sameRuntime, rest⟩ :=
      ih _ closer peer ready accepts rfl
    obtain ⟨user, _, runtime, _⟩ := higherTierPeer_holds.1 blocks
    exact ⟨first, found, sameUser.trans user, sameRuntime.trans runtime, rest⟩

namespace DeferenceSample

/-- A queued deployment. -/
def deployment : ClaimRow where
  cj :=
    { id := "job", userId := "owner", productId := "product", taskId := none
      ideaId := none, sprintRunId := none, sprintSequence := none
      kind := .deploy, status := .queued, runtime := .claude
      source := .system, requiredCapability := some "deploy"
      workerInstanceId := none, dispatchRequestId := none
      dispatchCandidateId := none, createdAt := 0 }
  sr := none
  dc := none

/-- A worker of the lowest tier that deploys and does nothing else. -/
def low : WorkerRow where
  userId := "owner"
  tokenId := "token"
  instanceId := "low"
  productId := none
  runtime := .claude
  capabilities := ["deploy"]
  lastSeenAt := 0
  lastQuotaPct := none
  tier := some .low

/-- A worker of the highest tier that also deploys. -/
def high : WorkerRow :=
  { low with
    instanceId := "high", productId := some "product"
    capabilities := ["review", "deploy"], lastQuotaPct := some 50
    tier := some .high }

def tables : WorkerTables where
  jobs := [deployment.cj]
  incarnations := []
  profiles := []
  workers := [low, high]
  users := [{ id := "owner", minQuotaPct := 20 }]
  now := 0

theorem available : low.Available tables where
  registered := by decide
  ordinary := by decide +kernel
  alive := by decide
  quota := by decide
  idle := by decide

end DeferenceSample

open DeferenceSample in
/-- The deployment is withheld from the lower worker for the higher one, and
some available worker claims it. -/
theorem deference_sample :
    low.claimQuery tables deployment ≠ .holds ∧
      high.ownFilter tables deployment = .holds ∧
      ∃ first : WorkerRow, first.Available tables ∧
        first.claimQuery tables deployment = .holds := by
  obtain ⟨soundness, progress⟩ := deference_progress tables deployment
  have own : low.ownFilter tables deployment = .holds := by decide +kernel
  refine ⟨by decide +kernel, ?_, ?_⟩
  · exact (soundness low high (by decide) own (by decide +kernel)).2.2
  · obtain ⟨first, ready, _, _, _, accepts⟩ := progress low available own
    exact ⟨first, ready, accepts⟩

end Jobs
end Scrum4Me
