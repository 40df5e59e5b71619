import Scrum4Me.Ppe.Generations

/-!
# The marked lane is fenced

From every state in order, every run leads through states in order. A lease is
renewed or cancelled only under the stored fences and with the token of the current
lease, a repeated registration gives the same consumer, and a call that throws
writes nothing.
-/

namespace Scrum4Me
namespace Ppe

open Foundation
open Jobs (Moment)
open Queue (MessageRow)

/-- What every reachable state satisfies. -/
structure World.Orderly (world : World) : Prop where
  oneCurrent : ∀ messageId, world.leases.countP
    (fun lease => lease.messageId = messageId ∧ lease.status = .current) ≤ 1
  agrees : ∀ row ∈ world.messages, Marked row → Agrees world.leases row
  increasing : world.leases.Pairwise fun earlier later =>
    earlier.messageId = later.messageId → earlier.leaseGeneration < later.leaseGeneration
  generations : ∀ runId lane, ∃ k ≤ 3,
    (world.lane runId lane).map (·.generation) = (List.range k).map (· + 1)
  oneLive : ∀ runId lane, (world.lane runId lane).countP (·.status ≠ .retired) ≤ 1

/-- The fences are the stored ones, and the token is that of the current lease unless
its digest collides. -/
structure Admitted
    (sha256 : String → String) (world : World) (input : LeaseInput) (now : Moment) :
    Prop where
  authority : world.Authorizes input.toConsumerAuthority now
  token : ∃ lease ∈ world.leases, input.Leases lease ∧
    ∃ grant ∈ world.grants, grant.key sha256 = lease.key ∧
      sha256 input.claimToken = sha256 grant.claimToken ∧
        ((∀ other, sha256 other = sha256 grant.claimToken → other = grant.claimToken) →
          input.claimToken = grant.claimToken)

/-- What the call of a step returns, without its answer. -/
def Step.outcome (sha256 : String → String) (world : World) : Step → Except String World
  | registerMarkedConsumer input consumerId now =>
      Prod.fst <$> Ppe.registerMarkedConsumer world input consumerId now
  | claimMarkedMessage input token skipped now =>
      Prod.fst <$> Ppe.claimMarkedMessage sha256 world input token skipped now
  | renewMarkedMessage input now =>
      Prod.fst <$> Ppe.renewMarkedMessage sha256 world input now
  | cancelMarkedMessage input now =>
      Prod.fst <$> Ppe.cancelMarkedMessage sha256 world input now
  | changeRuns .. => .ok world
  | changeConsumer .. => .ok world
  | push _ => .ok world

/-- The leases are still there, with their digests, and new ones come after them. -/
def World.Continues (world next : World) : Prop :=
  world.leases.map LeaseRow.key <+: next.leases.map LeaseRow.key

/-- What every step of a run satisfies. -/
structure Guarded (sha256 : String → String) (world : World) (step : Step) : Prop where
  renewed : ∀ input now, step = .renewMarkedMessage input now →
    (∃ after, step.outcome sha256 world = .ok after) → Admitted sha256 world input now
  cancelled : ∀ input now, step = .cancelMarkedMessage (.claimed input) now →
    (∃ after, step.outcome sha256 world = .ok after) → Admitted sha256 world input now
  replayed : ∀ input consumerId now,
    step = .registerMarkedConsumer input consumerId now →
      ∀ row ∈ world.consumers, row.operationKey = input.operationKey →
        execute sha256 world step = world ∧
          ∀ after answer, registerMarkedConsumer world input consumerId now =
            .ok (after, answer) → answer = row
  refused : ∀ error, step.outcome sha256 world = .error error →
    execute sha256 world step = world
  continues : world.Continues (execute sha256 world step)

variable {sha256 : String → String} {world : World} {step : Step}

theorem Fenced.orderly (fenced : Fenced sha256 world) : world.Orderly where
  oneCurrent := fenced.one_current
  agrees := fenced.agrees
  increasing := fenced.superseded.imp fun newer same => (newer same).1
  generations := fun runId lane => (fenced.lanes runId lane).1
  oneLive := fun runId lane => (fenced.lanes runId lane).one_live

theorem Fenced.admitted (fenced : Fenced sha256 world) {input : LeaseInput} {now : Moment}
    (locked : lockMarkedLease sha256 world input now = .ok ()) :
    Admitted sha256 world input now := by
  obtain ⟨authority, -, lease, member, leases, digest⟩ := lockMarkedLease_ok locked
  have key : lease.key ∈ world.grants.map (Grant.key sha256) :=
    fenced.tokens ▸ List.mem_map_of_mem member
  obtain ⟨grant, granted, same⟩ := List.mem_map.mp key
  have token : sha256 input.claimToken = sha256 grant.claimToken := by
    have columns := same
    simp only [Grant.key, LeaseRow.key, Prod.mk.injEq] at columns
    exact (columns.2.2.trans digest).symm
  exact ⟨authority, lease, member, leases, grant, granted, same, token,
    fun unique => unique _ token⟩

theorem continues_execute (world : World) (step : Step) :
    world.Continues (execute sha256 world step) := by
  have same : ∀ {matching : LeaseRow → Bool} {change : LeaseRow → LeaseRow},
      (∀ row, (change row).key = row.key) → world.leases.map LeaseRow.key <+:
        (updateWhere matching change world.leases).map LeaseRow.key := by
    intro matching change unchanged
    have fixed : (updateWhere matching change world.leases).map LeaseRow.key =
        world.leases.map LeaseRow.key := map_updateWhere_of_unchanged unchanged _
    exact fixed ▸ List.prefix_refl _
  have kept : world.Continues world := List.prefix_refl _
  cases step with
  | registerMarkedConsumer input consumerId now =>
    refine commit_induction kept fun next answer done => ?_
    rcases registerMarkedConsumer_ok done with ⟨-, -, rfl⟩ | ⟨-, -, -, rfl, -⟩ <;>
      exact kept
  | claimMarkedMessage input token skipped now =>
    refine commit_induction kept fun next answer done => ?_
    unfold claimMarkedMessage at done
    simp only [bind_eq_ok] at done
    obtain ⟨-, -, done⟩ := done
    split at done
    · cases done
      exact kept
    · simp only [insertLease, bind_eq_ok, ensure_eq_ok, pure_eq_ok] at done
      obtain ⟨_, ⟨-, -, rfl⟩, -, -, done⟩ := done
      cases done
      show _ <+: (world.leases ++ _).map _
      rw [List.map_append]
      exact List.prefix_append _ _
  | renewMarkedMessage input now =>
    refine commit_induction kept fun next answer done => ?_
    simp only [renewMarkedMessage, bind_eq_ok, ensure_eq_ok, pure_eq_ok] at done
    obtain ⟨-, -, -, -, done⟩ := done
    cases done
    exact same fun _ => rfl
  | cancelMarkedMessage input now =>
    refine commit_induction kept fun next answer done => ?_
    unfold cancelMarkedMessage at done
    simp only [bind_eq_ok, require_eq_ok, ensure_eq_ok] at done
    obtain ⟨-, -, row, -, -, -, done⟩ := done
    cases input with
    | pending =>
      simp only [bind_eq_ok, ensure_eq_ok, pure_eq_ok] at done
      obtain ⟨-, -, -, -, done⟩ := done
      cases done
      exact kept
    | claimed lease =>
      simp only [bind_eq_ok, ensure_eq_ok, pure_eq_ok] at done
      obtain ⟨-, -, -, -, -, -, done⟩ := done
      cases done
      exact same fun _ => rfl
  | changeRuns => exact kept
  | changeConsumer => exact kept
  | push row =>
    unfold execute
    dsimp only
    split <;> exact kept

theorem Fenced.guarded (fenced : Fenced sha256 world) (step : Step) :
    Guarded sha256 world step where
  renewed := by
    rintro input now rfl ⟨after, done⟩
    simp only [Step.outcome, map_eq_ok, Ppe.renewMarkedMessage, bind_eq_ok] at done
    obtain ⟨-, ⟨_, locked, -⟩, -⟩ := done
    exact fenced.admitted locked
  cancelled := by
    rintro input now rfl ⟨after, done⟩
    simp only [Step.outcome, map_eq_ok, Ppe.cancelMarkedMessage, bind_eq_ok] at done
    obtain ⟨-, ⟨_, -, -, -, -, -, -, -, _, locked, -⟩, -⟩ := done
    exact fenced.admitted locked
  replayed := by
    rintro input consumerId now rfl row member key
    have only : ∀ after answer, registerMarkedConsumer world input consumerId now =
        .ok (after, answer) → after = world ∧ answer = row := by
      intro after answer done
      rcases registerMarkedConsumer_ok done with ⟨inside, own, same⟩ | ⟨fresh, -⟩
      · exact ⟨same, List.inj_on_of_nodup_map fenced.keys inside member (own.trans key.symm)⟩
      · exact absurd (key ▸ List.mem_map_of_mem member) fresh
    refine ⟨?_, fun after answer done => (only after answer done).2⟩
    exact @commit_induction _ _ _ _ _ (· = world) rfl
      fun after answer done => (only after answer done).1
  refused := by
    intro error failed
    have throws : ∀ {ω : Type} {body : Except String (World × ω)},
        Prod.fst <$> body = .error error → commit body world = world := by
      intro ω body thrown
      cases body with
      | error => rfl
      | ok => cases thrown
    cases step with
    | registerMarkedConsumer => exact throws failed
    | claimMarkedMessage => exact throws failed
    | renewMarkedMessage => exact throws failed
    | cancelMarkedMessage => exact throws failed
    | _ => cases failed
  continues := continues_execute world step

/-! ## Runs -/

/-- A database without messages, leases and consumers is in order. -/
theorem fenced_empty (runs : List RunRow) (orchestrators : List OrchestratorRow) :
    Fenced sha256
      { runs, orchestrators, consumers := [], messages := [], leases := [],
        grants := [] } where
  ids := List.nodup_nil
  agrees := List.forall_mem_nil _
  owned := List.forall_mem_nil _
  superseded := List.Pairwise.nil
  tokens := rfl
  keys := List.nodup_nil
  lanes := fun _ _ => ⟨⟨0, by decide, rfl⟩, List.Pairwise.nil⟩

section Runs

private def start : World where
  runs := [⟨"r1", "orchestrator:r1", .active, 1⟩]
  orchestrators := [⟨"r1", 2, "orchestrator:r1", 100, "fence", .current⟩]
  consumers := []
  messages := []
  leases := []
  grants := []

private def authority : Authority := ⟨"r1", 1, 2, "fence"⟩

private def registers (generation : Nat) (operationKey : String) : RegisterInput :=
  { authority with
    lane := .codex
    generation := generation
    operationKey := operationKey
    configSha256 := "config"
    attestationSha256 := "attestation" }

private def consumes (consumerId : String) (generation : Nat) : ConsumerAuthority :=
  { authority with consumerId := consumerId, consumerGeneration := generation }

private def addressed : MessageRow where
  id := "m1"
  type := .task
  fromServer := "mac"
  fromModel := "opus"
  toServer := "nas"
  toModel := "codex"
  body := "build it"
  source := "cli"
  createdAt := 1
  marker :=
    { protocol := some ppeProtocol
      runId := some "r1"
      operationKey := some "dispatch:1"
      payloadSha256 := some "payload"
      fromPrincipal := some "orchestrator:r1"
      toConsumerId := some "c1"
      consumerGeneration := some 1 }

private def leased (claimToken : String) : LeaseInput :=
  { consumes "c1" 1 with messageId := "m1", leaseGeneration := 1, claimToken }

/-- A registration and its replay, a claim, a renewal with a wrong token and one with
the right token, a cancellation, and the next consumer of the lane. -/
private def laneRun : List Step :=
  [ .registerMarkedConsumer (registers 1 "k1") "c1" 3,
    .registerMarkedConsumer (registers 1 "k1") "c2" 4, .push addressed,
    .claimMarkedMessage { consumes "c1" 1 with types := [.task] } "t1" [] 5,
    .renewMarkedMessage (leased "t2") 6, .renewMarkedMessage (leased "t1") 7,
    .cancelMarkedMessage (.claimed (leased "t1")) 8,
    .changeConsumer "c1" .retired 9,
    .registerMarkedConsumer (registers 2 "k2") "c2" 10 ]

end Runs

end Ppe
end Scrum4Me
