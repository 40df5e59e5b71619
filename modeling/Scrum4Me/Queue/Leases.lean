import Scrum4Me.Queue.Steps

/-!
# Live claims stay in the register

The register of a process is keyed by the message alone, and three continuations
write to it on behalf of a claim that may be over: the registration, the
cancellation and the pruning after a refresh. A claim whose token a caller holds
keeps its entry as long as none of them hits the entry of another claim that its
row is under.
-/

namespace Scrum4Me
namespace Queue

open Foundation
open Jobs (Moment)

/-- The entry of the message is not that of another claim that the row is under. -/
def World.Spares (world : World) (process messageId claimedBy : String) : Prop :=
  ∀ lease ∈ getLease world.leases process messageId, ∀ row ∈ world.messages,
    row.ClaimedUnder lease.claimedBy → lease.claimedBy = claimedBy

instance (world : World) (process messageId claimedBy : String) :
    Decidable (world.Spares process messageId claimedBy) :=
  inferInstanceAs (Decidable (∀ _ ∈ _, _))

/-- The step does not write the entry of a live claim on behalf of another claim. -/
def Step.Undisturbed (world : World) : Step → Prop
  | registerLease claim => world.Spares claim.process claim.messageId claim.claimedBy
  | cancelClaim claim => world.Spares claim.process claim.messageId claim.claimedBy
  | refreshEnd process entry count _ =>
      count = 0 → world.Spares process entry.messageId entry.claimedBy
  | _ => True

instance (world : World) (step : Step) : Decidable (step.Undisturbed world) := by
  apply @Step.casesOn (fun step => Decidable (step.Undisturbed world)) step <;>
    intros <;> dsimp only [Step.Undisturbed] <;> infer_instance

/-- A claim whose token a caller holds is in the register while its row is claimed
under it, and a finish with the token passes its checks. -/
structure World.KeepsLive (world : World) : Prop where
  registered : ∀ claim ∈ world.returned, ∀ row ∈ world.messages,
    row.ClaimedUnder claim.claimedBy →
      getLease world.leases claim.process claim.messageId = some claim
  accepted : ∀ claim ∈ world.returned, ∀ row ∈ world.messages,
    row.ClaimedUnder claim.claimedBy → ∀ finish : Finish,
      finish.process = claim.process → finish.messageId = claim.messageId →
        finish.claimToken = some claim.claimToken →
          finish.verdict (world.message? finish.messageId)
            (getLease world.leases finish.process finish.messageId) = .ok ()

/-! ## The register -/

variable {leases : List Claim} {process messageId : String}

theorem getLease_registerLease (lease : Claim) :
    getLease (registerLease leases lease) lease.process lease.messageId = some lease := by
  unfold getLease registerLease
  rw [List.find?_append, List.find?_eq_none.mpr]
  · simp
  · intro other member same
    exact (mem_releaseLease.mp member).2 (of_decide_eq_true same)

theorem getLease_filter {keeps : Claim → Bool}
    (kept : ∀ lease ∈ leases, lease.process = process → lease.messageId = messageId →
      keeps lease = true) :
    getLease (leases.filter keeps) process messageId = getLease leases process messageId := by
  unfold getLease
  induction leases with
  | nil => rfl
  | cons lease rest ih =>
    have tail := ih fun other member => kept other (List.mem_cons_of_mem _ member)
    by_cases own : lease.process = process ∧ lease.messageId = messageId
    · simp [kept lease List.mem_cons_self own.1 own.2, own]
    · have missed : decide (lease.process = process ∧ lease.messageId = messageId) =
          false := decide_eq_false own
      rw [List.find?_cons, missed, ← tail, List.filter_cons]
      split
      · rw [List.find?_cons, missed]
      · rfl

theorem getLease_releaseLease
    {other otherId : String} (apart : ¬ (process = other ∧ messageId = otherId)) :
    getLease (releaseLease leases other otherId) process messageId =
      getLease leases process messageId := by
  refine getLease_filter fun lease _ own here => decide_eq_true ?_
  rw [own, here]
  exact apart

theorem getLease_registerLease_apart
    {lease : Claim} (apart : ¬ (process = lease.process ∧ messageId = lease.messageId)) :
    getLease (registerLease leases lease) process messageId =
      getLease leases process messageId := by
  rw [← @getLease_releaseLease leases process messageId _ _ apart]
  unfold getLease registerLease
  rw [List.find?_append, List.find?_cons_of_neg, List.find?_nil, Option.or_none]
  exact fun same => apart ((of_decide_eq_true same).imp Eq.symm Eq.symm)

/-! ## Claims on their way to a caller -/

/-- The claim that a call of `queue_next` is about. -/
def Call.claim? : Call → Option Claim
  | .claimed claim => some claim
  | .registered claim => some claim
  | .rollingBack claim => some claim
  | _ => none

/-- The claims of calls in flight and of callers. -/
def World.held (world : World) : List Claim :=
  world.calls.filterMap Call.claim? ++ world.returned

/-- The claim has been registered, and neither cancelled nor forgotten. -/
def World.Granted (world : World) (claim : Claim) : Prop :=
  claim ∈ world.returned ∨ .registered claim ∈ world.calls

/-- What the steps preserve that disturb no live claim. -/
structure Leased (world : World) : Prop where
  sound : Sound world
  distinct : world.held.Nodup
  issued : ∀ claim ∈ world.held, claim ∈ world.issued
  kept : ∀ claim, world.Granted claim → ∀ row ∈ world.messages,
    row.ClaimedUnder claim.claimedBy →
      getLease world.leases claim.process claim.messageId = some claim

variable {world : World} {step : Step} {call next : Call}

theorem proceeds_perm {column : Call → Option β} (member : call ∈ world.calls)
    (same : column next = column call) :
    ((world.proceeds call next).calls.filterMap column).Perm (world.calls.filterMap column) := by
  have order := (List.perm_cons_erase member).filterMap column
  have moved := (List.perm_append_singleton next (world.calls.erase call)).filterMap column
  rw [List.filterMap_cons] at order moved
  rw [same] at moved
  exact moved.trans order.symm

/-- Claims do not multiply. -/
theorem held_perform (enabled : step.Enabled world) :
    (perform world step).held.Subperm (world.held ++ (step.issues world).toList) := by
  have idle : world.held.Subperm (world.held ++ []) :=
    (List.append_nil world.held).symm ▸ List.Subperm.refl _
  have fewer : ∀ {calls : List Call}, calls.Sublist world.calls →
      (calls.filterMap Call.claim? ++ world.returned).Subperm (world.held ++ []) :=
    fun less => (((less.filterMap _).append_right _).subperm).trans idle
  have goes : ∀ {call next : Call}, call ∈ world.calls → next.claim? = call.claim? →
      ((world.proceeds call next).calls.filterMap Call.claim? ++
        world.returned).Subperm (world.held ++ []) :=
    fun member same => ((proceeds_perm member same).append_right _).subperm.trans idle
  cases step with
  | claimNextRequest process instanceId claimToken query =>
    show (world.claimed process instanceId claimToken query).held.Subperm _
    unfold World.claimed Step.issues
    dsimp only
    cases found : world.target query with
    | none => exact idle
    | some target =>
      show ((world.calls ++ [_]).filterMap Call.claim? ++ world.returned).Subperm _
      rw [List.filterMap_append, List.append_assoc]
      refine ((List.perm_append_comm).append_left _).subperm.trans ?_
      rw [← List.append_assoc]
      exact List.Subperm.refl _
  | registerLease claim => exact goes enabled rfl
  | returnClaim claim =>
    have order := (List.perm_cons_erase enabled).filterMap Call.claim?
    rw [List.filterMap_cons] at order
    show ((world.calls.erase _).filterMap Call.claim? ++ (world.returned ++ [claim])).Subperm _
    refine List.Perm.subperm ?_
    rw [show (world.held ++ (Step.issues world (.returnClaim claim)).toList) =
      world.held from List.append_nil _, ← List.append_assoc]
    refine (List.perm_append_singleton _ _).trans ?_
    exact (order.append_right world.returned).symm
  | cancelClaim claim => exact goes enabled rfl
  | rollbackQueueClaim => exact fewer List.erase_sublist
  | verifyFinish finish =>
    unfold perform
    dsimp only
    split
    · exact goes enabled rfl
    · exact fewer List.erase_sublist
  | commitFinish => exact goes enabled.1 rfl
  | releaseFinished => exact fewer List.erase_sublist
  | sweepStaleQueueClaims => exact idle
  | requeue => exact idle
  | refreshNext => exact goes enabled.1 rfl
  | refreshEnd => exact goes enabled rfl
  | restart process =>
    refine List.Subperm.trans (List.Sublist.subperm ?_) idle
    exact (List.filter_sublist.filterMap _).append List.filter_sublist
  | _ =>
    refine List.Subperm.trans (List.Perm.subperm ?_) idle
    show ((world.calls ++ [_]).filterMap Call.claim? ++ world.returned).Perm _
    rw [List.filterMap_append]
    exact (List.append_nil _).symm ▸ List.Perm.refl _

variable {claim : Claim}

theorem Leased.granted_issued (leased : Leased world) (granted : world.Granted claim) :
    claim ∈ world.issued := by
  refine leased.issued claim ?_
  rcases granted with returned | waiting
  · exact List.mem_append_right _ returned
  · exact List.mem_append_left _ (List.mem_filterMap.mpr ⟨_, waiting, rfl⟩)

/-- A claim is in one call at most, and not in a caller's hands at the same time. -/
theorem Leased.granted_once (leased : Leased world) (waiting : .registered claim ∈ world.calls)
    (granted : claim ∈ world.returned ∨ .registered claim ∈ world.calls.erase (.registered claim)) :
    False := by
  have order := (List.perm_cons_erase waiting).filterMap Call.claim?
  rw [List.filterMap_cons] at order
  have distinct := ((order.append_right world.returned).nodup_iff).mp leased.distinct
  refine (List.nodup_cons.mp distinct).1 ?_
  rcases granted with returned | twice
  · exact List.mem_append_right _ returned
  · exact List.mem_append_left _ (List.mem_filterMap.mpr ⟨_, twice, rfl⟩)

/-- A claim that a step grants was granted before, or the step registers it. -/
theorem granted_before (enabled : step.Enabled world)
    (granted : (perform world step).Granted claim) :
    (world.Granted claim ∧ ∀ process, step = .restart process → claim.process ≠ process) ∨
      step = .registerLease claim := by
  have appended : ∀ {next : Call} {calls : List Call},
      .registered claim ∈ calls ++ [next] → calls ⊆ world.calls →
        next ≠ .registered claim → .registered claim ∈ world.calls := by
    intro next calls member older other
    rcases List.mem_append.mp member with old | new
    · exact older old
    · exact absurd (List.mem_singleton.mp new).symm other
  rcases granted with returned | waiting
  · cases step with
    | claimNextRequest process instanceId claimToken query =>
      change claim ∈ (world.claimed process instanceId claimToken query).returned
        at returned
      unfold World.claimed at returned
      split at returned <;> exact .inl ⟨.inl returned, nofun⟩
    | returnClaim other =>
      rcases mem_inserted.mp returned with old | rfl
      · exact .inl ⟨.inl old, nofun⟩
      · exact .inl ⟨.inr enabled, nofun⟩
    | verifyFinish finish =>
      unfold perform at returned
      dsimp only at returned
      split at returned <;> exact .inl ⟨.inl returned, nofun⟩
    | restart process =>
      obtain ⟨inside, other⟩ := List.mem_filter.mp returned
      refine .inl ⟨.inl inside, ?_⟩
      rintro _ ⟨⟩
      exact of_decide_eq_true other
    | _ => exact .inl ⟨.inl returned, nofun⟩
  · cases step with
    | registerLease other =>
      rcases List.mem_append.mp waiting with old | new
      · exact .inl ⟨.inr (List.mem_of_mem_erase old), nofun⟩
      · cases List.mem_singleton.mp new
        exact .inr rfl
    | claimNextRequest process instanceId claimToken query =>
      change _ ∈ (world.claimed process instanceId claimToken query).calls at waiting
      unfold World.claimed at waiting
      split at waiting
      · exact .inl ⟨.inr waiting, nofun⟩
      · exact .inl ⟨.inr (appended waiting (List.Subset.refl _) nofun), nofun⟩
    | verifyFinish finish =>
      unfold perform at waiting
      dsimp only at waiting
      split at waiting
      · exact .inl ⟨.inr (appended waiting List.erase_subset nofun), nofun⟩
      · exact .inl ⟨.inr (List.mem_of_mem_erase waiting), nofun⟩
    | restart process =>
      obtain ⟨inside, other⟩ := List.mem_filter.mp waiting
      refine .inl ⟨.inr inside, ?_⟩
      rintro _ ⟨⟩
      exact of_decide_eq_true other
    | returnClaim => exact .inl ⟨.inr (List.mem_of_mem_erase waiting), nofun⟩
    | rollbackQueueClaim => exact .inl ⟨.inr (List.mem_of_mem_erase waiting), nofun⟩
    | releaseFinished => exact .inl ⟨.inr (List.mem_of_mem_erase waiting), nofun⟩
    | sweepStaleQueueClaims => exact .inl ⟨.inr waiting, nofun⟩
    | requeue => exact .inl ⟨.inr waiting, nofun⟩
    | lockForFinish => exact .inl ⟨.inr (appended waiting (List.Subset.refl _) nofun), nofun⟩
    | refreshQueueLeases => exact .inl ⟨.inr (appended waiting (List.Subset.refl _) nofun), nofun⟩
    | _ => exact .inl ⟨.inr (appended waiting List.erase_subset nofun), nofun⟩

variable {row : MessageRow}

/-- The entry of a live claim after a step that does not disturb it. -/
theorem entry_kept (leased : Leased world) (enabled : step.Enabled world)
    (undisturbed : step.Undisturbed world) (granted : world.Granted claim)
    (still : (perform world step).Granted claim)
    (running : ∀ process, step = .restart process → claim.process ≠ process)
    (member : row ∈ world.messages) (claimed : row.ClaimedUnder claim.claimedBy)
    (entry : getLease world.leases claim.process claim.messageId = some claim) :
    getLease (perform world step).leases claim.process claim.messageId = some claim := by
  have issued := leased.granted_issued granted
  -- A step that spares the entry of the row's claim is about that claim.
  have spared : ∀ {process messageId claimedBy : String}, world.Spares process messageId claimedBy →
        claim.process = process ∧ claim.messageId = messageId → claim.claimedBy = claimedBy := by
    rintro process messageId claimedBy spares ⟨rfl, rfl⟩
    exact spares claim entry row member claimed
  cases step with
  | claimNextRequest process instanceId claimToken query =>
    show getLease (world.claimed process instanceId claimToken query).leases _ _ = _
    unfold World.claimed
    split <;> exact entry
  | registerLease other =>
    show getLease (registerLease world.leases other) _ _ = _
    by_cases same : claim.process = other.process ∧ claim.messageId = other.messageId
    · have equal := leased.sound.claim_of_owner issued (leased.sound.calls _ enabled)
        (spared undisturbed same)
      rw [equal]
      exact getLease_registerLease other
    · rw [getLease_registerLease_apart same]
      exact entry
  | cancelClaim other =>
    show getLease (releaseLease world.leases other.process other.messageId) _ _ = _
    by_cases same : claim.process = other.process ∧ claim.messageId = other.messageId
    · have equal := leased.sound.claim_of_owner issued (leased.sound.calls _ enabled)
        (spared undisturbed same)
      subst equal
      refine (leased.granted_once enabled ?_).elim
      rcases still with returned | waiting
      · exact .inl returned
      · rcases List.mem_append.mp waiting with old | new
        · exact .inr old
        · cases List.mem_singleton.mp new
    · rw [getLease_releaseLease same]
      exact entry
  | verifyFinish finish =>
    unfold perform
    dsimp only
    split <;> exact entry
  | releaseFinished finish =>
    show getLease (releaseLease world.leases finish.process finish.messageId) _ _ = _
    rw [getLease_releaseLease]
    · exact entry
    · rintro ⟨-, here⟩
      obtain ⟨finished, inside, named, terminal⟩ := leased.sound.calls _ enabled
      have own := (leased.sound.rows claim issued row member claimed).1
      cases leased.sound.row_unique member inside (own.trans (here.trans named.symm))
      rw [claimed.1] at terminal
      revert terminal
      decide
  | refreshEnd process other count rest =>
    show getLease (if count = 0 then _ else _) _ _ = _
    split
    case isFalse => exact entry
    case isTrue none =>
    by_cases same : claim.process = process ∧ claim.messageId = other.messageId
    · have owner := spared (undisturbed none) same
      have lost := (leased.sound.calls _ enabled).2.2.2 none row member
      exact absurd (owner ▸ claimed) lost
    · rw [getLease_releaseLease same]
      exact entry
  | restart process =>
    refine (getLease_filter fun lease _ own _ => decide_eq_true ?_).trans entry
    rw [own]
    exact running process rfl
  | _ => exact entry

theorem leased_execute (world : World) (step : Step) (leased : Leased world)
    (undisturbed : step.Undisturbed world) :
    Leased (execute world step) := by
  have sound := sound_execute world step leased.sound
  unfold execute at sound ⊢
  split
  case isFalse => exact leased
  case isTrue enabled =>
  rw [if_pos enabled] at sound
  have fewer := held_perform enabled
  have distinct : (world.held ++ (step.issues world).toList).Nodup := by
    refine List.nodup_append.mpr ⟨leased.distinct, ?_, ?_⟩
    · cases step.issues world with
      | none => exact List.nodup_nil
      | some claim => exact List.nodup_singleton claim
    · intro old known new made same
      have fresh := (issues_fresh enabled (Option.mem_toList.mp made)).1.2.1
      exact fresh (same ▸ List.mem_map_of_mem (leased.issued old known))
  refine ⟨sound, ?_, fun claim member => ?_, fun claim still row member claimed => ?_⟩
  · obtain ⟨some, order, less⟩ := fewer
    exact order.nodup_iff.mp (distinct.sublist less)
  · rw [perform_issued]
    rcases List.mem_append.mp (fewer.subset member) with old | new
    · exact List.mem_append_left _ (leased.issued claim old)
    · exact List.mem_append_right _ new
  · rcases granted_before enabled still with ⟨granted, running⟩ | rfl
    · rcases claimed_before member claimed with ⟨old, inside, -, before⟩ |
        ⟨made, new, -, owner⟩
      · exact entry_kept leased enabled undisturbed granted still running inside before
          (leased.kept claim granted old inside before)
      · have fresh := (issues_fresh enabled new).1.2.1
        rw [owner] at fresh
        exact absurd (List.mem_map_of_mem (leased.granted_issued granted)) fresh
    · exact getLease_registerLease claim

/-- The checks of a finish with the token of the registered claim that the row is
under. -/
theorem Finish.verdict_of_claim {finish : Finish} (legacy : row.Legacy)
    (request : row.type.IsRequest) (claimed : row.ClaimedUnder claim.claimedBy)
    (token : finish.claimToken = some claim.claimToken) :
    finish.verdict (some row) (some claim) = .ok () := by
  have still : ¬ MessageStatus.claimed.Terminal := by decide
  have owned : verifyLocalOwnership (some claim) finish.messageId .claimed
      (some claim.claimToken) = .ok (some claim.claimedBy) := by
    unfold verifyLocalOwnership
    simp
  unfold Finish.verdict
  dsimp only
  rw [if_neg (not_not_intro legacy), claimed.1, if_neg still, token, owned, claimed.2]
  show (if _ ∧ some claim.claimedBy ≠ some claim.claimedBy then _ else _) = _
  rw [if_neg fun other => other.2 rfl]
  split
  · exact if_pos request
  · rfl

/-- What the invariant says of the claims that callers hold. -/
theorem Leased.keepsLive (leased : Leased world) : world.KeepsLive where
  registered := fun claim member row inside claimed =>
    leased.kept claim (.inl member) row inside claimed
  accepted := by
    rintro claim member row inside claimed finish own here token
    have issued := leased.granted_issued (.inl member)
    obtain ⟨named, legacy, -, request⟩ := leased.sound.rows claim issued row inside claimed
    have found : world.message? finish.messageId = some row := by
      cases found : world.message? finish.messageId with
      | none =>
        have missing := List.find?_eq_none.mp found row inside
        exact absurd (decide_eq_true (named.trans here.symm)) missing
      | some other =>
        obtain ⟨otherInside, otherNamed⟩ := World.message?_mem found
        exact congrArg some (leased.sound.row_unique otherInside inside
          (otherNamed.trans (here.trans named.symm)))
    rw [found, own, here, leased.kept claim (.inl member) row inside claimed]
    exact Finish.verdict_of_claim legacy request claimed token

theorem leased_initial {messages : List MessageRow} (ids : (messages.map (·.id)).Nodup) :
    Leased (World.initial messages) where
  sound := sound_initial ids
  distinct := List.nodup_nil
  issued := List.forall_mem_nil _
  kept := by
    rintro claim (returned | waiting)
    · exact absurd returned List.not_mem_nil
    · exact absurd waiting List.not_mem_nil

/-! ## Runs -/

/-- In every run whose registrations, cancellations and prunings spare the entries
of live claims, every state keeps the live claims in their registers. -/
theorem register_keeps_live
    (messages : List MessageRow) (ids : (messages.map (·.id)).Nodup) (steps : List Step)
    (undisturbed : EveryStep execute (fun world step => step.Undisturbed world)
      (World.initial messages) steps)
    (earlier : List Step) (isPrefix : earlier <+: steps) :
    (run execute (World.initial messages) earlier).KeepsLive :=
  (run_invariant leased_execute (leased_initial ids) (undisturbed.of_prefix isPrefix)).keepsLive

section Runs

private def asked : MessageRow where
  id := "m1"
  type := .task
  fromServer := "mac"
  fromModel := "opus"
  toServer := "nas"
  toModel := "sonnet"
  body := "build it"
  source := "mcp"
  createdAt := 1

private def nasQuery : ClaimQuery where
  server := "nas"
  model := "sonnet"
  now := 2
  reclaimBefore := 0
  skipped := []

private def under (claimToken : String) : Claim where
  process := "p1"
  messageId := "m1"
  claimToken := claimToken
  claimedBy := claimedByOf "i1" claimToken

private def claims (claimToken : String) : Step :=
  .claimNextRequest "p1" "i1" claimToken nasQuery

private def closes (claimToken : String) : Finish where
  process := "p1"
  messageId := "m1"
  outcome := .done none
  claimToken := some claimToken

private def claimedTwice : List Step :=
  [ claims "t1", .registerLease (under "t1"), .returnClaim (under "t1"),
    .refreshQueueLeases "p1", .refreshNext "p1" (under "t1") [] 3,
    .refreshEnd "p1" (under "t1") 1 [], .requeue "m1",
    .refreshQueueLeases "p1", .refreshNext "p1" (under "t1") [] 4,
    .refreshEnd "p1" (under "t1") 0 [], claims "t2", .registerLease (under "t2"),
    .returnClaim (under "t2") ]

theorem register_keeps_live_twice :
    EveryStep execute (fun world step => step.Undisturbed world)
        (World.initial [asked]) claimedTwice ∧
      (run execute (World.initial [asked]) claimedTwice).KeepsLive := by
  have undisturbed : EveryStep execute (fun world step => step.Undisturbed world)
      (World.initial [asked]) claimedTwice := by
    decide +kernel
  exact ⟨undisturbed, register_keeps_live [asked] (by decide) claimedTwice undisturbed
    claimedTwice (List.prefix_refl _)⟩

/-- The process claims the message again between the update of a refresh and its
continuation. -/
private def prunedRun : List Step :=
  [ claims "t1", .registerLease (under "t1"), .returnClaim (under "t1"), .requeue "m1",
    .refreshQueueLeases "p1", .refreshNext "p1" (under "t1") [] 3, claims "t2",
    .registerLease (under "t2"), .returnClaim (under "t2"),
    .refreshEnd "p1" (under "t1") 0 [] ]

/-- The first claim is registered after the second. -/
private def overwrittenRun : List Step :=
  [ claims "t1", .requeue "m1", claims "t2", .registerLease (under "t2"),
    .returnClaim (under "t2"), .registerLease (under "t1") ]

/-- The first claim is cancelled after the second was registered. -/
private def cancelledRun : List Step :=
  [ claims "t1", .registerLease (under "t1"), .requeue "m1", claims "t2",
    .registerLease (under "t2"), .returnClaim (under "t2"), .cancelClaim (under "t1") ]

/-- After each of the runs a caller holds the second token and the row is claimed
under it; the finish of two of them is refused as expired, and of the third as
someone else's. -/
theorem live_claim_lost :
    (∀ steps ∈ [prunedRun, overwrittenRun, cancelledRun],
      under "t2" ∈ (run execute (World.initial [asked]) steps).returned ∧
        (∃ row ∈ (run execute (World.initial [asked]) steps).messages,
          row.ClaimedUnder (under "t2").claimedBy) ∧
        getLease (run execute (World.initial [asked]) steps).leases "p1" "m1" ≠
          some (under "t2")) ∧
      (∀ steps ∈ [prunedRun, cancelledRun],
        (run execute (World.initial [asked]) (steps ++
          [.lockForFinish (closes "t2"), .verifyFinish (closes "t2")])).answers =
            [.refused (closes "t2") ("QUEUE_CLAIM_EXPIRED: no active lease for " ++
              "message m1 in this process — claims do not survive an MCP restart; " ++
              "discard local work and re-claim via queue_next")]) := by
  decide +kernel

end Runs

end Queue
end Scrum4Me
