import Mathlib.Data.List.Induction
import Scrum4Me.Queue.Steps

/-!
# No zombie finishes

A call that finishes a request with a token was given that token for this request
by the same process, and the row has been claimed under it ever since. A request
becomes terminal once, a reply is inserted by the transaction that makes its request
done, and a call that is refused changes nothing.
-/

namespace Scrum4Me
namespace Queue

open Foundation
open Jobs (Moment)

namespace World

variable (world : World)

/-- The row of the claim is claimed under its string. -/
def ClaimedFor (claim : Claim) : Prop :=
  ∃ row ∈ world.messages, row.id = claim.messageId ∧ row.ClaimedUnder claim.claimedBy

instance (claim : Claim) : Decidable (world.ClaimedFor claim) :=
  inferInstanceAs (Decidable (∃ _ ∈ _, _))

/-- The message is done, failed or cancelled. -/
def Terminated (messageId : String) : Prop :=
  ∃ row ∈ world.messages, row.id = messageId ∧ row.status.Terminal

instance (messageId : String) : Decidable (world.Terminated messageId) :=
  inferInstanceAs (Decidable (∃ _ ∈ _, _))

/-- The number of replies to a message. -/
def replyCount (messageId : String) : Nat :=
  world.messages.countP fun row => row.inReplyTo = some messageId

/-- The process still has the claim, or a call in flight that was checked against
it. -/
def Has (claim : Claim) : Prop :=
  claim ∈ world.leases ∨ .claimed claim ∈ world.calls ∨
    ∃ finish, .verified finish ∈ world.calls ∧ finish.process = claim.process ∧
      finish.claimToken = some claim.claimToken

end World

/-- A step of the run made the claim for its process, which was not restarted
since, and the row has been claimed under it ever since. -/
def HeldSince (start : World) (earlier : List Step) (claim : Claim) : Prop :=
  ∃ before step later, earlier = before ++ step :: later ∧
    step.Enabled (run execute start before) ∧
      step.issues (run execute start before) = some claim ∧
        .restart claim.process ∉ later ∧
          ∀ between, between <+: later →
            (run execute start (before ++ step :: between)).ClaimedFor claim

/-- A finish with a token is a finish by the process that was given the token for
this message, and whose claim has held ever since. -/
def TokensHold (start : World) (steps : List Step) : Prop :=
  ∀ earlier finish replyId now,
    earlier ++ [.commitFinish finish replyId now] <+: steps →
      Step.Enabled (run execute start earlier) (.commitFinish finish replyId now) →
        ∀ claimToken, finish.claimToken = some claimToken →
          ∃ claim : Claim, claim.process = finish.process ∧
            claim.messageId = finish.messageId ∧ claim.claimToken = claimToken ∧
              HeldSince start earlier claim

/-- A row that a step inserts answers a request that the step makes done; and a
`queue_done` with a reply inserts it. -/
structure RepliesWithDone (world : World) (step : Step) : Prop where
  inserted : ∀ reply ∈ (execute world step).messages,
    reply.id ∉ world.messages.map (·.id) →
      ∃ request ∈ world.messages, ∃ request' ∈ (execute world step).messages,
        reply.inReplyTo = some request.id ∧ request'.id = request.id ∧
          ¬ request.status.Terminal ∧ request'.status = .done
  replied : ∀ finish replyId now body,
    step = .commitFinish finish replyId now → step.Enabled world →
      finish.outcome = .done (some body) →
        ∃ reply ∈ (execute world step).messages,
          reply.id ∉ world.messages.map (·.id) ∧
            reply.inReplyTo = some finish.messageId ∧ reply.body = body

/-- A call that is refused took two steps, and neither changed a row or a lease. -/
structure RefusedQuietly (world : World) (step : Step) : Prop where
  locking : ∀ finish, step = .lockForFinish finish →
    (execute world step).messages = world.messages ∧ (execute world step).leases = world.leases
  refusing : ∀ finish error,
    (execute world step).answers = world.answers ++ [.refused finish error] →
      step = .verifyFinish finish ∧ (execute world step).messages = world.messages ∧
          (execute world step).leases = world.leases

variable {world : World} {step : Step}

/-! ## Tokens -/

theorem claimedFor_before
    (enabled : step.Enabled world) {claim : Claim} (known : claim ∈ world.issued)
    (claimed : (perform world step).ClaimedFor claim) :
    world.ClaimedFor claim := by
  obtain ⟨row, member, named, owned⟩ := claimed
  rcases claimed_before member owned with ⟨old, inside, same, before⟩ | ⟨made, new, -, owner⟩
  · exact ⟨old, inside, same.1.symm.trans named, before⟩
  · have fresh := (issues_fresh enabled new).1.2.1
    exact absurd (owner ▸ List.mem_map_of_mem known) fresh

theorem lease_before {lease : Claim} (member : lease ∈ (perform world step).leases) :
    lease ∈ world.leases ∧ step ≠ .restart lease.process ∨ step = .registerLease lease := by
  cases step with
  | claimNextRequest process instanceId claimToken query =>
    change lease ∈ (world.claimed process instanceId claimToken query).leases at member
    unfold World.claimed at member
    split at member <;> exact .inl ⟨member, nofun⟩
  | registerLease claim =>
    rcases mem_inserted.mp member with old | rfl
    · exact .inl ⟨(mem_releaseLease.mp old).1, nofun⟩
    · exact .inr rfl
  | cancelClaim => exact .inl ⟨(mem_releaseLease.mp member).1, nofun⟩
  | verifyFinish finish =>
    unfold perform at member
    dsimp only at member
    split at member <;> exact .inl ⟨member, nofun⟩
  | releaseFinished => exact .inl ⟨(mem_releaseLease.mp member).1, nofun⟩
  | refreshEnd process entry count rest =>
    change lease ∈ (if count = 0 then _ else _) at member
    split at member
    · exact .inl ⟨(mem_releaseLease.mp member).1, nofun⟩
    · exact .inl ⟨member, nofun⟩
  | restart process =>
    obtain ⟨inside, other⟩ := List.mem_filter.mp member
    exact .inl ⟨inside, fun same => of_decide_eq_true other (Step.restart.inj same).symm⟩
  | _ => exact .inl ⟨member, nofun⟩

/-- A call that waits with a new claim, or with its checks passed, was there before,
or the step made the claim, or the checks. -/
theorem call_before {call : Call} (member : call ∈ (perform world step).calls) :
    call ∈ world.calls ∧ step ≠ .restart call.process ∨
      (∃ made ∈ step.issues world, call = .claimed made) ∨
        (∃ finish, call = .verified finish ∧ step = .verifyFinish finish ∧
          finish.verdict (world.message? finish.messageId)
            (getLease world.leases finish.process finish.messageId) = .ok ()) ∨
          (∀ finish, call ≠ .verified finish) ∧ ∀ made, call ≠ .claimed made := by
  have appended : ∀ {next : Call} {calls : List Call}, call ∈ calls ++ [next] →
      calls ⊆ world.calls → (∀ finish, next ≠ .verified finish) →
        (∀ made, next ≠ .claimed made) → call ∈ world.calls ∨
          (∀ finish, call ≠ .verified finish) ∧ ∀ made, call ≠ .claimed made := by
    intro next calls member older verified claimed
    rcases mem_inserted.mp member with old | rfl
    · exact .inl (older old)
    · exact .inr ⟨verified, claimed⟩
  cases step with
  | claimNextRequest process instanceId claimToken query =>
    change call ∈ (world.claimed process instanceId claimToken query).calls at member
    unfold World.claimed at member
    cases found : world.target query with
    | none =>
      rw [found] at member
      exact .inl ⟨member, nofun⟩
    | some target =>
      rw [found] at member
      rcases List.mem_append.mp member with old | new
      · exact .inl ⟨old, nofun⟩
      · exact .inr (.inl ⟨_, Option.map_eq_some_iff.mpr ⟨target, found, rfl⟩,
          List.mem_singleton.mp new⟩)
  | verifyFinish finish =>
    unfold perform at member
    dsimp only at member
    split at member
    · rename_i passed
      rcases List.mem_append.mp member with old | new
      · exact .inl ⟨List.mem_of_mem_erase old, nofun⟩
      · exact .inr (.inr (.inl ⟨finish, List.mem_singleton.mp new, rfl, passed⟩))
    · exact .inl ⟨List.mem_of_mem_erase member, nofun⟩
  | lockForFinish =>
    exact (appended member (List.Subset.refl _) nofun nofun).imp (⟨·, nofun⟩) (.inr ∘ .inr)
  | refreshQueueLeases =>
    exact (appended member (List.Subset.refl _) nofun nofun).imp (⟨·, nofun⟩) (.inr ∘ .inr)
  | returnClaim => exact .inl ⟨List.mem_of_mem_erase member, nofun⟩
  | rollbackQueueClaim => exact .inl ⟨List.mem_of_mem_erase member, nofun⟩
  | releaseFinished => exact .inl ⟨List.mem_of_mem_erase member, nofun⟩
  | sweepStaleQueueClaims => exact .inl ⟨member, nofun⟩
  | requeue => exact .inl ⟨member, nofun⟩
  | restart process =>
    obtain ⟨inside, other⟩ := List.mem_filter.mp member
    exact .inl ⟨inside, fun same => of_decide_eq_true other (Step.restart.inj same).symm⟩
  | _ => exact (appended member List.erase_subset nofun nofun).imp (⟨·, nofun⟩) (.inr ∘ .inr)

/-- A process that has a claim had it before, and was not restarted. -/
theorem has_before (sound : Sound world) (enabled : step.Enabled world) {claim : Claim}
    (known : claim ∈ world.issued) (has : (perform world step).Has claim) :
    world.Has claim ∧ step ≠ .restart claim.process := by
  rcases has with registered | waiting | ⟨finish, verified, own, token⟩
  · rcases lease_before registered with ⟨before, other⟩ | rfl
    · exact ⟨.inl before, other⟩
    · exact ⟨.inr (.inl enabled), nofun⟩
  · rcases call_before waiting with ⟨before, other⟩ | ⟨made, new, ⟨⟩⟩ |
      ⟨_, ⟨⟩, -⟩ | ⟨-, other⟩
    · exact ⟨.inr (.inl before), other⟩
    · have fresh := (issues_fresh enabled new).1.1
      exact absurd (List.mem_map_of_mem known) fresh
    · exact absurd rfl (other claim)
  · rcases call_before verified with ⟨before, other⟩ | ⟨_, -, ⟨⟩⟩ |
      ⟨_, ⟨⟩, rfl, passed⟩ | ⟨other, -⟩
    · exact ⟨.inr (.inr ⟨finish, before, own, token⟩), own ▸ other⟩
    · obtain ⟨row, -, -, -, -, owned⟩ := Finish.verdict_ok passed
      obtain ⟨lease, found, same, -⟩ := owned _ token
      have inside := (getLease_mem found).1
      rw [sound.claim_of_token known (sound.leases lease inside) same.symm]
      exact ⟨.inl inside, nofun⟩
    · exact absurd rfl (other finish)

/-- The step that made a claim. If its process still has it, then no restart came
between, and if its row is still claimed, then it was claimed all the time. -/
def Traced (start : World) (earlier : List Step) (claim : Claim) : Prop :=
  ∃ before step later, earlier = before ++ step :: later ∧
    step.Enabled (run execute start before) ∧
      step.issues (run execute start before) = some claim ∧
        ((run execute start earlier).Has claim → .restart claim.process ∉ later) ∧
          ((run execute start earlier).ClaimedFor claim →
            ∀ between, between <+: later →
              (run execute start (before ++ step :: between)).ClaimedFor claim)

variable {start : World} {earlier : List Step}

theorem Traced.now {claim : Claim} (enabled : step.Enabled (run execute start earlier))
    (made : step.issues (run execute start earlier) = some claim) :
    Traced start (earlier ++ [step]) claim := by
  refine ⟨earlier, step, [], rfl, enabled, made, fun _ => List.not_mem_nil,
    fun claimed between begins => ?_⟩
  rwa [List.prefix_nil.mp begins]

/-- One more step. -/
theorem Traced.goes_on {claim : Claim}
    (traced : Traced start earlier claim) (has : (run execute start (earlier ++ [step])).Has claim →
      (run execute start earlier).Has claim ∧ step ≠ .restart claim.process)
    (claimed : (run execute start (earlier ++ [step])).ClaimedFor claim →
      (run execute start earlier).ClaimedFor claim) :
    Traced start (earlier ++ [step]) claim := by
  obtain ⟨before, made, later, rfl, enabled, issues, unbroken, held⟩ := traced
  refine ⟨before, made, later ++ [step], by simp, enabled, issues, ?_, ?_⟩
  · intro still restarted
    obtain ⟨earlierHas, other⟩ := has still
    rcases List.mem_append.mp restarted with old | last
    · exact unbroken earlierHas old
    · exact other (List.mem_singleton.mp last).symm
  · intro still between begins
    rcases List.prefix_concat_iff.mp begins with rfl | shorter
    · simpa using still
    · exact held (claimed still) between shorter

theorem traced_run (sound : Sound start) (none : start.issued = []) (earlier : List Step) :
    ∀ claim ∈ (run execute start earlier).issued, Traced start earlier claim := by
  induction earlier using List.reverseRecOn with
  | nil =>
    intro claim member
    rw [run_nil, none] at member
    exact absurd member List.not_mem_nil
  | append_singleton earlier step ih =>
    intro claim member
    have before : Sound (run execute start earlier) :=
      run_invariant_always sound_execute sound earlier
    have last : run execute start (earlier ++ [step]) =
        execute (run execute start earlier) step := by
      rw [run_append, run_cons, run_nil]
    rw [last] at member
    by_cases enabled : step.Enabled (run execute start earlier)
    · rw [execute, if_pos enabled] at last member
      rw [perform_issued] at member
      rcases List.mem_append.mp member with known | new
      · refine (ih claim known).goes_on ?_ ?_
        · rw [last]
          exact has_before before enabled known
        · rw [last]
          exact claimedFor_before enabled known
      · exact Traced.now enabled (Option.mem_toList.mp new)
    · rw [execute, if_neg enabled] at last member
      refine (ih claim member).goes_on ?_ ?_
      · rw [last]
        refine fun has => ⟨has, ?_⟩
        rintro rfl
        exact enabled trivial
      · rw [last]
        exact id

/-- A finish with a token is a finish under a claim that was held all the time. -/
theorem tokens_hold (sound : Sound start) (none : start.issued = []) (steps : List Step) :
    TokensHold start steps := by
  intro earlier finish replyId now begins enabled claimToken given
  have before : Sound (run execute start earlier) :=
    run_invariant_always sound_execute sound earlier
  obtain ⟨row, inside, named, -, -, -, owned⟩ := before.calls _ enabled.1
  obtain ⟨claim, issued, own, here, token, claimed⟩ := owned claimToken given
  refine ⟨claim, own, here, token, ?_⟩
  obtain ⟨first, made, later, split, able, issues, unbroken, held⟩ :=
    traced_run sound none earlier claim issued
  refine ⟨first, made, later, split, able, issues, unbroken ?_, held ?_⟩
  · exact .inr (.inr ⟨finish, enabled.1, own.symm, token ▸ given⟩)
  · exact ⟨row, inside, named.trans here.symm, claimed⟩

/-! ## Terminal states and replies -/

theorem terminated_execute
    (sound : Sound world) {messageId : String} (terminated : world.Terminated messageId) :
    (execute world step).Terminated messageId := by
  unfold execute
  split
  case isFalse => exact terminated
  case isTrue enabled =>
  obtain ⟨row, inside, named, terminal⟩ := terminated
  exact ⟨row, terminal_kept sound enabled inside terminal, named, terminal⟩

/-- What a finish makes of its row. -/
theorem finished_row (sound : Sound world) {finish : Finish} {replyId : String} {now : Moment}
    (enabled : Step.Enabled world (.commitFinish finish replyId now)) :
    ∃ row ∈ world.messages, row.id = finish.messageId ∧ ¬ row.status.Terminal ∧
      world.message? finish.messageId = some row ∧ finish.outcome.apply now row ∈
          (perform world (.commitFinish finish replyId now)).messages := by
  obtain ⟨row, inside, named, legacy, still, -⟩ := sound.calls _ enabled.1
  refine ⟨row, inside, named, still, ?_, ?_⟩
  · cases found : world.message? finish.messageId with
    | none =>
      have missing := List.find?_eq_none.mp found row inside
      exact absurd (decide_eq_true named) missing
    | some other =>
      obtain ⟨otherInside, otherNamed⟩ := World.message?_mem found
      exact congrArg some (sound.row_unique otherInside inside (otherNamed.trans named.symm))
  · rw [perform_messages]
    refine List.mem_append_left _ (mem_updateWhere.mpr (.inl ⟨row, inside, ?_, rfl⟩))
    exact decide_eq_true ⟨named, legacy⟩

theorem not_terminated (sound : Sound world) {row : MessageRow} (member : row ∈ world.messages)
    (still : ¬ row.status.Terminal) :
    ¬ world.Terminated row.id := by
  rintro ⟨other, inside, named, terminal⟩
  exact still (sound.row_unique inside member named ▸ terminal)

/-- A reply to a message is inserted by the step that makes the message terminal. -/
theorem replyCount_execute (sound : Sound world) (step : Step) (messageId : String) :
    (execute world step).replyCount messageId ≤ world.replyCount messageId +
      if ¬ world.Terminated messageId ∧ (execute world step).Terminated messageId
      then 1 else 0 := by
  by_cases enabled : step.Enabled world
  · rw [execute, if_pos enabled]
    have rows : (perform world step).replyCount messageId = world.replyCount messageId +
        (step.touch world).replies.countP fun row => row.inReplyTo = some messageId := by
      rw [World.replyCount, perform_messages, List.countP_append]
      congr 1
      have same := @touch_same world step
      have columns : (updateWhere (step.touch world).matching (step.touch world).change
          world.messages).map (·.inReplyTo) = world.messages.map (·.inReplyTo) :=
        map_updateWhere_of_unchanged (fun row => (same row).2.2.1) _
      have counts := congrArg (List.countP fun asked => asked = some messageId) columns
      rwa [List.countP_map, List.countP_map] at counts
    rw [rows]
    refine Nat.add_le_add_left ?_ _
    rcases replies : (step.touch world).replies with _ | ⟨reply, rest⟩
    · exact Nat.zero_le _
    · have member : reply ∈ (step.touch world).replies := by
        rw [replies]
        exact List.mem_cons_self
      obtain ⟨finish, replyId, now, body, rfl, -⟩ := reply_pending member
      have few : (world.replies finish replyId now).length ≤ 1 := by
        unfold World.replies
        split
        · exact Nat.le_refl _
        · exact Nat.zero_le _
      obtain ⟨row, inside, named, still, found, finished⟩ := finished_row sound enabled
      by_cases same : finish.messageId = messageId
      · subst same
        rw [if_pos ⟨named ▸ not_terminated sound inside still, _, finished,
          (@touch_same world (.commitFinish finish replyId now) row).1.trans named,
          finish.outcome.apply_terminal now row⟩]
        rw [← replies]
        exact List.countP_le_length.trans few
      · have others : ((reply :: rest).countP fun row => row.inReplyTo = some messageId) = 0 := by
          rw [← replies]
          refine List.countP_eq_zero.mpr fun reply found => ?_
          obtain ⟨_, _, _, _, committed, -, request, -, asked, rfl⟩ := reply_pending found
          cases committed
          refine fun equal => same ?_
          exact asked.symm.trans (Option.some.inj (of_decide_eq_true equal))
        rw [others]
        exact Nat.zero_le _
  · rw [execute, if_neg enabled]
    exact Nat.le_add_right _ _

theorem repliesWithDone (sound : Sound world) (step : Step) : RepliesWithDone world step where
  inserted := by
    intro reply member new
    unfold execute at member ⊢
    by_cases enabled : step.Enabled world
    · rw [if_pos enabled] at member ⊢
      rcases row_before member with ⟨old, inside, same⟩ | added
      · exact absurd (List.mem_map.mpr ⟨old, inside, same.1.symm⟩) new
      · obtain ⟨finish, replyId, now, body, rfl, outcome, request, asked, named, rfl⟩ :=
          reply_pending added
        obtain ⟨row, inside, here, still, -, finished⟩ := finished_row sound enabled
        cases sound.row_unique asked inside (named.trans here.symm)
        refine ⟨request, asked, _, finished, rfl, ?_, still, ?_⟩
        · exact (@touch_same world (.commitFinish finish replyId now) request).1
        · rw [outcome]
          rfl
    · rw [if_neg enabled] at member
      exact absurd (List.mem_map_of_mem member) new
  replied := by
    rintro finish replyId now body rfl enabled outcome
    obtain ⟨row, inside, named, -, found, -⟩ := finished_row sound enabled
    refine ⟨replyRow row replyId body now, ?_, enabled.2, congrArg some named, rfl⟩
    rw [execute, if_pos enabled, perform_messages]
    refine List.mem_append_right _ ?_
    show _ ∈ world.replies finish replyId now
    unfold World.replies
    rw [outcome, found]
    exact List.mem_singleton_self _

theorem refusedQuietly (world : World) (step : Step) : RefusedQuietly world step where
  locking := by
    rintro finish rfl
    unfold execute
    split <;> exact ⟨rfl, rfl⟩
  refusing := by
    intro finish error refused
    have silent : ∀ {answer : Answer}, (∀ finish error, answer ≠ .refused finish error) →
        world.answers ++ [answer] ≠ world.answers ++ [.refused finish error] := by
      intro answer other same
      exact other finish error (List.singleton_inj.mp (List.append_cancel_left same))
    have idle : world.answers ≠ world.answers ++ [.refused finish error] := by
      intro same
      simpa using congrArg List.length same
    unfold execute at refused ⊢
    by_cases enabled : step.Enabled world
    · rw [if_pos enabled] at refused ⊢
      cases step with
      | claimNextRequest process instanceId claimToken query =>
        change (world.claimed process instanceId claimToken query).answers = _ at refused
        unfold World.claimed at refused
        split at refused <;> exact absurd refused idle
      | verifyFinish other =>
        unfold perform at refused ⊢
        dsimp only at refused ⊢
        split at refused
        · exact absurd refused idle
        · rename_i found
          have same := List.singleton_inj.mp (List.append_cancel_left refused)
          cases same
          exact ⟨rfl, rfl, rfl⟩
      | releaseFinished => exact absurd refused (silent nofun)
      | _ => exact absurd refused idle
    · rw [if_neg enabled] at refused
      exact absurd refused idle

/-! ## Runs -/

/-- From any messages and through any steps: a finish with a token was given that
token by its own process and its row was never requeued since; a message becomes
terminal once at most, and only then gains a reply; a reply is inserted only with
its request becoming done, and with every `queue_done` that has one; a refused call
leaves rows and leases alone. -/
theorem no_zombie_finishes
    (messages : List MessageRow) (ids : (messages.map (·.id)).Nodup) (steps : List Step) :
    TokensHold (World.initial messages) steps ∧ (∀ messageId,
        risings execute (World.Terminated · messageId) (World.initial messages) steps ≤
            (if (World.initial messages).Terminated messageId then 0 else 1) ∧
          (run execute (World.initial messages) steps).replyCount messageId ≤
            (World.initial messages).replyCount messageId +
              risings execute (World.Terminated · messageId) (World.initial messages)
                steps) ∧
        EveryStep execute RepliesWithDone (World.initial messages) steps ∧
          EveryStep execute RefusedQuietly (World.initial messages) steps := by
  have sound := sound_initial ids
  have preserved : ∀ world step, Sound world → True → Sound (execute world step) :=
    fun world step before _ => sound_execute world step before
  have always : EveryStep execute (fun _ _ => True) (World.initial messages) steps :=
    everyStep_of_forall (fun _ _ _ => trivial) _
  refine ⟨tokens_hold sound rfl steps, fun messageId => ⟨?_, ?_⟩, ?_, ?_⟩
  · exact risings_le_one sound_execute
      (fun _ _ before terminated => terminated_execute before terminated) sound steps
  · exact @measure_le_risings _ _ _ Sound (World.Terminated · messageId) _
      (World.replyCount · messageId) sound_execute
      (fun _ step before => replyCount_execute before step messageId) _ sound steps
  · exact EveryStep.of_invariant preserved
      (fun _ step before _ => repliesWithDone before step) sound always
  · exact everyStep_of_forall (fun world step _ => refusedQuietly world step) _

section Runs

private def request : MessageRow where
  id := "m1"
  type := .task
  fromServer := "mac"
  fromModel := "opus"
  toServer := "nas"
  toModel := "sonnet"
  body := "build it"
  source := "mcp"
  createdAt := 1

private def query : ClaimQuery where
  server := "nas"
  model := "sonnet"
  now := 2
  reclaimBefore := 0
  skipped := []

private def claim : Claim where
  process := "p1"
  messageId := "m1"
  claimToken := "t1"
  claimedBy := "mcp:i1:t1"

private def finish : Finish where
  process := "p1"
  messageId := "m1"
  outcome := .done (some "built")
  claimToken := some "t1"

/-- A claim, its finish with a reply, and a second finish that is refused. -/
private def claimedAndFinished : List Step :=
  [ .claimNextRequest "p1" "i1" "t1" query, .registerLease claim, .returnClaim claim,
    .lockForFinish finish, .verifyFinish finish, .commitFinish finish "m2" 3,
    .releaseFinished finish, .lockForFinish finish, .verifyFinish finish ]

theorem no_zombie_finishes_claimed :
    ((run execute (World.initial [request]) claimedAndFinished).replyCount "m1" = 1 ∧
        (run execute (World.initial [request]) claimedAndFinished).answers = [.finished finish,
            .refused finish "QUEUE_ALREADY_TERMINAL: message m1 is already done"]) ∧
      TokensHold (World.initial [request]) claimedAndFinished ∧
        EveryStep execute RepliesWithDone (World.initial [request])
          claimedAndFinished := by
  have held := no_zombie_finishes [request] (by decide) claimedAndFinished
  refine ⟨by decide +kernel, held.1, held.2.2.1⟩

/-- A request may be closed without a reply. -/
theorem done_without_reply :
    let closing := { finish with outcome := .done none, claimToken := none }
    let start := World.initial [request]
    let closed := run execute start
      [.lockForFinish closing, .verifyFinish closing, .commitFinish closing "m2" 3]
    (∀ row ∈ start.messages, row.status = .pending) ∧
      (∀ row ∈ closed.messages, row.status = .done) ∧
        closed.messages.map (·.id) = start.messages.map (·.id) := by
  decide +kernel

end Runs

end Queue
end Scrum4Me
