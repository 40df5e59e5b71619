import Scrum4Me.Queue.Touches

/-!
# Steps keep what the calls know

Tokens are never given out twice, registers hold claims that were made, a lock has
one holder, and a call that has passed its checks still sees the row that it
checked.
-/

namespace Scrum4Me
namespace Queue

open Foundation
open Jobs (Moment)

variable {world : World} {step : Step} {call next : Call}

/-! ## Locks -/

theorem locks_ended (locks : (world.calls.filterMap Call.locks).Nodup) (call : Call) :
    ((world.ended call).calls.filterMap Call.locks).Nodup :=
  locks.sublist (List.erase_sublist.filterMap _)

/-- A call that goes on keeps its lock, or lets go. -/
theorem locks_proceeds
    (locks : (world.calls.filterMap Call.locks).Nodup) (member : call ∈ world.calls)
    (same : next.locks = none ∨ next.locks = call.locks) :
    ((world.proceeds call next).calls.filterMap Call.locks).Nodup := by
  show ((world.calls.erase call ++ [next]).filterMap Call.locks).Nodup
  rw [List.filterMap_append]
  rcases same with none | own
  · rw [List.filterMap_cons, none]
    simpa using locks.sublist (List.erase_sublist.filterMap _)
  · have order := (List.perm_cons_erase member).filterMap Call.locks
    rw [List.filterMap_cons] at order
    rw [List.filterMap_cons, own]
    cases lock : call.locks with
    | none =>
      rw [lock] at order
      simpa using order.nodup_iff.mp locks
    | some messageId =>
      rw [lock] at order
      have distinct := List.nodup_cons.mp (order.nodup_iff.mp locks)
      refine List.nodup_append.mpr ⟨distinct.2, List.nodup_singleton _, ?_⟩
      intro held heldMember other otherMember same
      rw [List.mem_singleton.mp otherMember] at same
      exact distinct.1 (same ▸ heldMember)

theorem locks_begins (locks : (world.calls.filterMap Call.locks).Nodup)
    (free : ∀ messageId ∈ next.locks, ¬ world.Locked messageId) :
    ((world.calls ++ [next]).filterMap Call.locks).Nodup := by
  rw [List.filterMap_append]
  refine List.nodup_append.mpr ⟨locks, ?_, ?_⟩
  · cases lock : next.locks <;> simp [lock]
  · intro held heldMember other otherMember same
    subst same
    obtain ⟨holder, inside, holds⟩ := List.mem_filterMap.mp heldMember
    obtain ⟨fresh, found, lock⟩ := List.mem_filterMap.mp otherMember
    rw [List.mem_singleton.mp found] at lock
    exact free held lock ⟨holder, inside, holds⟩

theorem perform_locks (sound : Sound world) (enabled : step.Enabled world) :
    ((perform world step).calls.filterMap Call.locks).Nodup := by
  have locks := sound.locks
  cases step with
  | claimNextRequest process instanceId claimToken query =>
    show ((world.claimed process instanceId claimToken query).calls.filterMap _).Nodup
    unfold World.claimed
    split
    · exact locks
    · exact locks_begins locks nofun
  | returnClaim => exact locks_ended locks _
  | rollbackQueueClaim => exact locks_ended locks _
  | lockForFinish finish =>
    refine locks_begins locks ?_
    rintro messageId ⟨⟩
    exact enabled
  | verifyFinish finish =>
    unfold perform
    dsimp only
    split
    · exact locks_proceeds locks enabled (.inr rfl)
    · exact locks_ended locks _
  | commitFinish => exact locks_proceeds locks enabled.1 (.inl rfl)
  | releaseFinished => exact locks_ended locks _
  | sweepStaleQueueClaims => exact locks
  | requeue => exact locks
  | refreshQueueLeases => exact locks_begins locks nofun
  | refreshNext => exact locks_proceeds locks enabled.1 (.inl rfl)
  | restart => exact locks.sublist (List.filter_sublist.filterMap _)
  | _ => exact locks_proceeds locks enabled (.inl rfl)

/-! ## What calls know -/

theorem issued_subset (step : Step) : world.issued ⊆ (perform world step).issued := by
  rw [perform_issued]
  exact List.subset_append_left _ _

/-- A call that holds the lock of its row, or has ended it, sees it unchanged; what
was not claimed under an old claim is not claimed under it later. -/
theorem knows_kept
    (sound : Sound world) (enabled : step.Enabled world) (member : call ∈ world.calls)
    (apart : ∀ finish replyId now, step = .commitFinish finish replyId now →
      call.locks ≠ some finish.messageId) :
    call.Knows (perform world step) := by
  have knows := sound.calls call member
  have issued := @issued_subset world step
  cases call with
  | claimed => exact issued knows
  | registered => exact issued knows
  | rollingBack => exact issued knows
  | finishing => trivial
  | verified finish =>
    obtain ⟨row, inside, named, legacy, still, request, owned⟩ := knows
    refine ⟨row, mem_of_untouched inside ?_, named, legacy, still, request, ?_⟩
    · cases matched : (step.touch world).matching row with
      | false => rfl
      | true =>
        rcases touch_unlocked enabled matched with free | ⟨other, _, _, same, here⟩
        · exact absurd ⟨_, member, congrArg some named.symm⟩ free
        · exact absurd (congrArg some (named.symm.trans here)) (apart _ _ _ same)
    · intro claimToken given
      obtain ⟨claim, made, rest⟩ := owned claimToken given
      exact ⟨claim, issued made, rest⟩
  | finished finish =>
    obtain ⟨row, inside, named, terminal⟩ := knows
    exact ⟨row, terminal_kept sound enabled inside terminal, named, terminal⟩
  | refreshing process entries =>
    exact fun entry found => ⟨issued (knows entry found).1, (knows entry found).2⟩
  | refreshed process entry count rest =>
    obtain ⟨others, made, own, lost⟩ := knows
    refine ⟨fun other found => ⟨issued (others other found).1, (others other found).2⟩,
      issued made, own, fun none row inside claimed => ?_⟩
    rcases claimed_before inside claimed with ⟨old, known, -, before⟩ |
      ⟨claim, new, -, owner⟩
    · exact lost none old known before
    · -- The string of a new claim is new.
      cases step with
      | claimNextRequest process instanceId claimToken query =>
        obtain ⟨target, -, rfl⟩ := Option.map_eq_some_iff.mp new
        refine enabled.2.1 ?_
        rw [show claimedByOf instanceId claimToken = _ from owner]
        exact List.mem_map_of_mem made
      | _ => cases new

/-- The checks of a finish say what its row is. -/
theorem Finish.verdict_ok {finish : Finish} {row : Option MessageRow} {lease : Option Claim}
    (passed : finish.verdict row lease = .ok ()) :
    ∃ found, row = some found ∧ found.Legacy ∧ ¬ found.status.Terminal ∧
      (∀ reply, finish.outcome = .done (some reply) → found.type.IsRequest) ∧
        ∀ claimToken, finish.claimToken = some claimToken →
          ∃ claim, lease = some claim ∧ claim.claimToken = claimToken ∧
            found.status ≠ .pending ∧ found.claimedBy = some claim.claimedBy := by
  unfold Finish.verdict at passed
  split at passed
  · cases passed
  rename_i found
  split at passed
  · cases passed
  rename_i legacy
  split at passed
  · cases passed
  rename_i still
  rw [not_not] at legacy
  refine ⟨found, rfl, legacy, still, ?_⟩
  cases verified : verifyLocalOwnership lease finish.messageId found.status finish.claimToken with
  | error error =>
    rw [verified] at passed
    cases passed
  | ok expected =>
    rw [verified] at passed
    change (if expected ≠ none ∧ found.claimedBy ≠ expected then _ else _) = _
      at passed
    split at passed
    · cases passed
    rename_i owner
    constructor
    · intro reply outcome
      rw [outcome] at passed
      dsimp only at passed
      split at passed
      · assumption
      · cases passed
    · intro claimToken given
      rw [given] at verified
      unfold verifyLocalOwnership at verified
      split at verified
      · cases verified
      rename_i claimed
      cases lease with
      | none => cases verified
      | some claim =>
        dsimp only at verified
        split at verified
        · rename_i same
          cases verified
          refine ⟨claim, rfl, (Option.some.inj same).symm, claimed, ?_⟩
          by_contra other
          exact owner ⟨nofun, other⟩
        · cases verified

variable {leases : List Claim} {messageId : String} {row : MessageRow}

theorem getLease_mem {process : String} {lease : Claim}
    (found : getLease leases process messageId = some lease) :
    lease ∈ leases ∧ lease.process = process ∧ lease.messageId = messageId := by
  have criteria := List.find?_some found
  exact ⟨List.mem_of_find?_eq_some found, of_decide_eq_true criteria⟩

theorem World.message?_mem (found : world.message? messageId = some row) :
    row ∈ world.messages ∧ row.id = messageId := by
  have criteria := List.find?_some found
  exact ⟨List.mem_of_find?_eq_some found, of_decide_eq_true criteria⟩

theorem mem_releaseLease {process : String} {lease : Claim} :
    lease ∈ releaseLease leases process messageId ↔
      lease ∈ leases ∧ ¬ (lease.process = process ∧ lease.messageId = messageId) := by
  rw [releaseLease, List.mem_filter, decide_eq_true_iff]

/-! ## Every step -/

theorem Outcome.apply_terminal (outcome : Outcome) (now : Moment) (row : MessageRow) :
    (outcome.apply now row).status.Terminal := by
  cases outcome with
  | done => exact .inl rfl
  | failed => exact .inr (.inl rfl)

/-- A row is an old one, or a reply. -/
theorem row_before (member : row ∈ (perform world step).messages) :
    (∃ old ∈ world.messages, old.Same row) ∨ row ∈ (step.touch world).replies := by
  rw [perform_messages] at member
  rcases List.mem_append.mp member with kept | new
  · rcases mem_updateWhere.mp kept with ⟨old, inside, -, rfl⟩ | ⟨inside, -⟩
    · exact .inl ⟨old, inside, touch_same step old⟩
    · exact .inl ⟨row, inside, rfl, rfl, rfl, rfl, rfl⟩
  · exact .inr new

/-- The identifiers after a step. -/
theorem perform_ids (world : World) (step : Step) :
    (perform world step).messages.map (·.id) =
      world.messages.map (·.id) ++ (step.touch world).replies.map (·.id) := by
  rw [perform_messages, List.map_append,
    map_updateWhere_of_unchanged fun row => (touch_same step row).1]

theorem perform_ids_nodup (sound : Sound world) (enabled : step.Enabled world) :
    ((perform world step).messages.map (·.id)).Nodup := by
  rw [perform_ids]
  have none : ∀ {touched : Touch}, touched.replies = [] →
      (world.messages.map (·.id) ++ touched.replies.map (·.id)).Nodup := by
    intro touched empty
    rw [empty, List.map_nil, List.append_nil]
    exact sound.ids
  cases step with
  | claimNextRequest process instanceId claimToken query =>
    refine none ?_
    unfold Step.touch
    dsimp only
    split <;> rfl
  | commitFinish finish replyId now =>
    refine List.nodup_append.mpr ⟨sound.ids, ?_, ?_⟩
    · show ((world.replies finish replyId now).map (·.id)).Nodup
      unfold World.replies
      split
      · exact List.nodup_singleton _
      · exact List.nodup_nil
    · intro id known other new same
      obtain ⟨reply, found, rfl⟩ := List.mem_map.mp new
      obtain ⟨_, _, _, _, committed, -, request, -, -, rfl⟩ := reply_pending found
      cases committed
      rw [same] at known
      exact enabled.2 known
  | _ => exact none rfl

/-- The claim that a step makes is new. -/
theorem issues_fresh (enabled : step.Enabled world) {claim : Claim}
    (made : step.issues world = some claim) :
    world.Fresh claim.claimToken claim.claimedBy ∧
      ∃ target ∈ world.messages, target.id = claim.messageId ∧ target.type.IsRequest ∧
        target.Legacy ∧ target.Ordinary := by
  cases step with
  | claimNextRequest process instanceId claimToken query =>
    obtain ⟨target, found, rfl⟩ := Option.map_eq_some_iff.mp made
    obtain ⟨inside, request, legacy, ordinary, -⟩ := World.target_mem found
    exact ⟨enabled, target, inside, rfl, request, legacy, ordinary⟩
  | _ => cases made

theorem perform_distinct {column : Claim → String} (distinct : (world.issued.map column).Nodup)
    (fresh : ∀ claim ∈ step.issues world, column claim ∉ world.issued.map column) :
    ((perform world step).issued.map column).Nodup := by
  rw [perform_issued]
  cases made : step.issues world with
  | none => simpa using distinct
  | some claim =>
    rw [Option.toList_some, List.map_append]
    refine List.nodup_append.mpr ⟨distinct, List.nodup_singleton _, ?_⟩
    intro known knownMember other otherMember same
    rw [List.mem_singleton.mp otherMember] at same
    exact fresh claim made (same ▸ knownMember)

theorem perform_leases (sound : Sound world) (enabled : step.Enabled world) :
    ∀ lease ∈ (perform world step).leases, lease ∈ (perform world step).issued := by
  intro lease member
  apply issued_subset step
  cases step with
  | claimNextRequest process instanceId claimToken query =>
    change lease ∈ (world.claimed process instanceId claimToken query).leases at member
    unfold World.claimed at member
    split at member <;> exact sound.leases lease member
  | registerLease claim =>
    rcases mem_inserted.mp member with old | rfl
    · exact sound.leases lease (mem_releaseLease.mp old).1
    · exact sound.calls _ enabled
  | cancelClaim => exact sound.leases lease (mem_releaseLease.mp member).1
  | verifyFinish finish =>
    unfold perform at member
    dsimp only at member
    split at member <;> exact sound.leases lease member
  | releaseFinished => exact sound.leases lease (mem_releaseLease.mp member).1
  | refreshEnd process entry count rest =>
    change lease ∈ (if count = 0 then _ else _) at member
    split at member
    · exact sound.leases lease (mem_releaseLease.mp member).1
    · exact sound.leases lease member
  | restart => exact sound.leases lease (List.mem_filter.mp member).1
  | _ => exact sound.leases lease member

theorem perform_rows (sound : Sound world) (enabled : step.Enabled world) :
    ∀ claim ∈ (perform world step).issued, ∀ row ∈ (perform world step).messages,
      row.ClaimedUnder claim.claimedBy →
        row.id = claim.messageId ∧ row.Legacy ∧ row.Ordinary ∧ row.type.IsRequest := by
  intro claim claimMember row member claimed
  rw [perform_issued] at claimMember
  have new_or_old : claim ∈ world.issued ∨ step.issues world = some claim :=
    (List.mem_append.mp claimMember).imp id Option.mem_toList.mp
  rcases claimed_before member claimed with ⟨old, inside, same, before⟩ |
    ⟨made, found, here, owner⟩
  · rcases new_or_old with known | new
    · obtain ⟨named, legacy, ordinary, request⟩ := sound.rows claim known old inside before
      exact ⟨same.1.trans named, same.2.2.2.1.trans legacy, same.2.2.2.2.trans ordinary,
        same.2.1.symm ▸ request⟩
    · have fresh := (issues_fresh enabled new).1.2.2
      exact absurd (List.mem_map.mpr ⟨old, inside, before.2⟩) fresh
  · have equal : claim = made := by
      rcases new_or_old with known | new
      · have fresh := (issues_fresh enabled found).1.2.1
        exact absurd (owner ▸ List.mem_map_of_mem known) fresh
      · exact Option.some.inj (new.symm.trans found)
    subst equal
    obtain ⟨-, target, targetMember, named, request, legacy, ordinary⟩ := issues_fresh enabled found
    rcases row_before member with ⟨old, inside, same⟩ | reply
    · have target_old : old = target :=
        sound.row_unique inside targetMember (same.1.symm.trans (here.symm.trans named.symm))
      subst target_old
      exact ⟨here.symm, same.2.2.2.1.trans legacy, same.2.2.2.2.trans ordinary,
        same.2.1.symm ▸ request⟩
    · obtain ⟨_, _, _, _, -, -, _, -, -, rfl⟩ := reply_pending reply
      exact nomatch claimed.1

theorem perform_calls (sound : Sound world) (enabled : step.Enabled world) :
    ∀ call ∈ (perform world step).calls, call.Knows (perform world step) := by
  intro call member
  have kept : call ∈ world.calls → (∀ finish replyId now, step ≠ .commitFinish finish replyId now) →
        call.Knows (perform world step) := fun old other =>
    knows_kept sound enabled old fun finish replyId now same =>
      absurd same (other finish replyId now)
  have issued := @issued_subset world step
  cases step with
  | claimNextRequest process instanceId claimToken query =>
    change call ∈ (world.claimed process instanceId claimToken query).calls at member
    unfold World.claimed at member
    cases found : world.target query with
    | none =>
      rw [found] at member
      exact kept member nofun
    | some target =>
      rw [found] at member
      rcases mem_inserted.mp member with old | rfl
      · exact kept old nofun
      · show _ ∈ (perform world _).issued
        rw [perform_issued]
        refine List.mem_append_right _ (Option.mem_toList.mpr ?_)
        exact Option.map_eq_some_iff.mpr ⟨target, found, rfl⟩
  | registerLease claim =>
    rcases mem_inserted.mp member with old | rfl
    · exact kept (List.mem_of_mem_erase old) nofun
    · exact issued (sound.calls _ enabled)
  | returnClaim => exact kept (List.mem_of_mem_erase member) nofun
  | cancelClaim claim =>
    rcases mem_inserted.mp member with old | rfl
    · exact kept (List.mem_of_mem_erase old) nofun
    · exact issued (sound.calls _ enabled)
  | rollbackQueueClaim => exact kept (List.mem_of_mem_erase member) nofun
  | lockForFinish =>
    rcases mem_inserted.mp member with old | rfl
    · exact kept old nofun
    · trivial
  | verifyFinish finish =>
    unfold perform at member ⊢
    dsimp only at member ⊢
    split at member
    · rename_i passed
      rcases mem_inserted.mp member with old | rfl
      · have knows := kept (List.mem_of_mem_erase old) nofun
        unfold perform at knows
        dsimp only at knows
        rwa [passed] at knows
      · obtain ⟨row, found, legacy, still, request, owned⟩ := Finish.verdict_ok passed
        obtain ⟨inside, named⟩ := World.message?_mem found
        refine ⟨row, inside, named, legacy, still, request, fun claimToken given => ?_⟩
        obtain ⟨claim, lease, token, started, owner⟩ := owned claimToken given
        obtain ⟨registered, own, here⟩ := getLease_mem lease
        refine ⟨claim, sound.leases claim registered, own, here, token, ?_, owner⟩
        -- A row that is neither pending nor terminal is claimed.
        cases status : row.status with
        | claimed => rfl
        | pending => exact absurd status started
        | done => exact absurd (.inl status) still
        | failed => exact absurd (.inr (.inl status)) still
        | cancelled => exact absurd (.inr (.inr status)) still
    · rename_i error refused
      have knows := kept (List.mem_of_mem_erase member) nofun
      unfold perform at knows
      dsimp only at knows
      rwa [refused] at knows
  | commitFinish finish replyId now =>
    rcases mem_inserted.mp member with old | rfl
    · refine knows_kept sound enabled (List.mem_of_mem_erase old) ?_
      rintro other _ _ ⟨⟩ locks
      exact sound.alone enabled.1 rfl (List.mem_filterMap.mpr ⟨call, old, locks⟩)
    · obtain ⟨row, inside, named, legacy, -⟩ := sound.calls _ enabled.1
      refine ⟨finish.outcome.apply now row, ?_, ?_, ?_⟩
      · rw [perform_messages]
        refine List.mem_append_left _ (mem_updateWhere.mpr (.inl ⟨row, inside, ?_, rfl⟩))
        exact decide_eq_true ⟨named, legacy⟩
      · exact (@touch_same world (.commitFinish finish replyId now) row).1.trans named
      · exact finish.outcome.apply_terminal now row
  | releaseFinished => exact kept (List.mem_of_mem_erase member) nofun
  | sweepStaleQueueClaims => exact kept member nofun
  | requeue => exact kept member nofun
  | refreshQueueLeases process =>
    rcases mem_inserted.mp member with old | rfl
    · exact kept old nofun
    · intro entry found
      obtain ⟨inside, own⟩ := List.mem_filter.mp found
      exact ⟨sound.leases entry inside, of_decide_eq_true own⟩
  | refreshNext process entry rest now =>
    rcases mem_inserted.mp member with old | rfl
    · exact kept (List.mem_of_mem_erase old) nofun
    · have entries := sound.calls _ enabled.1
      refine ⟨fun other found => entries other (List.mem_cons_of_mem _ found),
        (entries entry List.mem_cons_self).1, (entries entry List.mem_cons_self).2,
        fun none row found claimed => ?_⟩
      -- No row was refreshed, so none was claimed under this string.
      rcases claimed_before found claimed with ⟨old, inside, -, before⟩ | ⟨_, made, -⟩
      · have here := sound.rows entry (entries entry List.mem_cons_self).1 old inside before
        have few := List.countP_eq_zero.mp none old inside
        exact few (decide_eq_true ⟨here.1, before, here.2.1, here.2.2.1⟩)
      · cases made
  | refreshEnd process entry count rest =>
    rcases mem_inserted.mp member with old | rfl
    · exact kept (List.mem_of_mem_erase old) nofun
    · exact (sound.calls _ enabled).1
  | restart => exact kept (List.mem_filter.mp member).1 nofun

theorem sound_execute (world : World) (step : Step) (sound : Sound world) :
    Sound (execute world step) := by
  unfold execute
  split
  case isFalse => exact sound
  case isTrue enabled =>
  exact {
    ids := perform_ids_nodup sound enabled
    locks := perform_locks sound enabled
    tokens := perform_distinct sound.tokens fun claim made => (issues_fresh enabled made).1.1
    owners := perform_distinct sound.owners fun claim made => (issues_fresh enabled made).1.2.1
    leases := perform_leases sound enabled
    rows := perform_rows sound enabled
    calls := perform_calls sound enabled }

theorem sound_initial {messages : List MessageRow} (ids : (messages.map (·.id)).Nodup) :
    Sound (World.initial messages) where
  ids := ids
  locks := List.nodup_nil
  tokens := List.nodup_nil
  owners := List.nodup_nil
  leases := List.forall_mem_nil _
  rows := List.forall_mem_nil _
  calls := List.forall_mem_nil _

end Queue
end Scrum4Me
