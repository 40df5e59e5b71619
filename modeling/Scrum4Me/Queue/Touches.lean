import Scrum4Me.Queue.Machine

/-!
# What a step does to messages

A step rewrites the rows that match a condition, and a finish may add a reply. No
row that is done, failed or cancelled matches, only a claim puts a row under
another claim, and a call holds the only lock on its row.
-/

namespace Scrum4Me
namespace Queue

open Foundation
open Jobs (Moment)

/-- The rows that a step rewrites, what it makes of them, and the rows it adds. -/
structure Touch where
  matching : MessageRow → Bool := fun _ => false
  change : MessageRow → MessageRow := id
  replies : List MessageRow := []

/-- The reply that a finish inserts. -/
def World.replies (world : World) (finish : Finish) (replyId : String) (now : Moment) :
    List MessageRow :=
  match finish.outcome, world.message? finish.messageId with
  | .done (some reply), some request => [replyRow request replyId reply now]
  | _, _ => []

def Step.touch (world : World) : Step → Touch
  | claimNextRequest _ instanceId claimToken query =>
      match world.target query with
      | none => {}
      | some target =>
          { matching := (·.id = target.id)
            change := fun row =>
              { row with
                status := .claimed
                claimedBy := some (claimedByOf instanceId claimToken)
                claimedAt := some query.now
                startedAt := some query.now } }
  | rollbackQueueClaim claim =>
      { matching := fun row => claim.RollsBack row, change := MessageRow.requeued }
  | commitFinish finish replyId now =>
      { matching := fun row => row.id = finish.messageId ∧ row.Legacy
        change := finish.outcome.apply now
        replies := world.replies finish replyId now }
  | sweepStaleQueueClaims mcpBefore cliBefore skipped =>
      { matching := fun row =>
          Stale mcpBefore cliBefore row ∧ ¬ world.Locked row.id ∧ row.id ∉ skipped
        change := MessageRow.requeued }
  | requeue messageId =>
      { matching := fun row => row.id = messageId ∧ row.status = .claimed
        change := MessageRow.requeued }
  | refreshNext _ entry _ now =>
      { matching := fun row => entry.Refreshes row
        change := fun row => { row with claimedAt := some now } }
  | _ => {}

variable {world : World}

theorem updateWhere_false (change : α → α) (table : List α) :
    updateWhere (fun _ => false) change table = table :=
  updateWhere_eq_self fun _ _ found => nomatch found

/-- The messages after a step. -/
theorem perform_messages (world : World) (step : Step) :
    (perform world step).messages =
      updateWhere (step.touch world).matching (step.touch world).change world.messages ++
        (step.touch world).replies := by
  have idle : world.messages = updateWhere (fun _ => false) id world.messages ++ [] := by
    rw [updateWhere_false, List.append_nil]
  cases step with
  | claimNextRequest process instanceId claimToken query =>
    show (world.claimed process instanceId claimToken query).messages = _
    unfold World.claimed Step.touch
    dsimp only
    cases world.target query with
    | none => exact idle
    | some target => exact (List.append_nil _).symm
  | verifyFinish finish =>
    unfold perform
    dsimp only
    split <;> exact idle
  | commitFinish => rfl
  | rollbackQueueClaim => exact (List.append_nil _).symm
  | sweepStaleQueueClaims => exact (List.append_nil _).symm
  | requeue => exact (List.append_nil _).symm
  | refreshNext => exact (List.append_nil _).symm
  | _ => exact idle

/-- The columns of a message that no step writes. -/
def MessageRow.Same (row row' : MessageRow) : Prop :=
  row'.id = row.id ∧ row'.type = row.type ∧ row'.inReplyTo = row.inReplyTo ∧
    row'.marker = row.marker ∧ row'.projection = row.projection

theorem touch_same (step : Step) (row : MessageRow) : row.Same ((step.touch world).change row) := by
  cases step with
  | claimNextRequest process instanceId claimToken query =>
    unfold Step.touch
    dsimp only
    split <;> exact ⟨rfl, rfl, rfl, rfl, rfl⟩
  | commitFinish finish =>
    unfold Step.touch Outcome.apply
    dsimp only
    split <;> exact ⟨rfl, rfl, rfl, rfl, rfl⟩
  | _ => exact ⟨rfl, rfl, rfl, rfl, rfl⟩

variable {row : MessageRow}

/-- The request that a claim selects. -/
theorem World.target_mem {query : ClaimQuery} (found : world.target query = some row) :
    row ∈ world.messages ∧ row.type.IsRequest ∧ row.Legacy ∧ row.Ordinary ∧
      (row.status = .pending ∨ row.status = .claimed) ∧ ¬ world.Locked row.id := by
  have member := List.mem_of_head? found
  rw [mem_oldestFirst, List.mem_filter] at member
  obtain ⟨inside, criteria⟩ := member
  obtain ⟨-, -, request, legacy, ordinary, -, status, free, -⟩ := of_decide_eq_true criteria
  exact ⟨inside, request, legacy, ordinary, status.imp id And.left, free⟩

/-- The claim that a step makes. -/
def Step.issues (world : World) : Step → Option Claim
  | claimNextRequest process instanceId claimToken query =>
      (world.target query).map fun row =>
        { process := process
          messageId := row.id
          claimToken := claimToken
          claimedBy := claimedByOf instanceId claimToken }
  | _ => none

theorem perform_issued (world : World) (step : Step) :
    (perform world step).issued = world.issued ++ (step.issues world).toList := by
  have idle : world.issued = world.issued ++ [] := (List.append_nil _).symm
  cases step with
  | claimNextRequest process instanceId claimToken query =>
    show (world.claimed process instanceId claimToken query).issued = _
    unfold World.claimed Step.issues
    dsimp only
    cases world.target query with
    | none => exact idle
    | some target => rfl
  | verifyFinish finish =>
    unfold perform
    dsimp only
    split <;> exact idle
  | _ => exact idle

/-! ## The invariant -/

/-- What a call in flight knows. -/
def Call.Knows (world : World) : Call → Prop
  | .claimed claim => claim ∈ world.issued
  | .registered claim => claim ∈ world.issued
  | .rollingBack claim => claim ∈ world.issued
  | .finishing _ => True
  | .verified finish =>
      ∃ row ∈ world.messages, row.id = finish.messageId ∧ row.Legacy ∧
        ¬ row.status.Terminal ∧
          (∀ reply, finish.outcome = .done (some reply) → row.type.IsRequest) ∧
            ∀ claimToken, finish.claimToken = some claimToken →
              ∃ claim ∈ world.issued, claim.process = finish.process ∧
                claim.messageId = finish.messageId ∧ claim.claimToken = claimToken ∧
                  row.ClaimedUnder claim.claimedBy
  | .finished finish =>
      ∃ row ∈ world.messages, row.id = finish.messageId ∧ row.status.Terminal
  | .refreshing process entries =>
      ∀ entry ∈ entries, entry ∈ world.issued ∧ entry.process = process
  | .refreshed process entry count rest =>
      (∀ entry ∈ rest, entry ∈ world.issued ∧ entry.process = process) ∧
        entry ∈ world.issued ∧ entry.process = process ∧
          (count = 0 → ∀ row ∈ world.messages, ¬ row.ClaimedUnder entry.claimedBy)

/-- What every reachable state satisfies. -/
structure Sound (world : World) : Prop where
  ids : (world.messages.map (·.id)).Nodup
  locks : (world.calls.filterMap Call.locks).Nodup
  tokens : (world.issued.map (·.claimToken)).Nodup
  owners : (world.issued.map (·.claimedBy)).Nodup
  leases : ∀ lease ∈ world.leases, lease ∈ world.issued
  rows : ∀ claim ∈ world.issued, ∀ row ∈ world.messages,
    row.ClaimedUnder claim.claimedBy →
      row.id = claim.messageId ∧ row.Legacy ∧ row.Ordinary ∧ row.type.IsRequest
  calls : ∀ call ∈ world.calls, call.Knows world

theorem Sound.row_unique (sound : Sound world) {first second : MessageRow}
    (firstMember : first ∈ world.messages) (secondMember : second ∈ world.messages)
    (same : first.id = second.id) :
    first = second :=
  List.inj_on_of_nodup_map sound.ids firstMember secondMember same

theorem Sound.claim_of_token
    (sound : Sound world) {first second : Claim} (firstMember : first ∈ world.issued)
    (secondMember : second ∈ world.issued) (same : first.claimToken = second.claimToken) :
    first = second :=
  List.inj_on_of_nodup_map sound.tokens firstMember secondMember same

theorem Sound.claim_of_owner
    (sound : Sound world) {first second : Claim} (firstMember : first ∈ world.issued)
    (secondMember : second ∈ world.issued) (same : first.claimedBy = second.claimedBy) :
    first = second :=
  List.inj_on_of_nodup_map sound.owners firstMember secondMember same

/-- No call besides it holds the lock of a call. -/
theorem Sound.alone
    (sound : Sound world) {call : Call} (member : call ∈ world.calls) {messageId : String}
    (locks : call.locks = some messageId) :
    messageId ∉ (world.calls.erase call).filterMap Call.locks := by
  have order := (List.perm_cons_erase member).filterMap Call.locks
  rw [List.filterMap_cons, locks] at order
  exact (List.nodup_cons.mp (order.nodup_iff.mp sound.locks)).1

/-! ## What the rewritten rows were -/

variable {step : Step}

/-- Only rows that are not terminal are rewritten. -/
theorem touch_open (sound : Sound world) (enabled : step.Enabled world)
    (member : row ∈ world.messages) (matched : (step.touch world).matching row = true) :
    ¬ row.status.Terminal := by
  have claimed : row.status = .claimed → ¬ row.status.Terminal := by
    intro status
    rw [status]
    decide
  cases step with
  | claimNextRequest process instanceId claimToken query =>
    unfold Step.touch at matched
    dsimp only at matched
    cases found : world.target query with
    | none =>
      rw [found] at matched
      cases matched
    | some target =>
      rw [found] at matched
      obtain ⟨inside, -, -, -, status, -⟩ := World.target_mem found
      rw [sound.row_unique member inside (of_decide_eq_true matched)]
      rcases status with status | status <;> (rw [status]; decide)
  | rollbackQueueClaim claim => exact claimed (of_decide_eq_true matched).2.1.1
  | commitFinish finish =>
    obtain ⟨verified, inside, named, -, still, -⟩ := sound.calls _ enabled.1
    have here : row.id = finish.messageId ∧ row.Legacy := of_decide_eq_true matched
    rwa [sound.row_unique member inside (here.1.trans named.symm)]
  | sweepStaleQueueClaims mcpBefore cliBefore skipped =>
    have stale : Stale mcpBefore cliBefore row ∧ _ := of_decide_eq_true matched
    exact claimed stale.1.1
  | requeue messageId =>
    have here : row.id = messageId ∧ row.status = .claimed := of_decide_eq_true matched
    exact claimed here.2
  | refreshNext process entry =>
    have refreshes : entry.Refreshes row := of_decide_eq_true matched
    exact claimed refreshes.2.1.1
  | _ => cases matched

variable {claimedBy : String}

/-- A rewritten row is claimed as it was, or by the claim that the step makes. -/
theorem touch_claimed (matched : (step.touch world).matching row = true)
    (claimed : ((step.touch world).change row).ClaimedUnder claimedBy) :
    row.ClaimedUnder claimedBy ∨ ∃ claim ∈ step.issues world, claim.messageId = row.id ∧
        claim.claimedBy = claimedBy := by
  cases step with
  | claimNextRequest process instanceId claimToken query =>
    unfold Step.touch at matched claimed
    unfold Step.issues
    dsimp only at matched claimed ⊢
    cases found : world.target query with
    | none =>
      rw [found] at matched
      cases matched
    | some target =>
      rw [found] at matched claimed
      exact .inr ⟨_, rfl, (of_decide_eq_true matched).symm, Option.some.inj claimed.2⟩
  | rollbackQueueClaim => exact nomatch claimed.1
  | commitFinish finish =>
    have status := claimed.1
    unfold Step.touch Outcome.apply at status
    dsimp only at status
    split at status <;> cases status
  | sweepStaleQueueClaims => exact nomatch claimed.1
  | requeue => exact nomatch claimed.1
  | refreshNext => exact .inl ⟨claimed.1, claimed.2⟩
  | _ => cases matched

/-- A locked row is rewritten only by the call that holds its lock. -/
theorem touch_unlocked (enabled : step.Enabled world)
    (matched : (step.touch world).matching row = true) :
    ¬ world.Locked row.id ∨ ∃ finish replyId now, step = .commitFinish finish replyId now ∧
        row.id = finish.messageId := by
  cases step with
  | claimNextRequest process instanceId claimToken query =>
    unfold Step.touch at matched
    dsimp only at matched
    cases found : world.target query with
    | none =>
      rw [found] at matched
      cases matched
    | some target =>
      rw [found] at matched
      rw [show row.id = target.id from of_decide_eq_true matched]
      exact .inl (World.target_mem found).2.2.2.2.2
  | rollbackQueueClaim claim =>
    have rollsBack : claim.RollsBack row := of_decide_eq_true matched
    rw [rollsBack.1]
    exact .inl enabled.2
  | commitFinish finish replyId now =>
    have here : row.id = finish.messageId ∧ row.Legacy := of_decide_eq_true matched
    exact .inr ⟨finish, replyId, now, rfl, here.1⟩
  | sweepStaleQueueClaims mcpBefore cliBefore skipped =>
    have free : _ ∧ ¬ world.Locked row.id ∧ _ := of_decide_eq_true matched
    exact .inl free.2.1
  | requeue messageId =>
    have here : row.id = messageId ∧ row.status = .claimed := of_decide_eq_true matched
    rw [here.1]
    exact .inl enabled
  | refreshNext process entry =>
    have refreshes : entry.Refreshes row := of_decide_eq_true matched
    rw [refreshes.1]
    exact .inl enabled.2
  | _ => cases matched

theorem reply_pending {reply : MessageRow} (member : reply ∈ (step.touch world).replies) :
    ∃ finish replyId now body, step = .commitFinish finish replyId now ∧
      finish.outcome = .done (some body) ∧
        ∃ request ∈ world.messages, request.id = finish.messageId ∧
          reply = replyRow request replyId body now := by
  cases step with
  | claimNextRequest process instanceId claimToken query =>
    unfold Step.touch at member
    dsimp only at member
    split at member <;> cases member
  | commitFinish finish replyId now =>
    change reply ∈ world.replies finish replyId now at member
    unfold World.replies at member
    split at member
    · rename_i body request outcome found
      have criteria := List.find?_some found
      exact ⟨finish, replyId, now, body, rfl, outcome, request,
        List.mem_of_find?_eq_some found, of_decide_eq_true criteria,
        List.mem_singleton.mp member⟩
    · cases member
  | _ => cases member

/-! ## The rows after a step -/

/-- A row that is not rewritten is still there. -/
theorem mem_of_untouched (member : row ∈ world.messages)
    (missed : (step.touch world).matching row = false) :
    row ∈ (perform world step).messages := by
  rw [perform_messages]
  exact List.mem_append_left _ (mem_updateWhere.mpr (.inr ⟨member, missed⟩))

/-- A terminal row stays as it is. -/
theorem terminal_kept (sound : Sound world) (enabled : step.Enabled world)
    (member : row ∈ world.messages) (terminal : row.status.Terminal) :
    row ∈ (perform world step).messages := by
  refine mem_of_untouched member ?_
  cases matched : (step.touch world).matching row with
  | false => rfl
  | true => exact absurd terminal (touch_open sound enabled member matched)

/-- A row that is claimed after a step was claimed by the same before, or the step
made that claim. -/
theorem claimed_before (member : row ∈ (perform world step).messages)
    (claimed : row.ClaimedUnder claimedBy) :
    (∃ old ∈ world.messages, old.Same row ∧ old.ClaimedUnder claimedBy) ∨
      ∃ claim ∈ step.issues world, claim.messageId = row.id ∧ claim.claimedBy = claimedBy := by
  rw [perform_messages] at member
  rcases List.mem_append.mp member with kept | new
  · rcases mem_updateWhere.mp kept with ⟨old, inside, matched, rfl⟩ | ⟨inside, -⟩
    · have same := @touch_same world step old
      rcases touch_claimed matched claimed with before | ⟨claim, made, here, owner⟩
      · exact .inl ⟨old, inside, same, before⟩
      · exact .inr ⟨claim, made, here.trans same.1.symm, owner⟩
    · exact .inl ⟨row, inside, ⟨rfl, rfl, rfl, rfl, rfl⟩, claimed⟩
  · obtain ⟨_, _, _, _, -, -, _, -, -, rfl⟩ := reply_pending new
    exact nomatch claimed.1

end Queue
end Scrum4Me
