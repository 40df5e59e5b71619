import Scrum4Me.Foundation.Execution
import Scrum4Me.Queue.Messages

/-!
# Claims of requests

`queue_next` claims the oldest request for its address under a string of its own,
and remembers the claim in a register of its process. `queue_done` and `queue_fail`
finish a request: with the token of the claim, checked against that register and
under a row lock against the row, or without one while the request is pending.
Sweeps and requeues take claims back, also while their worker is still busy.
-/

namespace Scrum4Me
namespace Queue

open Foundation
open Jobs (Moment)

/-! ## Claims and the register -/

/-- A claim that a process was given: `claimed_by` is `mcp:<instance>:<token>`. -/
structure Claim where
  process : String
  messageId : String
  claimToken : String
  claimedBy : String
  deriving DecidableEq

def claimedByOf (instanceId claimToken : String) : String :=
  "mcp:" ++ instanceId ++ ":" ++ claimToken

/-- `getLease`. The registers of all processes are one list. -/
def getLease (leases : List Claim) (process messageId : String) : Option Claim :=
  leases.find? fun lease => lease.process = process ∧ lease.messageId = messageId

/-- `releaseLease`. -/
def releaseLease (leases : List Claim) (process messageId : String) : List Claim :=
  leases.filter fun lease => ¬ (lease.process = process ∧ lease.messageId = messageId)

/-- `registerLease`: the map is keyed by the message alone. -/
def registerLease (leases : List Claim) (lease : Claim) : List Claim :=
  releaseLease leases lease.process lease.messageId ++ [lease]

/-! ## Who may finish -/

/-- `verifyLocalOwnership`: the `claimed_by` that the row must have, if any. -/
def verifyLocalOwnership (lease : Option Claim) (messageId : String) (rowStatus : MessageStatus)
    (claimToken : Option String) :
    Except String (Option String) :=
  if rowStatus = .pending then
    match claimToken with
    | some _ => .error ("QUEUE_CLAIM_EXPIRED: message " ++ messageId ++
        " is pending again — the claim behind this token was requeued; discard " ++
        "local work and re-claim via queue_next")
    | none => .ok none
  else
    match lease with
    | none =>
        match claimToken with
        | some _ => .error ("QUEUE_CLAIM_EXPIRED: no active lease for message " ++
            messageId ++ " in this process — claims do not survive an MCP restart; " ++
            "discard local work and re-claim via queue_next")
        | none => .error ("QUEUE_NOT_CLAIMER: message " ++ messageId ++
            " is claimed by another owner (CLI or another process); the MCP never " ++
            "finishes claims it did not issue — use CLI requeue if stuck")
    | some lease =>
        if claimToken = some lease.claimToken then .ok (some lease.claimedBy)
        else .error ("QUEUE_NOT_CLAIMER: claim_token does not match the active " ++
          "lease for message " ++ messageId)

/-- What a call of `queue_done` or `queue_fail` leaves. -/
inductive Outcome
  | done (reply : Option String)
  | failed (error : String)
  deriving DecidableEq

/-- A call of `queue_done` or `queue_fail`. -/
structure Finish where
  process : String
  messageId : String
  outcome : Outcome
  claimToken : Option String
  deriving DecidableEq

/-- The checks of a call on the locked row, in their order. -/
def Finish.verdict (finish : Finish) (row : Option MessageRow) (lease : Option Claim) :
    Except String Unit :=
  match row with
  | none => .error ("QUEUE_NOT_FOUND: message " ++ finish.messageId ++ " does not exist")
  | some row =>
      if ¬ row.Legacy then .error "PPE_LEGACY_ROUTE_REJECTED"
      else if row.status.Terminal then
        .error ("QUEUE_ALREADY_TERMINAL: message " ++ finish.messageId ++
          " is already " ++ row.status.text)
      else do
        let expected ← verifyLocalOwnership lease finish.messageId row.status
          finish.claimToken
        if expected ≠ none ∧ row.claimedBy ≠ expected then
          .error ("QUEUE_NOT_CLAIMER: message " ++ finish.messageId ++
            " was re-claimed by another owner")
        else
          match finish.outcome with
          | .done (some _) =>
              if row.type.IsRequest then .ok ()
              else .error ("VALIDATION_ERROR: reply is only possible on request " ++
                "messages (task/info/review_request); message " ++ finish.messageId ++
                " has type " ++ row.type.text)
          | _ => .ok ()

/-- The reply row, addressed back to the requester. -/
def replyRow (request : MessageRow) (replyId body : String) (now : Moment) :
    MessageRow where
  id := replyId
  type := (queueReplyType request.type).getD request.type
  fromServer := request.toServer
  fromModel := request.toModel
  toServer := request.fromServer
  toModel := request.fromModel
  body := body
  inReplyTo := some request.id
  source := "mcp"
  createdAt := now

/-- What a finish makes of the row. -/
def Outcome.apply (outcome : Outcome) (now : Moment) (row : MessageRow) : MessageRow :=
  match outcome with
  | .done _ => { row with status := .done, finishedAt := some now }
  | .failed error =>
      { row with status := .failed, error := some error, finishedAt := some now }

/-! ## The machine -/

/-- A call in flight, by what it does next. -/
inductive Call
  /-- The claim is committed; the process does not know yet. -/
  | claimed (claim : Claim)
  /-- The claim is registered; the response is left, or the cancellation. -/
  | registered (claim : Claim)
  /-- The lease is released; the claim is left to roll back. -/
  | rollingBack (claim : Claim)
  /-- The row is locked. -/
  | finishing (finish : Finish)
  /-- The checks have passed; the row is still locked. -/
  | verified (finish : Finish)
  /-- The transaction is committed; the lease is left to release. -/
  | finished (finish : Finish)
  /-- The leases that a refresh has still to go through. -/
  | refreshing (process : String) (entries : List Claim)
  /-- A lease was refreshed, in so many rows. -/
  | refreshed (process : String) (entry : Claim) (count : Nat) (rest : List Claim)
  deriving DecidableEq

def Call.process : Call → String
  | .claimed claim => claim.process
  | .registered claim => claim.process
  | .rollingBack claim => claim.process
  | .finishing finish => finish.process
  | .verified finish => finish.process
  | .finished finish => finish.process
  | .refreshing process _ => process
  | .refreshed process _ _ _ => process

/-- The message whose row the transaction of the call has locked. -/
def Call.locks : Call → Option String
  | .finishing finish => some finish.messageId
  | .verified finish => some finish.messageId
  | _ => none

/-- What a finishing call has answered. -/
inductive Answer
  | finished (finish : Finish)
  | refused (finish : Finish) (error : String)
  deriving DecidableEq

structure World where
  messages : List MessageRow
  leases : List Claim
  calls : List Call
  /-- All claims ever made. -/
  issued : List Claim
  /-- The claims whose token a caller was given by a process that still runs. -/
  returned : List Claim
  answers : List Answer
  deriving DecidableEq

namespace World

variable (world : World)

def message? (messageId : String) : Option MessageRow :=
  world.messages.find? fun row => row.id = messageId

/-- A transaction in flight has locked the row. -/
def Locked (messageId : String) : Prop :=
  ∃ call ∈ world.calls, call.locks = some messageId

instance (messageId : String) : Decidable (world.Locked messageId) :=
  inferInstanceAs (Decidable (∃ _ ∈ _, _))

def updateMessages (matching : MessageRow → Bool) (change : MessageRow → MessageRow) :
    World :=
  { world with messages := updateWhere matching change world.messages }

def proceeds (call next : Call) : World :=
  { world with calls := world.calls.erase call ++ [next] }

def ended (call : Call) : World :=
  { world with calls := world.calls.erase call }

end World

/-- The parameters of one run of `claimNextRequest`, with the rows that other
transactions have locked at that moment. -/
structure ClaimQuery where
  server : String
  model : String
  now : Moment
  reclaimBefore : Moment
  skipped : List String
  deriving DecidableEq

/-- The request that `claimNextRequest` selects. -/
def World.target (world : World) (query : ClaimQuery) : Option MessageRow :=
  (oldestFirst (world.messages.filter fun row =>
    row.toServer = query.server ∧ row.toModel = query.model ∧ row.type.IsRequest ∧
      row.Legacy ∧ row.Ordinary ∧ row.NotRulesSync ∧ (row.status = .pending ∨
          row.status = .claimed ∧ row.ClaimedBefore query.reclaimBefore) ∧
          ¬ world.Locked row.id ∧ row.id ∉ query.skipped)).head?

/-- The token was never given out, and no row carries the string. -/
def World.Fresh (world : World) (claimToken claimedBy : String) : Prop :=
  claimToken ∉ world.issued.map (·.claimToken) ∧
    claimedBy ∉ world.issued.map (·.claimedBy) ∧
      some claimedBy ∉ world.messages.map (·.claimedBy)

instance (world : World) (claimToken claimedBy : String) :
    Decidable (world.Fresh claimToken claimedBy) :=
  inferInstanceAs (Decidable (_ ∧ _))

/-- A claim that the sweep takes back: `mcp:` claims soon, others late. -/
def Stale (mcpBefore cliBefore : Moment) (row : MessageRow) : Prop :=
  row.status = .claimed ∧ row.Legacy ∧ row.Ordinary ∧
    ((∃ owner ∈ row.claimedBy, owner.startsWith "mcp:" = true) ∧
        row.ClaimedBefore mcpBefore ∨
      ¬ (∃ owner ∈ row.claimedBy, owner.startsWith "mcp:" = true) ∧
        row.ClaimedBefore cliBefore)

instance (mcpBefore cliBefore : Moment) (row : MessageRow) :
    Decidable (Stale mcpBefore cliBefore row) := by
  unfold Stale
  infer_instance

/-- The row that a refresh of this lease writes. -/
def Claim.Refreshes (entry : Claim) (row : MessageRow) : Prop :=
  row.id = entry.messageId ∧ row.ClaimedUnder entry.claimedBy ∧ row.Legacy ∧ row.Ordinary

instance (entry : Claim) (row : MessageRow) : Decidable (entry.Refreshes row) :=
  inferInstanceAs (Decidable (_ ∧ _))

/-- The row that the rollback of this claim writes. -/
def Claim.RollsBack (claim : Claim) (row : MessageRow) : Prop :=
  row.id = claim.messageId ∧ row.ClaimedUnder claim.claimedBy ∧ row.Legacy ∧ row.Ordinary

instance (claim : Claim) (row : MessageRow) : Decidable (claim.RollsBack row) :=
  inferInstanceAs (Decidable (_ ∧ _))

/-- One transaction, one statement of a transaction that holds a lock, or one
continuation in a process. `requeue` is anyone else who takes a claim back;
`restart` ends a process at any point. -/
inductive Step
  | claimNextRequest (process instanceId claimToken : String) (query : ClaimQuery)
  | registerLease (claim : Claim)
  | returnClaim (claim : Claim)
  | cancelClaim (claim : Claim)
  | rollbackQueueClaim (claim : Claim)
  | lockForFinish (finish : Finish)
  | verifyFinish (finish : Finish)
  | commitFinish (finish : Finish) (replyId : String) (now : Moment)
  | releaseFinished (finish : Finish)
  | sweepStaleQueueClaims (mcpBefore cliBefore : Moment) (skipped : List String)
  | requeue (messageId : String)
  | refreshQueueLeases (process : String)
  | refreshNext (process : String) (entry : Claim) (rest : List Claim) (now : Moment)
  | refreshEnd (process : String) (entry : Claim) (count : Nat) (rest : List Claim)
  | restart (process : String)
  deriving DecidableEq

namespace Step

/-- The step can be taken in this state. -/
def Enabled (world : World) : Step → Prop
  | claimNextRequest _ instanceId claimToken _ =>
      world.Fresh claimToken (claimedByOf instanceId claimToken)
  | registerLease claim => .claimed claim ∈ world.calls
  | returnClaim claim => .registered claim ∈ world.calls
  | cancelClaim claim => .registered claim ∈ world.calls
  | rollbackQueueClaim claim =>
      .rollingBack claim ∈ world.calls ∧ ¬ world.Locked claim.messageId
  | lockForFinish finish => ¬ world.Locked finish.messageId
  | verifyFinish finish => .finishing finish ∈ world.calls
  | commitFinish finish replyId _ =>
      .verified finish ∈ world.calls ∧ replyId ∉ world.messages.map (·.id)
  | releaseFinished finish => .finished finish ∈ world.calls
  | sweepStaleQueueClaims _ _ _ => True
  | requeue messageId => ¬ world.Locked messageId
  | refreshQueueLeases _ => True
  | refreshNext process entry rest _ =>
      .refreshing process (entry :: rest) ∈ world.calls ∧ ¬ world.Locked entry.messageId
  | refreshEnd process entry count rest =>
      .refreshed process entry count rest ∈ world.calls
  | restart _ => True

instance (world : World) (step : Step) : Decidable (step.Enabled world) := by
  apply @Step.casesOn (fun step => Decidable (step.Enabled world)) step <;>
    intros <;> dsimp only [Enabled] <;> infer_instance

end Step

/-- The transaction of `claimNextRequest`. -/
def World.claimed (world : World) (process instanceId claimToken : String) (query : ClaimQuery) :
    World :=
  match world.target query with
  | none => world
  | some row =>
      let claimedBy := claimedByOf instanceId claimToken
      let claim : Claim :=
        { process := process
          messageId := row.id
          claimToken := claimToken
          claimedBy := claimedBy }
      { world.updateMessages (·.id = row.id) fun row =>
          { row with
            status := .claimed
            claimedBy := some claimedBy
            claimedAt := some query.now
            startedAt := some query.now } with
        calls := world.calls ++ [.claimed claim]
        issued := world.issued ++ [claim] }

/-- The statements of a finishing transaction after its checks, and its commit. -/
def World.finished (world : World) (finish : Finish) (replyId : String) (now : Moment) :
    World :=
  let replies : List MessageRow :=
    match finish.outcome, world.message? finish.messageId with
    | .done (some reply), some request => [replyRow request replyId reply now]
    | _, _ => []
  { world.proceeds (.verified finish) (.finished finish) with
    messages := updateWhere (fun row => row.id = finish.messageId ∧ row.Legacy)
      (finish.outcome.apply now) world.messages ++ replies }

def perform (world : World) : Step → World
  | .claimNextRequest process instanceId claimToken query =>
      world.claimed process instanceId claimToken query
  | .registerLease claim =>
      { world.proceeds (.claimed claim) (.registered claim) with
        leases := registerLease world.leases claim }
  | .returnClaim claim =>
      { world.ended (.registered claim) with returned := world.returned ++ [claim] }
  | .cancelClaim claim =>
      { world.proceeds (.registered claim) (.rollingBack claim) with
        leases := releaseLease world.leases claim.process claim.messageId }
  | .rollbackQueueClaim claim =>
      (world.updateMessages (fun row => claim.RollsBack row) MessageRow.requeued).ended
        (.rollingBack claim)
  | .lockForFinish finish =>
      { world with calls := world.calls ++ [.finishing finish] }
  | .verifyFinish finish =>
      match finish.verdict (world.message? finish.messageId)
          (getLease world.leases finish.process finish.messageId) with
      | .ok () => world.proceeds (.finishing finish) (.verified finish)
      | .error error =>
          { world.ended (.finishing finish) with
            answers := world.answers ++ [.refused finish error] }
  | .commitFinish finish replyId now => world.finished finish replyId now
  | .releaseFinished finish =>
      { world.ended (.finished finish) with
        leases := releaseLease world.leases finish.process finish.messageId
        answers := world.answers ++ [.finished finish] }
  | .sweepStaleQueueClaims mcpBefore cliBefore skipped =>
      world.updateMessages (fun row => Stale mcpBefore cliBefore row ∧ ¬ world.Locked row.id ∧
          row.id ∉ skipped)
        MessageRow.requeued
  | .requeue messageId =>
      world.updateMessages (fun row => row.id = messageId ∧ row.status = .claimed)
        MessageRow.requeued
  | .refreshQueueLeases process =>
      { world with
        calls := world.calls ++ [.refreshing process (world.leases.filter (·.process = process))] }
  | .refreshNext process entry rest now =>
      (world.updateMessages (fun row => entry.Refreshes row) fun row =>
        { row with claimedAt := some now }).proceeds (.refreshing process (entry :: rest))
          (.refreshed process entry (world.messages.countP fun row => entry.Refreshes row) rest)
  | .refreshEnd process entry count rest =>
      { world.proceeds (.refreshed process entry count rest) (.refreshing process rest) with
        leases :=
          if count = 0 then releaseLease world.leases process entry.messageId
          else world.leases }
  | .restart process =>
      { world with
        leases := world.leases.filter (·.process ≠ process)
        calls := world.calls.filter (·.process ≠ process)
        returned := world.returned.filter (·.process ≠ process) }

def execute (world : World) (step : Step) : World :=
  if step.Enabled world then perform world step else world

/-- Messages of any kind, and no process yet. -/
def World.initial (messages : List MessageRow) : World where
  messages := messages
  leases := []
  calls := []
  issued := []
  returned := []
  answers := []

end Queue
end Scrum4Me
