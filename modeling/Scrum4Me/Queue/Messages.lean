import Scrum4Me.Foundation.Newest
import Scrum4Me.Foundation.Table
import Scrum4Me.Jobs.Schema
import Mathlib.Data.String.Basic

/-!
# Messages of the queue

Agents send each other requests and answer them with replies; both are rows of
`agent_message`. Rows that carry a marker belong to the fenced lane, rows that
carry a dispatch identity to the projector; the ordinary tools leave both alone.
-/

namespace Scrum4Me
namespace Queue

open Foundation
open Jobs (Moment)

inductive MessageStatus
  | pending | claimed | done | failed | cancelled
  deriving DecidableEq

def MessageStatus.text : MessageStatus → String
  | .pending => "pending"
  | .claimed => "claimed"
  | .done => "done"
  | .failed => "failed"
  | .cancelled => "cancelled"

/-- `QUEUE_TERMINAL_STATUSES`. -/
def MessageStatus.Terminal (status : MessageStatus) : Prop :=
  status = .done ∨ status = .failed ∨ status = .cancelled

instance (status : MessageStatus) : Decidable status.Terminal :=
  inferInstanceAs (Decidable (_ ∨ _))

inductive MessageType
  | task | info | reviewRequest | result | data | reviewed
  deriving DecidableEq

def MessageType.text : MessageType → String
  | .task => "task"
  | .info => "info"
  | .reviewRequest => "review_request"
  | .result => "result"
  | .data => "data"
  | .reviewed => "reviewed"

/-- `QUEUE_REPLY_TYPE`, for the types of requests. -/
def queueReplyType : MessageType → Option MessageType
  | .task => some .result
  | .info => some .data
  | .reviewRequest => some .reviewed
  | _ => none

/-- `isQueueRequestType`. -/
def MessageType.IsRequest (type : MessageType) : Prop := queueReplyType type ≠ none

instance (type : MessageType) : Decidable type.IsRequest :=
  inferInstanceAs (Decidable (_ ≠ none))

/-- `MARKER_COLUMNS`. -/
structure Marker where
  protocol : Option String := none
  runId : Option String := none
  operationKey : Option String := none
  payloadSha256 : Option String := none
  fromPrincipal : Option String := none
  toPrincipal : Option String := none
  toConsumerId : Option String := none
  consumerGeneration : Option Nat := none
  leaseGeneration : Option Nat := none
  deriving DecidableEq

/-- The dispatch identity of a row: all columns are null, or none is. -/
structure Projection where
  requestId : Option String := none
  version : Option Nat := none
  role : Option String := none
  deriving DecidableEq

/-- `agent_message`. -/
structure MessageRow where
  id : String
  type : MessageType
  fromServer : String
  fromModel : String
  toServer : String
  toModel : String
  body : String
  /-- `meta->>'action'`. -/
  action : Option String := none
  source : String
  status : MessageStatus := .pending
  inReplyTo : Option String := none
  error : Option String := none
  claimedBy : Option String := none
  claimedAt : Option Moment := none
  startedAt : Option Moment := none
  finishedAt : Option Moment := none
  createdAt : Moment
  archivedAt : Option Moment := none
  marker : Marker := {}
  projection : Projection := {}
  deriving DecidableEq

namespace MessageRow

variable (row : MessageRow)

/-- `LEGACY_MARKER_SQL`. -/
def Legacy : Prop := row.marker = {}

/-- `ORDINARY_DISPATCH_SQL`. -/
def Ordinary : Prop := row.projection = {}

/-- `NOT_RULES_SYNC_SQL`. -/
def NotRulesSync : Prop := row.action ≠ some "rules-sync"

instance : Decidable row.Legacy := inferInstanceAs (Decidable (_ = _))
instance : Decidable row.Ordinary := inferInstanceAs (Decidable (_ = _))
instance : Decidable row.NotRulesSync := inferInstanceAs (Decidable (_ ≠ _))

/-- `claimed_at < now() - interval`; a missing time is not before any. -/
def ClaimedBefore (moment : Moment) : Prop :=
  ∃ claimedAt ∈ row.claimedAt, claimedAt < moment

instance (moment : Moment) : Decidable (row.ClaimedBefore moment) :=
  match found : row.claimedAt with
  | none => .isFalse fun ⟨_, member, _⟩ => by rw [found] at member; cases member
  | some claimedAt =>
      decidable_of_iff (claimedAt < moment) ⟨fun before => ⟨claimedAt, found, before⟩,
          fun ⟨_, member, before⟩ =>
            Option.some.inj (found.symm.trans member) ▸ before⟩

/-- The row is claimed under this string. -/
def ClaimedUnder (claimedBy : String) : Prop :=
  row.status = .claimed ∧ row.claimedBy = some claimedBy

instance (claimedBy : String) : Decidable (row.ClaimedUnder claimedBy) :=
  inferInstanceAs (Decidable (_ ∧ _))

/-- `status = 'pending', claimed_by = NULL, claimed_at = NULL, started_at = NULL`. -/
def requeued : MessageRow :=
  { row with
    status := .pending
    claimedBy := none
    claimedAt := none
    startedAt := none }

end MessageRow

/-- `ORDER BY created_at, id`. -/
def oldestFirst (rows : List MessageRow) : List MessageRow :=
  newestFirst (fun row => OrderDual.toDual (toLex (row.createdAt, row.id))) rows

@[simp] theorem mem_oldestFirst {rows : List MessageRow} {row : MessageRow} :
    row ∈ oldestFirst rows ↔ row ∈ rows :=
  mem_newestFirst

end Queue
end Scrum4Me
