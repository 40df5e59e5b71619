import Scrum4Me.Dispatch.Delivery
import Scrum4Me.Queue.Messages

/-!
# Managed messages

The projector writes the visible thread of a request, a root and a reply, into the queue
database. Readers claim and finish the reply. Retention moves a finished thread into the
archive.
-/

namespace Scrum4Me
namespace Projector

open Foundation
open Dispatch (Uuid Timestamp)
open Queue (MessageStatus)

/-! ## Rows -/

inductive Role
  | root | reply
  deriving DecidableEq

/-- `identity`, besides the identifier. -/
structure Identity where
  type : String
  fromServer : String
  fromModel : String
  toServer : String
  toModel : String
  inReplyTo : Option Uuid
  deriving DecidableEq

/-- The dispatch columns: all of them are null, or none is. -/
structure Managed where
  requestId : Uuid
  role : Role
  version : Nat
  deriving DecidableEq

/-- `agent_message`, and with equal columns `agent_message_archive`. -/
structure Message where
  id : Uuid
  identity : Identity
  body : String
  metaText : String
  status : MessageStatus
  claimedBy : Option String
  claimedAt : Option Timestamp
  startedAt : Option Timestamp
  finishedAt : Option Timestamp
  createdAt : Timestamp
  managed : Option Managed
  deriving DecidableEq

namespace Message

variable (row : Message)

/-- The row belongs to the thread of the request. -/
def Of (requestId : Uuid) : Prop := ∃ managed ∈ row.managed, managed.requestId = requestId

instance (requestId : Uuid) : Decidable (row.Of requestId) :=
  inferInstanceAs (Decidable (∃ _ ∈ row.managed, _))

/-- The row has this part in the thread of the request. -/
def Has (requestId : Uuid) (role : Role) : Prop :=
  ∃ managed ∈ row.managed, managed.requestId = requestId ∧ managed.role = role

instance (requestId : Uuid) (role : Role) : Decidable (row.Has requestId role) :=
  inferInstanceAs (Decidable (∃ _ ∈ row.managed, _))

/-- Every part of a thread is the root or the reply. -/
theorem of_iff {requestId : Uuid} :
    row.Of requestId ↔ row.Has requestId .reply ∨ row.Has requestId .root := by
  constructor
  · rintro ⟨managed, found, same⟩
    cases part : managed.role with
    | root => exact .inr ⟨managed, found, same, part⟩
    | reply => exact .inl ⟨managed, found, same, part⟩
  · rintro (⟨managed, found, same, -⟩ | ⟨managed, found, same, -⟩) <;>
      exact ⟨managed, found, same⟩

/-- A row is of one thread. -/
theorem Of.unique {first second : Uuid} (ofFirst : row.Of first) (ofSecond : row.Of second) :
    first = second := by
  obtain ⟨managed, found, rfl⟩ := ofFirst
  obtain ⟨other, again, rfl⟩ := ofSecond
  exact congrArg Managed.requestId (Option.some.inj (found.symm.trans again))

end Message

/-! ## Threads -/

/-- The hot table and the archive; identifiers are primary keys. -/
structure Tables where
  hot : List Message
  archive : List Message
  hotKeys : (hot.map (·.id)).Nodup
  archiveKeys : (archive.map (·.id)).Nodup

namespace Tables

variable (tables : Tables)

/-- The hot rows of a request. -/
def thread (requestId : Uuid) : List Message :=
  tables.hot.filter fun row => row.Of requestId

/-- `INSERT … ON CONFLICT (id) DO NOTHING` into the archive. -/
def archived (requestId : Uuid) : List Message :=
  tables.archive ++ (tables.thread requestId).filter fun row =>
    row.id ∉ tables.archive.map (·.id)

theorem archived_keys (requestId : Uuid) : ((tables.archived requestId).map (·.id)).Nodup := by
  unfold archived thread
  rw [List.map_append]
  refine List.nodup_append.mpr ⟨tables.archiveKeys, ?_, ?_⟩
  · exact (tables.hotKeys.sublist ((List.filter_sublist.trans List.filter_sublist).map _))
  · rintro _ old _ new rfl
    obtain ⟨row, member, same⟩ := List.mem_map.mp new
    exact of_decide_eq_true (List.mem_filter.mp member).2 (same ▸ old)

/-- The thread deleted from the hot table, the reply before the root. -/
def removed (requestId : Uuid) : List Message :=
  (tables.hot.filter fun row => ¬ row.Has requestId .reply).filter fun row =>
    ¬ row.Has requestId .root

theorem removed_keys (requestId : Uuid) : ((tables.removed requestId).map (·.id)).Nodup :=
  tables.hotKeys.sublist ((List.filter_sublist.trans List.filter_sublist).map _)

/-- Already retained, or the answer is still unread. -/
def Waits (requestId : Uuid) : Prop :=
  tables.thread requestId = [] ∨
    ∃ row ∈ tables.thread requestId, ¬ row.status.Terminal

instance (requestId : Uuid) : Decidable (tables.Waits requestId) :=
  inferInstanceAs (Decidable (_ ∨ ∃ _ ∈ _, _))

/-- Every hot row has an equal row in the archive. -/
def Copied (requestId : Uuid) : Prop :=
  ((tables.thread requestId).filter (· ∈ tables.archived requestId)).length =
    (tables.thread requestId).length

instance (requestId : Uuid) : Decidable (tables.Copied requestId) :=
  inferInstanceAs (Decidable (_ = _))

/-- The tables after the thread has moved. -/
def moved (requestId : Uuid) : Tables where
  hot := tables.removed requestId
  archive := tables.archived requestId
  hotKeys := tables.removed_keys requestId
  archiveKeys := tables.archived_keys requestId

/-- What one request of the pass comes to. -/
inductive Retained
  | skipped
  | refused
  | archived (tables : Tables)

/-- The transaction of `retainTerminalDispatchThreads` for one request; a refusal is
`DISPATCH_RETENTION_CONFLICT`. -/
def retainThread (requestId : Uuid) : Retained :=
  if tables.Waits requestId then .skipped
  else if tables.Copied requestId then .archived (tables.moved requestId)
  else .refused

end Tables

end Projector
end Scrum4Me
