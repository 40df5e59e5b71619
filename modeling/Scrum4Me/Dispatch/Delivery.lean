import Scrum4Me.Dispatch.Registration

/-!
# Delivery marks of the outbox

The statements with which the projector and the administrator move the delivery
columns of outbox rows. A payload is never rewritten.
-/

namespace Scrum4Me
namespace Dispatch

open Foundation

/-- The newest outbox row of a request, under `ORDER BY version DESC`. -/
def newestOutbox? (outbox : List OutboxRow) : Option OutboxRow :=
  match outbox with
  | [] => none
  | first :: rest =>
      some (rest.foldl (fun newest row => if newest.version < row.version then row else newest)
        first)

/-- `UPDATE … SET published_at=now() WHERE version<=$2 AND published_at IS NULL`. -/
def markPublished (env : Env) (outbox : List OutboxRow) (version : Nat) :
    List OutboxRow :=
  updateWhere (fun row => row.version ≤ version ∧ row.publishedAt = none)
    (fun row => { row with publishedAt := some env.now }) outbox

/-- A failed apply backs its row off. -/
def backOff (env : Env) (outbox : List OutboxRow) (id : Uuid) (delay : Nat) :
    List OutboxRow :=
  updateWhere (fun row => row.id = id) (fun row =>
      { row with
        attempts := row.attempts + 1
        nextAttemptAt := env.now + delay }) outbox

/-- Hand some rows back to the projector. -/
def republish (env : Env) (outbox : List OutboxRow) (ids : List Uuid) :
    List OutboxRow :=
  updateWhere (fun row => ids.contains row.id) (fun row =>
      { row with
        publishedAt := none
        attempts := 0
        nextAttemptAt := env.now }) outbox

/-- `OUTBOX_REPUBLISH_LIMIT`. -/
def outboxRepublishLimit : Nat := 500

/-- The rows that `republishOutbox` hands back: the newest row of each request,
where it was published at or after the restore point. -/
def republished (outboxes : List (List OutboxRow)) (publishedAfter : Timestamp) :
    List Uuid :=
  (((outboxes.filterMap newestOutbox?).filter fun row =>
    row.publishedAt.any fun published => publishedAfter ≤ published).map
      OutboxRow.id).insertionSort (· ≤ ·) |>.take outboxRepublishLimit

end Dispatch
end Scrum4Me
