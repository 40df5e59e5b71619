import Scrum4Me.Dispatch.Rows

/-!
# The outbox

Every visible change of a request writes one outbox row in its own transaction.
The row freezes the complete projection at that version.
-/

namespace Scrum4Me
namespace Dispatch

namespace DispatchState

/-- `state.toLowerCase()`. -/
def text : DispatchState → String
  | .waiting => "waiting"
  | .reserved => "reserved"
  | .claimed => "claimed"
  | .running => "running"
  | .uncertain => "uncertain"
  | .cancelRequested => "cancel_requested"
  | .succeeded => "succeeded"
  | .failed => "failed"
  | .cancelled => "cancelled"

end DispatchState

/-- The later of two rows under `ORDER BY created_at DESC, id DESC`. -/
def laterEvent (first second : EventRow) : EventRow :=
  if first.createdAt < second.createdAt ∨
      first.createdAt = second.createdAt ∧ first.id ≤ second.id then
    second
  else
    first

/-- The first row of the matching events under
`ORDER BY created_at DESC, id DESC`. -/
def latestEvent? (events : List EventRow) : Option EventRow :=
  match events with
  | [] => none
  | first :: rest => some (rest.foldl laterEvent first)

namespace RequestRows

/-- The reason of the newest `waiting_reason` event. -/
def waitingReason? (rows : RequestRows) : Option String :=
  let waiting := rows.events.filter fun event =>
    match event.body with
    | .waitingReason _ => true
    | _ => false
  match (latestEvent? waiting).map EventRow.body with
  | some (.waitingReason reason) => some reason
  | _ => none

/-- The projection that `writeDispatchOutbox` builds from the current rows. -/
def projection (rows : RequestRows) : DispatchProjection :=
  let r := rows.request
  { requestId := r.id
    version := r.version
    state := r.state
    input := r.input
    rootId := r.rootMessageId
    replyId := r.replyMessageId
    route :=
      (rows.candidates.find? fun candidate =>
        candidate.generation = r.generation).map CandidateRow.route
    reason :=
      if r.state = .waiting then
        rows.waitingReason?.getD "waiting_for_capacity"
      else
        r.state.text
    result :=
      (rows.results.find? fun result => some result.id = r.resultId).map
        ResultRow.payload }

def writeDispatchOutbox (env : Env) (rows : RequestRows) : RequestRows :=
  { rows with
    outbox := rows.outbox ++
      [{ id := env.uuid .outbox rows.outbox.length
         version := rows.request.version
         payload := rows.projection
         publishedAt := none
         attempts := 0
         nextAttemptAt := env.now }] }

/-- Move the request to a new state under the next version, and announce it.
All four writers of the version are instances. -/
def announce (env : Env) (state : DispatchState) (resultId : Option Uuid)
    (rows : RequestRows) : RequestRows :=
  writeDispatchOutbox env <|
    rows.setRequest fun r =>
      { r with
        state := state
        resultId := resultId <|> r.resultId
        version := r.version + 1
        updatedAt := env.now }

end RequestRows

end Dispatch
end Scrum4Me
