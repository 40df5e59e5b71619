import Scrum4Me.Projector.Messages

/-!
# Deliveries

The store writes outbox rows, each with the complete projection of one version of a
request. A projector takes the newest due row of a request under a row lock, applies it
to the queue database in a transaction of its own, and then marks it; it may stop
between any two of these. Meanwhile readers claim and finish replies, an administrator
hands published rows back, and retention archives threads.
-/

namespace Scrum4Me
namespace Projector

open Foundation
open Dispatch (Uuid Timestamp DispatchState)
open Queue (MessageStatus)

/-! ## Projections -/

/-- `DispatchProjectionMessage`, for the root. -/
structure RootMessage where
  id : Uuid
  identity : Identity
  body : String
  metaText : String
  status : MessageStatus
  deriving DecidableEq

structure ReplyMessage where
  id : Uuid
  identity : Identity
  body : String
  metaText : String
  deriving DecidableEq

/-- The messages that `buildDispatchProjection` makes of one version of a request. -/
structure Built where
  root : RootMessage
  reply : Option ReplyMessage
  deriving DecidableEq

/-- `DispatchProjection`. -/
structure Projection extends Built where
  requestId : Uuid
  version : Nat
  deriving DecidableEq

/-- Every version of a request has the same root and the same reply, if it has one. -/
structure Steady (build : Uuid → Nat → Built) : Prop where
  rootId : ∀ requestId first second,
    (build requestId first).root.id = (build requestId second).root.id
  rootIdentity : ∀ requestId first second,
    (build requestId first).root.identity = (build requestId second).root.identity
  reply : ∀ requestId first second,
    ∀ reply ∈ (build requestId first).reply, ∀ other ∈ (build requestId second).reply,
      reply = other

def projectionOf (build : Uuid → Nat → Built) (requestId : Uuid) (version : Nat) :
    Projection :=
  { build requestId version with requestId := requestId, version := version }

/-! ## The queue transaction -/

namespace Tables

/-- `INSERT … ON CONFLICT (id) DO NOTHING` into the hot table. -/
def insertHot (tables : Tables) (row : Message) : Tables :=
  if absent : row.id ∉ tables.hot.map (·.id) then
    { tables with
      hot := tables.hot ++ [row]
      hotKeys := by
        rw [List.map_append]
        refine List.nodup_append.mpr ⟨tables.hotKeys, List.nodup_singleton _, ?_⟩
        rintro id old _ new rfl
        have same : id = row.id := List.mem_singleton.mp new
        exact absent (same ▸ old) }
  else tables

/-- `UPDATE agent_message SET … WHERE …`, of columns besides the key. -/
def updateHot (tables : Tables) (matching : Message → Bool) (change : Message → Message)
    (kept : ∀ row, (change row).id = row.id) :
    Tables :=
  { tables with
    hot := updateWhere matching change tables.hot
    hotKeys := nodup_updateWhere kept tables.hotKeys }

end Tables

namespace Projection

variable (projection : Projection)

/-- The row with which the root is inserted. -/
def rootRow (now : Timestamp) : Message where
  id := projection.root.id
  identity := projection.root.identity
  body := projection.root.body
  metaText := projection.root.metaText
  status := projection.root.status
  claimedBy := none
  claimedAt := if projection.root.status = .pending then none else some now
  startedAt := none
  finishedAt := if projection.root.status.Terminal then some now else none
  createdAt := now
  managed := some
    { requestId := projection.requestId, role := .root, version := projection.version }

/-- The row with which a reply is inserted. -/
def replyRow (reply : ReplyMessage) (now : Timestamp) : Message where
  id := reply.id
  identity := reply.identity
  body := reply.body
  metaText := reply.metaText
  status := .pending
  claimedBy := none
  claimedAt := none
  startedAt := none
  finishedAt := none
  createdAt := now
  managed := some
    { requestId := projection.requestId, role := .reply, version := projection.version }

/-- The row is the root of the request, at a lower version. -/
def Raises (row : Message) : Prop :=
  ∃ managed ∈ row.managed, managed.requestId = projection.requestId ∧
    managed.role = .root ∧ managed.version < projection.version

instance (row : Message) : Decidable (projection.Raises row) :=
  inferInstanceAs (Decidable (∃ _ ∈ row.managed, _))

/-- `DO UPDATE SET …`. -/
def raised (now : Timestamp) (row : Message) : Message :=
  { row with
    body := projection.root.body
    metaText := projection.root.metaText
    status := projection.root.status
    claimedAt := row.claimedAt <|> (projection.rootRow now).claimedAt
    finishedAt := row.finishedAt <|> (projection.rootRow now).finishedAt
    managed := row.managed.map fun managed =>
      { managed with version := projection.version } }

/-- `INSERT … ON CONFLICT (id) DO UPDATE … WHERE …` of the root. -/
def upsertRoot (now : Timestamp) (tables : Tables) : Tables :=
  if projection.root.id ∈ tables.hot.map (·.id) then
    tables.updateHot
      (fun row => row.id = projection.root.id ∧ projection.Raises row)
      (projection.raised now) (fun _ => rfl)
  else tables.insertHot (projection.rootRow now)

/-- `assertSame`: the row with this identifier is this part of the request. -/
def Same (role : Role) (identity : Identity) (row : Message) : Prop :=
  row.Has projection.requestId role ∧ row.identity = identity

instance (role : Role) (identity : Identity) (row : Message) :
    Decidable (projection.Same role identity row) :=
  inferInstanceAs (Decidable (_ ∧ _))

/-- An identifier that belongs to anything else is never adopted. -/
def Free (role : Role) (id : Uuid) (identity : Identity) (rows : List Message) : Prop :=
  ∀ row ∈ rows, row.id = id → projection.Same role identity row

instance (role : Role) (id : Uuid) (identity : Identity) (rows : List Message) :
    Decidable (projection.Free role id identity rows) :=
  inferInstanceAs (Decidable (∀ _ ∈ rows, _))

/-- `applyDispatchProjection`, none if it throws and rolls back. After the two writes
there is a row with each identifier, and `assertSame` can only fail on its identity. -/
def applyDispatchProjection (now : Timestamp) (tables : Tables) : Option Tables :=
  if projection.Free .root projection.root.id projection.root.identity tables.hot then
    let written := projection.upsertRoot now tables
    projection.reply.elim (some written) fun reply =>
      let inserted := written.insertHot (projection.replyRow reply now)
      if projection.Free .reply reply.id reply.identity inserted.hot then some inserted
      else none
  else none

/-- The reply is not there yet. -/
def Answers (now : Timestamp) (tables : Tables) : Prop :=
  ∃ reply ∈ projection.reply,
    reply.id ∉ (projection.upsertRoot now tables).hot.map (·.id)

instance (now : Timestamp) (tables : Tables) :
    Decidable (projection.Answers now tables) :=
  inferInstanceAs (Decidable (∃ _ ∈ projection.reply, _))

end Projection

/-! ## The outbox -/

/-- `queue_dispatch_outbox`, and the state of the request at that version. -/
structure Snapshot where
  id : Uuid
  payload : Projection
  state : DispatchState
  /-- `updated_at` of the request at that version. -/
  createdAt : Timestamp
  publishedAt : Option Timestamp
  attempts : Nat
  nextAttemptAt : Timestamp
  deriving DecidableEq

/-- No snapshot of the request is newer. -/
def Newest (outbox : List Snapshot) (snapshot : Snapshot) : Prop :=
  ∀ newer ∈ outbox, newer.payload.requestId = snapshot.payload.requestId →
    newer.payload.version ≤ snapshot.payload.version

instance (outbox : List Snapshot) (snapshot : Snapshot) :
    Decidable (Newest outbox snapshot) :=
  inferInstanceAs (Decidable (∀ _ ∈ outbox, _))

/-- `ORDER BY o.next_attempt_at, o.id`. -/
def Snapshot.Before (first second : Snapshot) : Prop :=
  first.nextAttemptAt < second.nextAttemptAt ∨
    first.nextAttemptAt = second.nextAttemptAt ∧ first.id ≤ second.id

instance (first second : Snapshot) : Decidable (first.Before second) :=
  inferInstanceAs (Decidable (_ ∨ _ ∧ _))

inductive Stage
  /-- The row is locked. -/
  | taken
  /-- The queue transaction is known to be committed. -/
  | applied
  | failed
  deriving DecidableEq

/-- A transaction of `deliverDispatchOutbox`, with the row that it read. -/
structure Delivery where
  snapshot : Snapshot
  stage : Stage
  deriving DecidableEq

structure World where
  outbox : List Snapshot
  /-- Requests with an event of a recovery. -/
  recovered : List Uuid
  deliveries : List Delivery
  /-- Requests that a retention pass has listed as due. -/
  listed : List Uuid
  tables : Tables
  /-- Requests whose reply was announced as new, once for each insert. -/
  answered : List Uuid
  now : Timestamp

/-! ## Readers -/

/-- What a reader does with a reply. -/
inductive Reading
  /-- A claim, also of a reply that was claimed before this time. -/
  | claim (claimedBy : String) (before : Timestamp)
  /-- `claimNextReply`, which acknowledges at once. -/
  | claimNextReply (claimedBy : String) (before : Timestamp)
  /-- `queue_done`. -/
  | acknowledge
  /-- `queue_fail`. -/
  | fail
  deriving DecidableEq

/-- A message that was claimed before this time. -/
def Message.ClaimedBefore (row : Message) (time : Timestamp) : Prop :=
  row.status = .claimed ∧ ∃ claimedAt ∈ row.claimedAt, claimedAt < time

instance (row : Message) (time : Timestamp) : Decidable (row.ClaimedBefore time) :=
  inferInstanceAs (Decidable (_ ∧ ∃ _ ∈ row.claimedAt, _))

def Reading.Admits (row : Message) : Reading → Prop
  | .claim _ before => row.status = .pending ∨ row.ClaimedBefore before
  | .claimNextReply _ before => row.status = .pending ∨ row.ClaimedBefore before
  | .acknowledge => ¬ row.status.Terminal
  | .fail => ¬ row.status.Terminal

instance (row : Message) (reading : Reading) : Decidable (reading.Admits row) := by
  apply @Reading.casesOn (fun reading => Decidable (reading.Admits row)) reading
  all_goals intros; dsimp only [Reading.Admits]; infer_instance

def Reading.change (now : Timestamp) (row : Message) : Reading → Message
  | .claim claimedBy _ =>
      { row with
        status := .claimed
        claimedBy := some claimedBy
        claimedAt := some now
        startedAt := some now }
  | .claimNextReply claimedBy _ =>
      { row with
        status := .done
        claimedBy := some claimedBy
        claimedAt := some now
        startedAt := some now
        finishedAt := some now }
  | .acknowledge => { row with status := .done, finishedAt := some now }
  | .fail => { row with status := .failed, finishedAt := some now }

/-- The row is the reply of a request. -/
def Message.IsReply (row : Message) : Prop := ∃ managed ∈ row.managed, managed.role = .reply

instance (row : Message) : Decidable row.IsReply :=
  inferInstanceAs (Decidable (∃ _ ∈ row.managed, _))

/-- `recoverForgottenReplyReads`, of one row. -/
def Message.readable (row : Message) : Message :=
  { row with status := .pending, claimedBy := none, claimedAt := none, startedAt := none }

/-! ## The machine -/

/-- One transaction, or one transition of a delivery. -/
inductive Step
  /-- `writeDispatchOutbox`. -/
  | writeDispatchOutbox
      (id requestId : Uuid) (version : Nat) (state : DispatchState)
  | recoveryEvent (requestId : Uuid)
  /-- A projector selects a row. -/
  | take
  | apply (delivery : Delivery)
  /-- The queue transaction commits, and the projector does not hear of it. -/
  | lose (delivery : Delivery)
  /-- The queue cannot be reached. -/
  | fail (delivery : Delivery)
  | mark (delivery : Delivery)
  | backOff (delivery : Delivery) (seconds : Nat)
  | crash (delivery : Delivery)
  | republishOutbox (publishedAfter : Timestamp)
  | recoverForgottenReplyReads (before : Timestamp) (ids : List Uuid)
  | read (id : Uuid) (reading : Reading)
  /-- A retention pass finds the request due. -/
  | list (requestId : Uuid) (cutoff : Timestamp)
  | retain (requestId : Uuid)
  /-- Someone else writes an ordinary message. -/
  | push (row : Message)
  | wait (duration : Nat)
  deriving DecidableEq

namespace World

variable (world : World)

/-- A row that a projector may take: the newest of its request, due, and not locked. -/
def Selectable (snapshot : Snapshot) : Prop :=
  snapshot.publishedAt = none ∧ snapshot.nextAttemptAt ≤ world.now ∧
    Newest world.outbox snapshot ∧
      ∀ delivery ∈ world.deliveries, delivery.snapshot.id ≠ snapshot.id

instance (snapshot : Snapshot) : Decidable (world.Selectable snapshot) :=
  inferInstanceAs (Decidable (_ ∧ _ ∧ _ ∧ _))

/-- `LIMIT 1 FOR UPDATE OF o SKIP LOCKED`. -/
def selected? : Option Snapshot :=
  ((world.outbox.filter fun snapshot => world.Selectable snapshot).insertionSort
    Snapshot.Before).head?

def staged (delivery : Delivery) (stage : Stage) : World :=
  { world with
    deliveries := world.deliveries.erase delivery ++ [{ delivery with stage := stage }] }

/-- The delivery's transaction on the queue, with what the projector knows of it. -/
def apply (delivery : Delivery) (stage : Stage) : World :=
  match delivery.snapshot.payload.applyDispatchProjection world.now world.tables with
  | some tables =>
      { world.staged delivery stage with
        tables := tables
        answered :=
          if delivery.snapshot.payload.Answers world.now world.tables then
            world.answered ++ [delivery.snapshot.payload.requestId]
          else world.answered }
  | none => world.staged delivery .failed

/-- Another delivery has locked a row that this one would mark. -/
def Waits (delivery : Delivery) : Prop :=
  ∃ other ∈ world.deliveries.erase delivery,
    other.snapshot.payload.requestId = delivery.snapshot.payload.requestId ∧
      other.snapshot.payload.version ≤ delivery.snapshot.payload.version

instance (delivery : Delivery) : Decidable (world.Waits delivery) :=
  inferInstanceAs (Decidable (∃ _ ∈ _, _))

/-- The row, and every older one of the request, is published. -/
def mark (delivery : Delivery) : World :=
  { world with
    deliveries := world.deliveries.erase delivery
    outbox := updateWhere
      (fun row =>
        row.payload.requestId = delivery.snapshot.payload.requestId ∧
          row.payload.version ≤ delivery.snapshot.payload.version ∧
            row.publishedAt = none)
      (fun row => { row with publishedAt := some world.now }) world.outbox }

def backOff (delivery : Delivery) (seconds : Nat) : World :=
  { world with
    deliveries := world.deliveries.erase delivery
    outbox := updateWhere (·.id = delivery.snapshot.id)
      (fun row =>
        { row with
          attempts := row.attempts + 1
          nextAttemptAt := world.now + seconds }) world.outbox }

/-- The newest row of each request, where it was published at or after this time. -/
def republished (publishedAfter : Timestamp) : List Uuid :=
  (((world.outbox.filter fun row =>
    Newest world.outbox row ∧ ∃ published ∈ row.publishedAt, publishedAfter ≤ published).map
      (·.id)).insertionSort (· ≤ ·)).take Dispatch.outboxRepublishLimit

def republishOutbox (publishedAfter : Timestamp) : World :=
  { world with
    outbox := updateWhere (·.id ∈ world.republished publishedAfter)
      (fun row =>
        { row with publishedAt := none, attempts := 0, nextAttemptAt := world.now })
      world.outbox }

/-- Terminal, old enough, without a recovery, and all delivered. -/
def Due (requestId : Uuid) (cutoff : Timestamp) : Prop :=
  requestId ∉ world.recovered ∧
    (∃ row ∈ world.outbox, row.payload.requestId = requestId ∧ Newest world.outbox row ∧
      row.createdAt < cutoff ∧ cutoff ≤ world.now ∧
        (row.state = .succeeded ∨ row.state = .failed ∨ row.state = .cancelled)) ∧
    ∀ row ∈ world.outbox, row.payload.requestId = requestId → row.publishedAt ≠ none

instance (requestId : Uuid) (cutoff : Timestamp) :
    Decidable (world.Due requestId cutoff) :=
  inferInstanceAs (Decidable (_ ∧ (∃ _ ∈ _, _) ∧ ∀ _ ∈ _, _))

def retain (requestId : Uuid) : World :=
  match world.tables.retainThread requestId with
  | .archived tables => { world with tables := tables }
  | .skipped => world
  | .refused => world

/-- What a step does, where it may happen. -/
def effect (build : Uuid → Nat → Built) : Step → World
  | .writeDispatchOutbox id requestId version state =>
      if id ∉ world.outbox.map (·.id) ∧
          ∀ row ∈ world.outbox, row.payload.requestId = requestId →
            row.payload.version < version then
        { world with
          outbox := world.outbox ++
            [{ id := id
               payload := projectionOf build requestId version
               state := state
               createdAt := world.now
               publishedAt := none
               attempts := 0
               nextAttemptAt := world.now }] }
      else world
  | .recoveryEvent requestId =>
      { world with recovered := world.recovered ++ [requestId] }
  | .take =>
      world.selected?.elim world fun snapshot =>
        { world with
          deliveries := world.deliveries ++ [{ snapshot := snapshot, stage := .taken }] }
  | .apply delivery =>
      if delivery ∈ world.deliveries ∧ delivery.stage = .taken then
        world.apply delivery .applied
      else world
  | .lose delivery =>
      if delivery ∈ world.deliveries ∧ delivery.stage = .taken then
        world.apply delivery .failed
      else world
  | .fail delivery =>
      if delivery ∈ world.deliveries ∧ delivery.stage = .taken then
        world.staged delivery .failed
      else world
  | .mark delivery =>
      if delivery ∈ world.deliveries ∧ delivery.stage = .applied ∧
          ¬ world.Waits delivery then
        world.mark delivery
      else world
  | .backOff delivery seconds =>
      if delivery ∈ world.deliveries ∧ delivery.stage = .failed then
        world.backOff delivery seconds
      else world
  | .crash delivery => { world with deliveries := world.deliveries.erase delivery }
  | .republishOutbox publishedAfter => world.republishOutbox publishedAfter
  | .recoverForgottenReplyReads before ids =>
      { world with
        tables := world.tables.updateHot
          (fun row => row.id ∈ ids ∧ row.IsReply ∧ row.ClaimedBefore before)
          Message.readable (fun _ => rfl) }
  | .read id reading =>
      { world with
        tables := world.tables.updateHot
          (fun row => row.id = id ∧ row.IsReply ∧ reading.Admits row)
          (fun row => reading.change world.now row)
          (fun _ => by cases reading <;> rfl) }
  | .list requestId cutoff =>
      if world.Due requestId cutoff then
        { world with listed := world.listed ++ [requestId] }
      else world
  | .retain requestId => if requestId ∈ world.listed then world.retain requestId else world
  | .push row =>
      if row.managed = none ∧ row.id ∉ world.tables.archive.map (·.id) then
        { world with tables := world.tables.insertHot { row with createdAt := world.now } }
      else world
  | .wait duration => { world with now := world.now + duration }

end World

/-- Every step takes some time. -/
def execute (build : Uuid → Nat → Built) (world : World) (step : Step) : World :=
  { world.effect build step with now := (world.effect build step).now + 1 }

/-- Nothing is sent yet. -/
def World.initial : World where
  outbox := []
  recovered := []
  deliveries := []
  listed := []
  tables := { hot := [], archive := [], hotKeys := List.nodup_nil, archiveKeys := List.nodup_nil }
  answered := []
  now := 0

end Projector
end Scrum4Me
