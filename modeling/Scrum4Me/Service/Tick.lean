import Scrum4Me.Dispatch.Types
import Scrum4Me.Foundation.Execution

/-!
# One tick

`createDispatchTick`: the stages of a tick in their order, over any state and any
assignment of answers and exceptions to the units. A log records the units that the
stages select and those that they attempt.
-/

namespace Scrum4Me
namespace Service

open Foundation
open Dispatch (Uuid)

/-- What a call comes to. -/
inductive Answer (ε α : Type)
  | returned (value : α)
  | threw (error : ε)

def Answer.map (change : α → β) : Answer ε α → Answer ε β
  | .returned value => .returned (change value)
  | .threw error => .threw error

/-- A call that may have changed the state before it throws. -/
abbrev Work (σ ε α : Type) := σ → Answer ε α × σ

def Work.map (change : α → β) (work : Work σ ε α) : Work σ ε β := fun state =>
  ((work state).1.map change, (work state).2)

inductive Stage
  | expire
  | waiting
  | sources
  | reserve
  | orphans
  | lease
  | publication
  | delivery
  | maintenance
  deriving DecidableEq

/-- A durable unit of a stage. -/
structure Item where
  stage : Stage
  id : Uuid
  deriving DecidableEq

/-! ## What a tick depends on -/

/-- A list that is selected once, and the transaction of one of its rows. -/
structure Loop (σ ε : Type) where
  select : Nat → σ → Answer ε (List Uuid)
  item : Uuid → Work σ ε Bool

structure Attempts (σ ε : Type) where
  /-- `closeSignedOffUnstartedAttempts`. -/
  signedOff : Loop σ ε
  /-- `markExpiredAttempts`. -/
  expired : Loop σ ε

structure Maintenance (σ ε : Type) where
  intervalMs : Nat
  now : σ → Nat
  recoverReplyReads : Nat → Work σ ε (List Uuid)
  /-- The threads archived and refused. -/
  retainThreads : Option (Nat → Work σ ε (Nat × Nat))

structure TickDependencies (σ ε : Type) where
  expiredCandidates : Nat → σ → Answer ε (List Uuid)
  retireExpiredCandidate : Uuid → Work σ ε Bool
  waitingRequestIds : Nat → σ → Answer ε (List Uuid)
  prepareRequestSources : Option (Uuid → Work σ ε Unit)
  reserveRequest : Uuid → Work σ ε (Option Uuid)
  attempts : Option (Attempts σ ε)
  /-- `reconcileIncompletePublications`. -/
  publications : Option (Loop σ ε)
  /-- `deliverDispatchOutbox`: the newest due rows, which its transactions take one
  by one, since each publishes its row or backs it off. It answers whether the row was
  delivered; one whose delivery throws is backed off and answers `false`. -/
  delivery : Option (Loop σ ε)
  maintenance : Option (Maintenance σ ε)

def requestLimit : Nat := 25
def outboxLimit : Nat := 100
def maintenanceLimit : Nat := 100
def retentionLimit : Nat := 25

/-! ## The state of a tick -/

/-- The state behind the units, and the log. -/
structure Trace (σ : Type) where
  state : σ
  selected : List Item
  attempted : List Item

def Trace.select (stage : Stage) (ids : List Uuid) (trace : Trace σ) : Trace σ :=
  { trace with selected := trace.selected ++ ids.map (Item.mk stage) }

/-- Attempt one unit. -/
def attempt (stage : Stage) (item : Uuid → Work σ ε α) (id : Uuid) :
    Work (Trace σ) ε α := fun trace =>
  ((item id trace.state).1,
    { trace with
      state := (item id trace.state).2
      attempted := trace.attempted ++ [⟨stage, id⟩] })

structure TickResult where
  prepared : Nat
  reserved : Nat
  retired : Nat
  uncertain : Nat
  orphansClosed : Nat
  publications : Nat
  publicationsFailed : Nat
  delivered : Nat
  deliveryFailed : Nat
  replyReadsRecovered : Nat
  threadsArchived : Nat
  threadsRefused : Nat
  errors : Nat
  deriving DecidableEq

structure Tick (σ : Type) where
  trace : Trace σ
  result : TickResult
  expired : List Uuid
  waiting : List Uuid
  /-- The stages reached. -/
  began : List Stage
  nextMaintenanceAt : Nat

def Tick.start (state : σ) (nextMaintenanceAt : Nat) : Tick σ where
  trace := ⟨state, [], []⟩
  result := ⟨0, 0, 0, 0, 0, 0, 0, 0, 0, 0, 0, 0, 0⟩
  expired := []
  waiting := []
  began := []
  nextMaintenanceAt := nextMaintenanceAt

/-! ## Loops -/

/-- A loop without a `try`: the first exception ends it. -/
def inSequence (stage : Stage) (item : Uuid → Work σ ε Bool) :
    List Uuid → Work (Trace σ) ε (List Bool)
  | [], trace => (.returned [], trace)
  | id :: rest, trace =>
      match (attempt stage item id trace).1 with
      | .threw error => (.threw error, (attempt stage item id trace).2)
      | .returned answer =>
          (inSequence stage item rest).map (answer :: ·) (attempt stage item id trace).2

/-- A loop with a `try` around each row: whether the rows succeeded. -/
def eachTried (stage : Stage) (item : Uuid → Work σ ε Bool) :
    List Uuid → Trace σ → List Bool × Trace σ
  | [], trace => ([], trace)
  | id :: rest, trace =>
      let later := eachTried stage item rest (attempt stage item id trace).2
      match (attempt stage item id trace).1 with
      | .threw _ => (false :: later.1, later.2)
      | .returned _ => (true :: later.1, later.2)

/-- Select the rows of a loop and run it. -/
def Loop.run (loop : Loop σ ε) (stage : Stage) (limit : Nat) :
    Work (Trace σ) ε (List Bool) := fun trace =>
  match loop.select limit trace.state with
  | .threw error => (.threw error, trace)
  | .returned ids => inSequence stage loop.item ids (trace.select stage ids)

def Loop.runTried (loop : Loop σ ε) (stage : Stage) (limit : Nat) :
    Work (Trace σ) ε (List Bool) := fun trace =>
  match loop.select limit trace.state with
  | .threw error => (.threw error, trace)
  | .returned ids =>
      (.returned (eachTried stage loop.item ids (trace.select stage ids)).1,
        (eachTried stage loop.item ids (trace.select stage ids)).2)

namespace Tick

/-- `unit`. -/
def unit (fallback : α) (work : Work (Trace σ) ε α) (tick : Tick σ) : α × Tick σ :=
  match (work tick.trace).1 with
  | .returned value => (value, { tick with trace := (work tick.trace).2 })
  | .threw _ =>
      (fallback,
        { tick with
          trace := (work tick.trace).2
          result := { tick.result with errors := tick.result.errors + 1 } })

/-- A loop with a unit for each row: how many rows count. -/
def each (stage : Stage) (item : Uuid → Work σ ε Bool) :
    List Uuid → Tick σ → Nat × Tick σ
  | [], tick => (0, tick)
  | id :: rest, tick =>
      let first := tick.unit false (attempt stage item id)
      let later := each stage item rest first.2
      (first.1.toNat + later.1, later.2)

/-- The list of a stage, selected in a unit of its own. -/
def list (query : σ → Answer ε (List Uuid)) (tick : Tick σ) :
    List Uuid × Tick σ :=
  tick.unit [] fun trace => (query trace.state, trace)

def select (stage : Stage) (ids : List Uuid) (tick : Tick σ) : Tick σ :=
  { tick with trace := tick.trace.select stage ids }

end Tick

/-! ## The stages -/

namespace TickDependencies

variable (deps : TickDependencies σ ε)

def expire (tick : Tick σ) : Tick σ :=
  let listed := tick.list (deps.expiredCandidates requestLimit)
  let done := Tick.each .expire deps.retireExpiredCandidate listed.1
    (listed.2.select .expire listed.1)
  { done.2 with
    expired := listed.1
    result := { done.2.result with retired := done.1 } }

def listWaiting (tick : Tick σ) : Tick σ :=
  let listed :=
    tick.list (deps.waitingRequestIds (requestLimit - tick.expired.length))
  { listed.2 with waiting := listed.1 }

/-- Preparation is retried per request; without a port there is none. -/
def sources (tick : Tick σ) : Tick σ :=
  deps.prepareRequestSources.elim tick fun prepare =>
    let done := Tick.each .sources (fun id => (prepare id).map fun _ => true)
      tick.waiting (tick.select .sources tick.waiting)
    { done.2 with result := { done.2.result with prepared := done.1 } }

def reserve (tick : Tick σ) : Tick σ :=
  let done := Tick.each .reserve (fun id => (deps.reserveRequest id).map Option.isSome) tick.waiting
    (tick.select .reserve tick.waiting)
  { done.2 with result := { done.2.result with reserved := done.1 } }

/-- The loop lives in `closeSignedOffUnstartedAttempts`; one unit holds it all. -/
def orphans (tick : Tick σ) : Tick σ :=
  deps.attempts.elim tick fun attempts =>
    let done := tick.unit [] (attempts.signedOff.run .orphans requestLimit)
    { done.2 with
      result := { done.2.result with orphansClosed := done.1.count true } }

/-- The loop lives in `markExpiredAttempts`; one unit holds it all. -/
def lease (tick : Tick σ) : Tick σ :=
  deps.attempts.elim tick fun attempts =>
    let done := tick.unit [] (attempts.expired.run .lease requestLimit)
    { done.2 with
      result := { done.2.result with uncertain := done.1.count true } }

def publication (tick : Tick σ) : Tick σ :=
  deps.publications.elim tick fun publications =>
    let done := tick.unit [] (publications.runTried .publication requestLimit)
    { done.2 with
      result :=
        { done.2.result with
          publications := done.1.count true
          publicationsFailed := done.1.count false } }

/-- A delivery that throws out of its loop counts as one failure. -/
def deliver (tick : Tick σ) : Tick σ :=
  deps.delivery.elim tick fun delivery =>
    let done := tick.unit [false] (delivery.run .delivery outboxLimit)
    { done.2 with
      result :=
        { done.2.result with
          delivered := done.1.count true
          deliveryFailed := done.1.count false } }

def maintain (tick : Tick σ) : Tick σ :=
  deps.maintenance.elim tick fun maintenance =>
    if maintenance.now tick.trace.state < tick.nextMaintenanceAt then tick
    else
      let due :=
        { tick with
          nextMaintenanceAt :=
            maintenance.now tick.trace.state + maintenance.intervalMs }
      let reads := due.unit [] fun trace =>
        ((maintenance.recoverReplyReads maintenanceLimit trace.state).1,
          { trace with
            state := (maintenance.recoverReplyReads maintenanceLimit trace.state).2 })
      let recovered :=
        { reads.2 with
          result := { reads.2.result with replyReadsRecovered := reads.1.length } }
      maintenance.retainThreads.elim recovered fun retain =>
        let retained := recovered.unit (0, 0) fun trace =>
          ((retain retentionLimit trace.state).1,
            { trace with state := (retain retentionLimit trace.state).2 })
        { retained.2 with
          result :=
            { retained.2.result with
              threadsArchived := retained.1.1
              threadsRefused := retained.1.2 } }

def stage : Stage → Tick σ → Tick σ
  | .expire => deps.expire
  | .waiting => deps.listWaiting
  | .sources => deps.sources
  | .reserve => deps.reserve
  | .orphans => deps.orphans
  | .lease => deps.lease
  | .publication => deps.publication
  | .delivery => deps.deliver
  | .maintenance => deps.maintain

/-- One stage, entered in the log. -/
def next (tick : Tick σ) (stage : Stage) : Tick σ :=
  deps.stage stage { tick with began := tick.began ++ [stage] }

end TickDependencies

/-- The stages in their order. -/
def Stage.all : List Stage :=
  [.expire, .waiting, .sources, .reserve, .orphans, .lease, .publication,
    .delivery, .maintenance]

def dispatchTick (deps : TickDependencies σ ε) (state : σ) (nextMaintenanceAt : Nat) : Tick σ :=
  Foundation.run deps.next (Tick.start state nextMaintenanceAt) Stage.all

end Service
end Scrum4Me
