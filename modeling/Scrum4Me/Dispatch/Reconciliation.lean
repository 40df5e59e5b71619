import Scrum4Me.Dispatch.Machine
import Scrum4Me.Foundation.Batches

/-!
# Reconciling incomplete publications

`reconcileIncompletePublications` takes the 25 incomplete operations that were
updated longest ago and asks the port about each of them.
-/

namespace Scrum4Me
namespace Dispatch

open Foundation

/-- What one call of the reconciler meets: the environment of the transaction that
stores a receipt, and the port. The port answers with `receipt(x, status, prUrl)`
or throws. -/
structure Reconciler where
  env : Uuid → Env
  port : PublicationIntent → Option (ReceiptStatus × Option String)

/-- `reconcileUnlocked` up to its receipt. -/
def reconcileUnlocked (call : Reconciler) (rows : RequestRows)
    (operationId : Uuid) : Except Failure PublicationReceipt := do
  let x ← publicationIntent rows operationId
  let row ← require (rows.publication? operationId) .other
  -- `PREPARED` has never crossed the durable send gate
  if row.state = .prepared then
    return x.receipt .failed none
  else do
    let answer ← require (call.port x) .other
    return x.receipt answer.1 answer.2

def reconcilePublication (call : Reconciler) (store : Store)
    (operationId : Uuid) : Except Failure Store := do
  let rows ← require (store.requestOfPublication? operationId) notFound
  let value ← reconcileUnlocked call rows operationId
  return store.put (storeReceipt (call.env operationId) rows value)

def Store.allPublications (store : Store) : List PublicationRow :=
  store.requests.flatMap RequestRows.publications

/-- `ORDER BY updated_at,id`. -/
def PublicationRow.age (row : PublicationRow) : Timestamp ×ₗ Uuid :=
  toLex (row.updatedAt, row.id)

/-- `state IN ('PREPARED','SENT','UNKNOWN')`. -/
def Store.incomplete (store : Store) : List PublicationRow :=
  store.allPublications.filter fun row => row.state.Unresolved

def reconcileLimit : Nat := 25

/-- The operations of one call. -/
def Store.batch (store : Store) : List PublicationRow :=
  (oldestFirst PublicationRow.age store.incomplete).take reconcileLimit

/-- One call under way. -/
structure Reconciled where
  store : Store
  processed : Nat
  failed : Nat
  /-- The operations for which `reconcilePublication` was called. -/
  attempted : List Uuid

def Reconciled.next (call : Reconciler) (done : Reconciled) (operationId : Uuid) : Reconciled :=
  match reconcilePublication call done.store operationId with
  | .ok store =>
      { store := store
        processed := done.processed + 1
        failed := done.failed
        attempted := done.attempted ++ [operationId] }
  | .error _ =>
      { done with
        failed := done.failed + 1
        attempted := done.attempted ++ [operationId] }

def reconcileIncompletePublications (call : Reconciler) (store : Store) : Reconciled :=
  (store.batch.map PublicationRow.id).foldl (Reconciled.next call) ⟨store, 0, 0, []⟩

/-- Repeated calls, with no other writer between them. -/
def reconcileCalls (store : Store) : List Reconciler → Store
  | [] => store
  | call :: rest =>
      reconcileCalls (reconcileIncompletePublications call store).store rest

/-- The operations attempted in repeated calls. -/
def attemptedIn (store : Store) : List Reconciler → List Uuid
  | [] => []
  | call :: rest =>
      (reconcileIncompletePublications call store).attempted ++
        attemptedIn (reconcileIncompletePublications call store).store rest

/-! ## The publisher's calls

A call holds the advisory lock of its request and runs one statement after the
other; the other transactions of the service commit in between, and a call may end
after any of its statements. -/

namespace Publisher

/-- What a call does next. -/
inductive Stage
  /-- The first transaction of `publishUnlocked`. -/
  | prepare (actor : Actor) (authority : Authority) (artifactId : Uuid) (baseBranch : String)
  /-- `intent` of the operation just prepared. -/
  | load (actor : Actor) (authority : Authority) (operationId : Uuid)
  /-- The send gate. -/
  | send (actor : Actor) (authority : Authority) (x : PublicationIntent)
  /-- `port.publish`. -/
  | publish (x : PublicationIntent)
  /-- `reconcileUnlocked` reads the intent and the state. -/
  | reconcile (operationId : Uuid)
  /-- `port.reconcile`. -/
  | ask (x : PublicationIntent)
  | store (value : PublicationReceipt)
  | resolve (actor : Actor) (operationId : Uuid) (actionId : String)
      (attestation : PublicationResolution)
  deriving DecidableEq

/-- The transaction of a stage, if it is one. -/
def Stage.action? : Stage → Option Action
  | .prepare actor authority artifactId baseBranch =>
      some (.preparePublication actor authority artifactId baseBranch)
  | .send actor authority x => some (.sendPublication actor authority x.operationId)
  | .store value => some (.storeReceipt value)
  | .resolve actor operationId actionId attestation =>
      some (.resolvePublication actor operationId actionId attestation)
  | _ => none

/-- What `intent` and the state's query after it read. -/
def loadIntent (store : Store) (operationId : Uuid) :
    Option (PublicationIntent × PublicationState) := do
  let rows ← store.requestOfPublication? operationId
  let x ← (publicationIntent rows operationId).toOption
  let row ← rows.publication? operationId
  return (x, row.state)

/-- A status and a pull request; nothing where the port throws. -/
abbrev PortAnswer := Option (ReceiptStatus × Option String)

/-- The stage after this one; nothing where the call returns or throws. -/
def Stage.after (store : Store) (env : Env) (answer : PortAnswer) : Stage → Option Stage
  | .prepare actor authority artifactId baseBranch =>
      match perform store ⟨env, .preparePublication actor authority artifactId baseBranch⟩ with
      | .ok (_, .publication (.existing old)) =>
          if old.state = .confirmed ∨ old.state = .failed then
            none
          else
            some (.reconcile old.id)
      | .ok (_, .publication (.prepared operationId)) => some (.load actor authority operationId)
      | _ => none
  | .load actor authority operationId =>
      (loadIntent store operationId).map fun loaded => .send actor authority loaded.1
  | .send actor authority x =>
      match perform store ⟨env, .sendPublication actor authority x.operationId⟩ with
      | .ok _ => some (.publish x)
      | .error (.dispatch _) => some (.store (x.receipt .failed none))
      | .error .other => none
  | .publish x =>
      let receipt := answer.getD (.unknown, none)
      some (.store (x.receipt receipt.1 receipt.2))
  | .reconcile operationId =>
      (loadIntent store operationId).map fun loaded =>
        -- `PREPARED` has never crossed the durable send gate
        if loaded.2 = .prepared then .store (loaded.1.receipt .failed none) else .ask loaded.1
  | .ask x => answer.map fun receipt => .store (x.receipt receipt.1 receipt.2)
  | .store _ => none
  | .resolve .. => none

end Publisher

/-- A call under way, with the request that it holds the lock of. -/
structure Publisher where
  requestId : Uuid
  stage : Publisher.Stage
  deriving DecidableEq

namespace Publisher

structure World where
  store : Store
  publishers : List Publisher
  /-- The operations that `port.publish` was called for. -/
  published : List Uuid

def World.initial : World :=
  { store := Store.empty, publishers := [], published := [] }

/-- A statement of a call. -/
def World.next (world : World) (publisher : Publisher) (env : Env) (answer : PortAnswer) :
    World :=
  { store :=
      publisher.stage.action?.elim world.store fun action => execute world.store ⟨env, action⟩
    publishers :=
      ((publisher.stage.after world.store env answer).map (Publisher.mk publisher.requestId)).toList ++
        world.publishers.erase publisher
    published :=
      match publisher.stage with
      | .publish x => x.operationId :: world.published
      | _ => world.published }

/-- A call of one of the four functions. -/
inductive Call
  /-- `publishDispatchArtifact` by proof, `publishHistoricalArtifact` by binding. -/
  | publish (actor : Actor) (authority : Authority) (artifactId : Uuid) (baseBranch : String)
  | reconcile (operationId : Uuid)
  | resolve (actor : Actor) (operationId : Uuid) (actionId : String)
      (attestation : PublicationResolution)

/-- `'proof' in authority?authority.proof.request_id:authority.binding.requestId`. -/
def requestOf : Authority → Uuid
  | .proof proof => proof.requestId
  | .binding binding => binding.requestId

/-- The lock that a call takes, and its first stage. -/
def Call.start (store : Store) : Call → Option Publisher
  | .publish actor authority artifactId baseBranch =>
      some ⟨requestOf authority, .prepare actor authority artifactId baseBranch⟩
  | .reconcile operationId =>
      (store.requestOfPublication? operationId).map fun rows =>
        ⟨rows.request.id, .reconcile operationId⟩
  | .resolve actor operationId actionId attestation =>
      (store.requestOfPublication? operationId).map fun rows =>
        ⟨rows.request.id, .resolve actor operationId actionId attestation⟩

/-- The transactions that only calls of the publisher run. -/
def OfPublisher : Action → Bool
  | .preparePublication .. | .sendPublication .. | .storeReceipt .. | .resolvePublication .. => true
  | _ => false

inductive Step
  /-- Another transaction of the service. -/
  | transact (input : Input)
  | call (call : Call)
  | next (publisher : Publisher) (env : Env) (answer : PortAnswer)
  /-- The process of a call dies or the call throws, and its lock is given back. -/
  | crash (publisher : Publisher)

def World.execute (world : World) : Step → World
  | .transact input =>
      if OfPublisher input.action = true then
        world
      else
        { world with store := Dispatch.execute world.store input }
  | .call call =>
      match call.start world.store with
      | some publisher =>
          -- a call waits until the lock of its request is free
          if publisher.requestId ∈ world.publishers.map Publisher.requestId then
            world
          else
            { world with publishers := publisher :: world.publishers }
      | none => world
  | .next publisher env answer =>
      if publisher ∈ world.publishers then world.next publisher env answer else world
  | .crash publisher => { world with publishers := world.publishers.erase publisher }

end Publisher
end Dispatch
end Scrum4Me
