import Scrum4Me.Dispatch.Delivery
import Scrum4Me.Foundation.Execution

/-!
# The dispatch machine

Every transaction of the service as one atomic step on the store. An input is a
transaction with its arguments, together with everything it reads from outside
the dispatch tables; a run is any list of inputs. A transaction that fails, that
would violate a primary key, or whose clock lies in the past changes nothing.
-/

namespace Scrum4Me
namespace Dispatch

open Foundation

inductive Action
  | submit (actor : Actor) (input : DispatchInput) (key : String)
  | prepareSources (id : Uuid) (prepared : List PreparedSource) (repoUrl : Option String)
  | recordSourceRetry (id : Uuid) (attempt : Nat) (reason : String) (nextAttemptAt : Timestamp)
  | rejectUnstarted (id : Uuid) (reason : String)
  | reserve (id : Uuid)
  | retire (id : Uuid)
  | claim (actor : Actor) (incarnationId : Uuid) (claimKey : String)
      (sessionCredential : Credential)
  | start (actor : Actor) (proof : AttemptProof) (scope : RuntimeScope)
  | renew (actor : Actor) (proof : AttemptProof) (scopeId : String)
  | reconcile (actor : Actor) (proof : AttemptProof) (scope : RuntimeScope)
  | markExpired (id candidateId attemptId : Uuid)
  | cancel (actor : Actor) (id : Uuid) (actionId : String) (expectedVersion : Nat)
  | storeArtifact (actor : Actor) (proof : AttemptProof) (key : String) (bytes : Document)
      (sha256 : Sha256)
  | collectArtifact (actor : Actor) (binding : StartBinding) (key : String)
      (bytes : Document) (sha256 : Sha256)
  | loadSource (actor : Actor) (proof : AttemptProof) (id : Uuid)
  | stageStop (actor : Actor) (body : StopObservation) (sha256 : Sha256)
  | submitStop (actor : Actor) (proof : AttemptProof) (evidence : StopEvidence)
  | submitHistoricalStop (actor : Actor) (binding : StartBinding) (evidence : StopEvidence)
  | submitClaimBoundStop (actor : Actor) (proof : AttemptProof) (reason : String)
      (observedAt : Option Timestamp)
  | closeSignedOff (attemptId : Uuid)
  | stageRecovery (actor : Actor) (attestation : RecoveryAttestation)
  | recover (actor : Actor) (id : Uuid) (actionId : String) (expectedVersion : Nat)
      (evidence : StopEvidence) (mode : RecoveryMode)
  | acceptPrepare (actor : Actor) (authority : Authority) (submission : Submission)
  | recordVerification (actor : Actor) (authority : Authority) (artifactId : Uuid) (allowed : Bool)
  | acceptFinish (actor : Actor) (authority : Authority) (submission : Submission)
      (result : DispatchResult)
  | preparePublication (actor : Actor) (authority : Authority) (artifactId : Uuid)
      (baseBranch : String)
  | sendPublication (actor : Actor) (authority : Authority) (operationId : Uuid)
  | storeReceipt (value : PublicationReceipt)
  | resolvePublication (actor : Actor) (operationId : Uuid) (actionId : String)
      (attestation : PublicationResolution)
  | markPublished (id : Uuid) (version : Nat)
  | backOff (id outboxId : Uuid) (delay : Nat)
  | republish (publishedAfter : Timestamp)
  | register (actor : Actor) (input : RegisterInput)
  | heartbeat (actor : Actor) (incarnationId : Uuid) (sessionCredential : Credential) (busy : Bool)
  | createSlot (actor : Actor) (input : SlotInput)
  | disableSlot (actor : Actor) (id : Uuid) (actionId : String) (expectedVersion : Nat)
  | createProfile (actor : Actor) (key productId actionId sha256 : String) (config : ProfileConfig)
  | revokeProfile (actor : Actor) (id : Uuid) (actionId reason : String)
  deriving DecidableEq

/-- What a transaction answers. -/
inductive Answer
  | none
  | request (id : Uuid)
  | changed (changed : Bool)
  | claim (receipt : Option ClaimReceipt)
  | permit (permit : StartPermit)
  | renewed (stopRequired : Bool)
  | reconciled
  | artifact (id : Uuid)
  | document (bytes : Document)
  | evidence (evidence : StopEvidence)
  | receipt (id : Uuid)
  | preparation (preparation : Preparation)
  | result (receipt : ResultReceipt)
  | publication (start : PublicationStart)
  | publicationReceipt (receipt : Option PublicationReceipt)
  | operation (response : OperationResponse)
  deriving DecidableEq

/-- A transaction on the rows of one request. -/
abbrev RowsTransaction := RequestRows → Except Failure (RequestRows × Answer)

/-- Run a transaction on the rows of one request, which must exist. -/
def onRows (store : Store) (rows? : Option RequestRows) (missing : Failure)
    (body : RowsTransaction) : Except Failure (Store × Answer) := do
  let rows ← require rows? missing
  let result ← body rows
  return (store.put result.1, result.2)

/-- Run a transaction on the registry. -/
def onRegistry (store : Store) (result : Except Failure (Registry × α))
    (answer : α → Answer) : Except Failure (Store × Answer) := do
  let changed ← result
  return (store.setRegistry changed.1, answer changed.2)

/-- A transaction's rows with an answer made of the rest. -/
def answering (result : Except Failure (RequestRows × α))
    (answer : α → Answer) : Except Failure (RequestRows × Answer) := do
  let value ← result
  return (value.1, answer value.2)

/-- A transaction's rows without an answer. -/
def silently (result : Except Failure RequestRows) :
    Except Failure (RequestRows × Answer) := do
  let rows ← result
  return (rows, .none)

/-- The request whose rows an action works on, where it is only one. -/
def Action.target? (store : Store) : Action → Option RequestRows
  | .prepareSources id _ _ => store.request? id
  | .recordSourceRetry id _ _ _ => store.request? id
  | .rejectUnstarted id _ => store.request? id
  | .reserve id => store.request? id
  | .retire id => store.request? id
  | .start _ proof _ => store.request? proof.requestId
  | .renew _ proof _ => store.request? proof.requestId
  | .reconcile _ proof _ => store.request? proof.requestId
  | .markExpired id _ _ => store.request? id
  | .cancel _ id _ _ => store.request? id
  | .storeArtifact _ proof _ _ _ => store.requestOfAttempt? proof.attemptId
  | .collectArtifact _ binding _ _ _ =>
      store.requestOfAttempt? binding.attemptId
  | .loadSource _ proof _ => store.requestOfAttempt? proof.attemptId
  | .stageStop _ body _ => store.requestOfAttempt? body.binding.attemptId
  | .submitStop _ proof _ => store.requestOfAttempt? proof.attemptId
  | .submitHistoricalStop _ binding _ =>
      store.requestOfAttempt? binding.attemptId
  | .submitClaimBoundStop _ proof _ _ =>
      store.requestOfAttempt? proof.attemptId
  | .closeSignedOff attemptId => store.requestOfAttempt? attemptId
  | .stageRecovery _ attestation =>
      store.requestOfAttempt? attestation.binding.attemptId
  | .recover _ id _ _ evidence _ =>
      (store.requestOfAttempt? evidence.attemptId).filter fun rows =>
        rows.request.id = id
  | .acceptPrepare _ authority _ => store.requestOfAttempt? authority.attemptId
  | .recordVerification _ authority _ _ =>
      store.requestOfAttempt? authority.attemptId
  | .acceptFinish _ authority _ _ =>
      store.requestOfAttempt? authority.attemptId
  | .preparePublication _ authority _ _ =>
      store.requestOfAttempt? authority.attemptId
  | .sendPublication _ authority _ =>
      store.requestOfAttempt? authority.attemptId
  | .storeReceipt value => store.requestOfPublication? value.operationId
  | .resolvePublication _ operationId _ _ =>
      store.requestOfPublication? operationId
  | .markPublished id _ => store.request? id
  | .backOff id _ _ => store.request? id
  | _ => none

/-- The transactions that work on the rows of one request. -/
def transactRows (env : Env) (store : Store) (rows : RequestRows) :
    Action → Except Failure (RequestRows × Answer)
  | .prepareSources _ prepared repoUrl =>
      silently (prepareSources env rows prepared repoUrl)
  | .recordSourceRetry _ attempt reason nextAttemptAt =>
      silently (.ok (recordSourceRetry env rows attempt reason nextAttemptAt))
  | .rejectUnstarted _ reason =>
      silently (rejectUnstartedInTransaction env rows reason)
  | .reserve _ => silently (reserveRequest env store rows)
  | .retire _ => answering (.ok (retireExpiredCandidate env rows)) .changed
  | .start actor proof scope =>
      answering (startDispatchAttempt env store rows actor proof scope) .permit
  | .renew actor proof scopeId =>
      answering (renewDispatchAttempt env store rows actor proof scopeId)
        .renewed
  | .reconcile actor proof scope =>
      answering ((fun rows => (rows, ())) <$>
          reconcileDispatchAttempt env store rows actor proof scope)
        fun _ => .reconciled
  | .markExpired _ candidateId attemptId =>
      answering (markExpiredAttempt env store.registry rows candidateId attemptId)
        .changed
  | .cancel actor _ actionId expectedVersion =>
      silently (cancelDispatch env store.registry rows actor actionId expectedVersion)
  | .storeArtifact actor proof key bytes sha256 =>
      answering (storeAttemptArtifact env store.registry rows actor proof key bytes
          sha256) .artifact
  | .collectArtifact actor binding key bytes sha256 =>
      answering (stageCollectedArtifact env store.registry rows actor binding key bytes
          sha256) .artifact
  | .loadSource actor proof id =>
      answering (loadBoundSourceArtifact env store.registry rows actor proof id)
        .document
  | .stageStop actor body sha256 =>
      answering (stageSupervisorStop env store.registry rows actor body sha256)
        .evidence
  | .submitStop actor proof evidence =>
      answering (submitStop env store.registry rows actor proof evidence)
        .receipt
  | .submitHistoricalStop actor binding evidence =>
      answering (submitHistoricalStop env store.registry rows actor binding evidence)
        .receipt
  | .submitClaimBoundStop actor proof reason observedAt =>
      answering (submitClaimBoundStop env store.registry rows actor proof reason
          observedAt) .receipt
  | .closeSignedOff attemptId =>
      answering (closeSignedOffUnstartedAttempt env store.registry rows attemptId)
        .changed
  | .stageRecovery actor attestation =>
      answering (stageRecoveryEvidence env store.registry rows actor attestation)
        .evidence
  | .recover actor _ actionId expectedVersion evidence mode =>
      silently (recoverDispatch env store.registry rows actor actionId expectedVersion
          evidence mode)
  | .acceptPrepare actor authority submission =>
      answering (acceptPrepare env store.registry rows actor authority submission)
        .preparation
  | .recordVerification actor authority artifactId allowed =>
      silently (recordVerification env store.registry rows actor authority artifactId
          allowed)
  | .acceptFinish actor authority submission result =>
      answering (acceptFinish env store.registry rows actor authority submission result)
        .result
  | .preparePublication actor authority artifactId baseBranch =>
      answering (preparePublication env store.registry rows actor authority artifactId
          baseBranch) .publication
  | .sendPublication actor authority operationId =>
      silently (sendPublication env store.registry rows actor authority operationId)
  | .storeReceipt value => silently (.ok (storeReceipt env rows value))
  | .resolvePublication actor operationId actionId attestation =>
      answering (resolvePublication env store.registry rows actor operationId actionId
          attestation) .publicationReceipt
  | .markPublished _ version =>
      .ok ({ rows with outbox := markPublished env rows.outbox version }, .none)
  | .backOff _ outboxId delay =>
      .ok ({ rows with outbox := backOff env rows.outbox outboxId delay }, .none)
  | _ => .error .other

/-- Every transaction. -/
def transact (env : Env) (store : Store) (action : Action) :
    Except Failure (Store × Answer) :=
  match action with
  | .submit actor input key => do
      let submitted ← submitDispatch env store actor input key
      return (submitted.1, .request submitted.2)
  | .claim actor incarnationId claimKey sessionCredential => do
      let claimed ← claimDispatchAttempt env store actor incarnationId claimKey
        sessionCredential
      match claimed.1 with
      | some rows => return (store.put rows, .claim claimed.2)
      | none => return (store, .claim claimed.2)
  | .republish publishedAfter =>
      let ids := republished (store.requests.map RequestRows.outbox)
        publishedAfter
      .ok ({ store with
          requests := store.requests.map fun rows =>
            { rows with outbox := republish env rows.outbox ids } }, .none)
  | .register actor input =>
      onRegistry store (registerDispatchExecutor env store.registry actor input)
        .operation
  | .heartbeat actor incarnationId sessionCredential busy =>
      onRegistry store (heartbeatExecutor env store.registry actor incarnationId
          sessionCredential busy) .changed
  | .createSlot actor input =>
      onRegistry store (createSlot env store.registry actor input) .operation
  | .disableSlot actor id actionId expectedVersion =>
      onRegistry store (disableSlot env store.registry actor id actionId expectedVersion)
        .operation
  | .createProfile actor key productId actionId sha256 config =>
      onRegistry store (createProfile env store.registry actor key productId actionId sha256
          config) .operation
  | .revokeProfile actor id actionId reason =>
      onRegistry store (revokeProfile env store.registry actor id actionId reason) .operation
  | action =>
      onRows store (action.target? store) notFound fun rows =>
        transactRows env store rows action

/-- An input of the machine. -/
structure Input where
  env : Env
  action : Action

/-- A transaction that commits: its clock is not in the past, and the primary
keys stay unique. -/
def perform (store : Store) (input : Input) : Except Failure (Store × Answer) :=
  do
    ensure (store.clock ≤ input.env.clock) .other
    let result ← transact input.env store input.action
    ensure result.1.KeysUnique .other
    return ({ result.1 with clock := input.env.clock }, result.2)

/-- The store after an input. -/
def execute (store : Store) (input : Input) : Store :=
  commit (perform store input) store

/-- The store after a run from the empty database. -/
def after (inputs : List Input) : Store :=
  run execute Store.empty inputs

/-- A store that some run from the empty database leads to. -/
def Reachable (store : Store) : Prop :=
  ∃ inputs, after inputs = store

end Dispatch
end Scrum4Me
