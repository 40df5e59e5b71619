import Scrum4Me.Dispatch.Completion

/-!
# Publishing a code artifact

The transactions of the publisher. An operation is prepared, crosses the durable
send gate, and is settled by a receipt of the port, by a reconciliation, or by
an operator's resolution.
-/

namespace Scrum4Me
namespace Dispatch

open Foundation

/-- The part of a `PublicationIntent` that its receipt repeats. -/
structure PublicationIntent where
  operationId : Uuid
  requestId : Uuid
  attemptId : Uuid
  headSha : String
  branchOf : Uuid
  mode : PublishMode
  expectedRemoteHead : Option String
  deriving DecidableEq

/-- `receipt`. -/
def PublicationIntent.receipt (x : PublicationIntent) (status : ReceiptStatus)
    (prUrl : Option String) : PublicationReceipt :=
  { operationId := x.operationId
    status := status
    branchOf := x.branchOf
    headSha := x.headSha
    prUrl := prUrl }

/-- The artifacts that an operation was prepared from. -/
def RequestRows.preparation?
    (rows : RequestRows) (operationId : Uuid) : Option (Uuid × Uuid) :=
  rows.events.findSome? fun event =>
    match event.body with
    | .publicationPrepared recorded artifactId baseArtifactId _ _ _ =>
        if recorded = operationId then
          some (artifactId, baseArtifactId)
        else
          none
    | _ => none

/-- The stored bytes of an artifact still have their digest. -/
def RequestRows.intactArtifact (rows : RequestRows) (id : Uuid) : Bool :=
  match rows.artifacts.find? fun a => a.id = id with
  | some a => artifactHash a.bytes == a.sha256
  | none => false

/-- `intent`. -/
def publicationIntent (rows : RequestRows)
    (operationId : Uuid) : Except Failure PublicationIntent := do
  let row ← require (rows.publication? operationId) conflict
  let artifacts ← require (rows.preparation? operationId) conflict
  ensure
    (rows.intactArtifact artifacts.1 = true ∧
      rows.intactArtifact artifacts.2 = true)
    conflict
  return { operationId := row.id
           requestId := rows.request.id
           attemptId := row.attemptId
           headSha := row.headSha
           branchOf := row.branchOf
           mode := row.mode
           expectedRemoteHead := row.expectedRemoteHead }

/-- `authorizeSend`. -/
def authorizeSend (env : Env) (registry : Registry) (actor : Actor)
    (x : ArtifactAttempt) : Except Failure Unit := do
  authenticateHistoricalSupervisor env actor x
  answered (env.authorizeDispatch actor x.r.input .publish)
  answered (env.authorizeDispatch (requestActor x.r) x.r.input .publish)
  ensure
    (x.p.revokedAt = none ∧ x.s.enabled = true ∧
      x.p.sha256 = x.scope.profileSha256 ∧
      x.p.config.imageDigest = x.scope.imageDigest ∧
      registry.Bound x.s.id x.c.profileRevisionId)
    forbidden

/-- The newest operation of the request, under `ORDER BY created_at DESC`. The
publisher's advisory lock orders the inserts, so it is the last one. -/
def RequestRows.newestPublication? (rows : RequestRows) :
    Option PublicationRow :=
  rows.publications.getLast?

/-- A task was verified with this code, and its gate allowed it. -/
def RequestRows.verifiedTask (rows : RequestRows)
    (attemptId artifactId : Uuid) : Bool :=
  rows.events.any fun event =>
    match event.body with
    | .taskVerified verified allowed =>
        decide (event.attemptId = some attemptId ∧ verified = artifactId) &&
          allowed
    | _ => false

/-- The code that a staged artifact holds. -/
def Document.code? : Document → Option CodeArtifact
  | .code body => some body
  | _ => none

/-- The writes of a new operation. -/
def writePrepared (env : Env) (rows : RequestRows) (x : ArtifactAttempt)
    (artifactId baseArtifactId : Uuid) (code : CodeArtifact)
    (baseBranch : String) : RequestRows :=
  let id := env.uuid .publication rows.publications.length
  let expected :=
    match rows.newestPublication? with
    | some old => if old.state = .confirmed then some old.headSha else none
    | none => none
  ({ rows with
      publications := rows.publications ++
        [{ id := id
           attemptId := x.a.id
           actionKey :=
             { requestId := x.r.id
               attemptId := x.a.id
               artifactId := artifactId }
           inputHash := x.r.inputHash
           baseSha := code.baseSha
           headSha := code.headSha
           branchOf := code.branchOf
           mode := x.r.input.publish
           expectedRemoteHead := expected
           state := .prepared
           remoteReceipt := none
           createdAt := env.now
           updatedAt := env.now }] } : RequestRows).insertEvent env
    (some x.a.id) (.service none)
    (.publicationPrepared id artifactId baseArtifactId code.repoUrl baseBranch
      code.checks)

/-- An existing operation that answers for this attempt and artifact, or blocks
a new one. -/
def existingPublication? (rows : RequestRows) (x : ArtifactAttempt)
    (artifactId : Uuid) : Option PublicationRow :=
  rows.newestPublication?.filter fun old =>
    decide (old.attemptId = x.a.id ∧
      (rows.preparation? old.id).map Prod.fst = some artifactId) ||
      decide (old.state ≠ .confirmed ∧ old.state ≠ .failed)

/-- The outcome of the first transaction of `publishUnlocked`. -/
inductive PublicationStart
  | existing (row : PublicationRow)
  | prepared (operationId : Uuid)
  deriving DecidableEq

/-- The first transaction of `publishUnlocked`. -/
def preparePublication
    (env : Env) (registry : Registry) (rows : RequestRows) (actor : Actor)
    (authority : Authority) (artifactId : Uuid) (baseBranch : String) :
    Except Failure (RequestRows × PublicationStart) := do
  let x ← lockAuthorized env registry rows actor authority
  match existingPublication? rows x artifactId with
  | some old => return (rows, .existing old)
  | none =>
      ensure
        (x.r.state = .running ∧ x.r.generation = x.c.generation ∧
          x.a.stoppedAt ≠ none ∧ x.r.input.publish ≠ .artifact)
        conflict
      authorizeSend env registry actor x
      ensure
        (x.r.input.action = .taskImplementation →
          rows.verifiedTask x.a.id artifactId = true)
        conflict
      let a ← require
        (rows.artifacts.find? fun a =>
          a.id = artifactId ∧ a.attemptId = some x.a.id) invalidInput
      let base ← require
        (rows.artifacts.find? fun a =>
          a.attemptId = none ∧ a.key = repositorySourceKey) invalidInput
      let code ← require a.bytes.code? .other
      let repo ← require x.r.input.repository .other
      ensure
        (code.branchOf = x.r.id ∧ code.baseSha = repo.baseSha ∧
          env.repoUrl repo.productId = some code.repoUrl)
        invalidInput
      return (writePrepared env rows x artifactId base.id code baseBranch,
        .prepared (env.uuid .publication rows.publications.length))

/-- The send gate of `publishUnlocked`: `PREPARED` becomes `SENT` while the
request still runs. -/
def sendPublication (env : Env) (registry : Registry) (rows : RequestRows) (actor : Actor)
    (authority : Authority)
    (operationId : Uuid) : Except Failure RequestRows := do
  let x ← lockArtifactAttempt env registry rows authority.attemptId
  authority.verify rows actor x
  authorizeSend env registry actor x
  ensure (x.r.state = .running) conflict
  return rows.updatePublication operationId fun row =>
    if row.state = .prepared then
      { row with state := .sent, updatedAt := env.now }
    else
      row

/-- `storeReceipt`: a settled operation keeps its first receipt. -/
def storeReceipt (env : Env) (rows : RequestRows)
    (value : PublicationReceipt) : RequestRows :=
  rows.updatePublication value.operationId fun row =>
    if row.state = .confirmed ∨ row.state = .failed then
      row
    else
      { row with
        state := value.status.state
        remoteReceipt := some value
        updatedAt := env.now }

/-- The recorded resolution of a key, if it was taken before. -/
def RequestRows.publicationResolution?
    (rows : RequestRows) (key : OperationKey) : Option (Uuid × Sha256) :=
  rows.events.findSome? fun event =>
    match event.body with
    | .publicationResolved recorded operationId _ sha256 =>
        if recorded = key then some (operationId, sha256) else none
    | _ => none

/-- `resolveUnlocked`: an operator closes an unknown operation as failed. -/
def resolvePublication
    (env : Env) (registry : Registry) (rows : RequestRows) (actor : Actor)
    (operationId : Uuid) (actionId : String) (attestation : PublicationResolution) :
    Except Failure (RequestRows × Option PublicationReceipt) := do
  ensure (keyValid actionId = true) invalidInput
  let bytes := Document.resolution attestation
  let sha256 := artifactHash bytes
  let p ← require (rows.publication? operationId) notFound
  let x ← lockArtifactAttempt env registry rows p.attemptId
  answered (env.authorizeDispatch actor x.r.input .recover)
  let key : OperationKey :=
    { principalKey := actor.principalKey
      purpose := .publicationResolution
      actionId := actionId }
  match rows.publicationResolution? key with
  | some recorded =>
      ensure (recorded = (operationId, sha256)) idempotencyConflict
      return (rows, p.remoteReceipt)
  | none =>
      ensure
        (p.state = .unknown ∧ attestation.operationId = p.id ∧
          attestation.remoteHead ≠ some p.headSha ∧
          p.createdAt ≤ attestation.observedAt ∧
          attestation.observedAt ≤ env.clock ∧
          attestation.pullRequest =
            if p.mode = .pullRequest then .noneFound else .notApplicable)
        conflict
      let stored ← insertArtifact env rows
        { attemptId := some x.a.id
          key := publicationResolutionKey
          bytes := bytes
          sha256 := sha256
          actor := .recoveryOperator actor.userId actor.principalKey
          binding := .none }
      let result : PublicationReceipt :=
        { operationId := p.id
          status := .failed
          branchOf := p.branchOf
          headSha := p.headSha
          prUrl := none }
      let rows := stored.1.updatePublication p.id fun row =>
        { row with
          state := .failed
          remoteReceipt := some result
          updatedAt := env.now }
      return (rows.insertEvent env (some x.a.id)
          (.service (some actor.userId))
          (.publicationResolved key p.id stored.2 sha256),
        some result)

end Dispatch
end Scrum4Me
