import Scrum4Me.Dispatch.StopEvidence

/-!
# Recovery and cancellation

The operator's decisions: stage evidence about an attempt that cannot report
any more, close its request or authorize one retry, and cancel a request.
-/

namespace Scrum4Me
namespace Dispatch

open Foundation

/-- `stageRecoveryEvidence`. -/
def stageRecoveryEvidence (env : Env) (registry : Registry) (rows : RequestRows) (actor : Actor)
    (attestation : RecoveryAttestation) :
    Except Failure (RequestRows × StopEvidence) := do
  let bytes := Document.attestation attestation
  let sha256 := artifactHash bytes
  ensure (attestation.kind ≠ .containerStopped) .other
  let x ← lockArtifactAttempt env registry rows attestation.binding.attemptId
  answered (env.authorizeDispatch actor x.r.input .recover)
  validateHistoricalBinding rows x attestation.binding
  let stored ← insertArtifact env rows
    { attemptId := some x.a.id
      key := operatorRecoveryKey
      bytes := bytes
      sha256 := sha256
      actor := .recoveryOperator actor.userId actor.principalKey
      binding := .scoped attestation.binding }
  return (stored.1,
    { kind := attestation.kind
      artifactId := stored.2
      sha256 := sha256
      attemptId := x.a.id
      incarnationId := x.i.id
      scopeId := attestation.binding.scope.scopeId
      profileSha256 := attestation.binding.scope.profileSha256
      observedAt := attestation.observedAt })

/-- The attestation that a staged artifact holds. -/
def Document.attestation? : Document → Option RecoveryAttestation
  | .attestation body => some body
  | _ => none

/-- The attestation covers the whole time since the attempt could run. -/
def attestationCovers
    (env : Env) (x : ArtifactAttempt) (e : StopEvidence) (body : RecoveryAttestation)
    (since : Timestamp) : Prop :=
  body.kind = e.kind ∧ body.observedAt = e.observedAt ∧
    e.attemptId = x.a.id ∧ e.incarnationId = x.i.id ∧
    e.scopeId = x.a.scopeId.getD body.binding.scope.scopeId ∧
    e.profileSha256 = x.scope.profileSha256 ∧ since ≤ body.observedAt ∧
    body.observedAt ≤ env.hostNow ∧
    (body.kind = .runtimeRebooted →
      body.runtimeBootBefore ≠ body.runtimeBootAfter ∧
        ∃ rebooted ∈ body.rebootedAt,
          since < rebooted ∧ rebooted ≤ body.observedAt)

instance
    (env : Env) (x : ArtifactAttempt) (e : StopEvidence) (body : RecoveryAttestation)
    (since : Timestamp) :
    Decidable (attestationCovers env x e body since) :=
  inferInstanceAs (Decidable (_ ∧ _))

/-- An attested stop of `acceptRecoveryStop`. -/
def acceptAttestedStop (env : Env) (rows : RequestRows) (x : ArtifactAttempt) (e : StopEvidence)
    (actor : Actor) : Except Failure AcceptedStop := do
  let a ← require (rows.artifacts.find? fun artifact =>
      artifact.id = e.artifactId ∧ artifact.attemptId = some x.a.id ∧
        artifact.key = operatorRecoveryKey) conflict
  ensure (artifactHash a.bytes = e.sha256 ∧ a.sha256 = e.sha256) conflict
  let body ← require a.bytes.attestation? .other
  validateHistoricalBinding rows x body.binding
  let since ← require (if x.a.scopeId = none then x.c.firstClaimedAt else x.a.startedAt) conflict
  ensure (attestationCovers env x e body since) conflict
  let stagings := (rows.stagings x.a.id a.id).filter fun event =>
    match event.actor with
    | .recoveryOperator _ _ => true
    | _ => false
  let staged ← require stagings.head? conflict
  ensure (stagings.length = 1 ∧ staged.Staged e.sha256 (.scoped body.binding))
    conflict
  match rows.stopsOf x.a.id with
  | old :: others => do
      ensure (others = [] ∧ old.acceptance.artifactId = some a.id) conflict
      return { rows := rows, x := x, id := old.eventId, fresh := false }
  | [] =>
      return recordStop env rows x
        { kind := .attested e.kind
          artifactId := some a.id
          sha256 := some e.sha256
          binding := .scoped body.binding
          observedAt := e.observedAt }
        (.service (some actor.userId))

/-- `acceptRecoveryStop`. -/
def acceptRecoveryStop (env : Env) (rows : RequestRows) (x : ArtifactAttempt) (e : StopEvidence)
    (actor : Actor) : Except Failure AcceptedStop :=
  if e.kind = .containerStopped then
    acceptStopInTransaction env rows x e actor
  else
    acceptAttestedStop env rows x e actor

def recoveryResult (outcome : Outcome) : DispatchResult :=
  { outcome := outcome
    summary := "Execution closed through explicit recovery"
    reportMarkdown :=
      "The authorized recovery decision and stop evidence are preserved in " ++
        "the audit."
    checks := []
    code := none
    review := none }

/-- The retry of `recoverDispatch`: the attempt is closed, and the request waits
again under a fresh authority. -/
def authorizeRetry (env : Env) (stop : AcceptedStop) : Except Failure RequestRows := do
  let x := stop.x
  ensure (x.r.state = .uncertain) conflict
  answered (env.authorizeDispatch (requestActor x.r) x.r.input .claim)
  ensure (x.p.revokedAt = none ∧ x.r.input.action ∈ x.p.config.actions) forbidden
  let rows ← terminalizeAttempt env stop.rows x .failed
  let authorization := rows.nextEventId env
  let rows := rows.insertEvent env (some x.a.id) (.service none)
    (.retryAuthorized x.a.id x.r.inputHash x.r.generation stop.id)
  let rows := rows.setRequest fun r =>
    { r with retryAuthorizationEventId := some authorization }
  return transition env rows .waiting none

/-- The decision of `recoverDispatch` after the stop was accepted. -/
def decideRecovery (env : Env) (stop : AcceptedStop) : RecoveryMode → Except Failure RequestRows
  | .retrySameContract => authorizeRetry env stop
  | .closeCancelled => do
      let finished ← finishResult env stop.rows stop.x
        (recoveryResult .cancelled) (.canonical (recoveryResult .cancelled))
        none
      return finished.1
  | .closeFailed => do
      let finished ← finishResult env stop.rows stop.x
        (recoveryResult .failed) (.canonical (recoveryResult .failed)) none
      return finished.1

/-- The recorded action of a key, if it was taken before. -/
def RequestRows.recoveryAction? (rows : RequestRows) (key : OperationKey) : Option RecoveryDigest :=
  rows.events.findSome? fun event =>
    match event.body with
    | .recoveryAction recorded hash =>
        if recorded = key then some hash else none
    | _ => none

def recoverDispatch (env : Env) (registry : Registry) (rows : RequestRows) (actor : Actor)
    (actionId : String) (expectedVersion : Nat) (evidence : StopEvidence)
    (mode : RecoveryMode) : Except Failure RequestRows := do
  ensure (keyValid actionId = true) invalidInput
  let x ← lockArtifactAttempt env registry rows evidence.attemptId
  answered (env.authorizeDispatch actor x.r.input .recover)
  let key : OperationKey :=
    { principalKey := actor.principalKey
      purpose := .recovery
      actionId := actionId }
  let hash : RecoveryDigest :=
    { id := x.r.id
      expectedVersion := expectedVersion
      evidence := evidence
      mode := mode }
  match rows.recoveryAction? key with
  | some recorded =>
      ensure (recorded = hash) idempotencyConflict
      return rows
  | none =>
      ensure (x.r.version = expectedVersion ∧ x.r.generation = x.c.generation ∧
          x.r.resultId = none ∧
          (x.r.state = .uncertain ∨ x.r.state = .cancelRequested) ∧
          ¬ rows.UnresolvedPublication)
        conflict
      let stop ← acceptRecoveryStop env rows x evidence actor
      let decided ← decideRecovery env stop mode
      return decided.insertEvent env (some x.a.id) (.user actor.userId) (.recoveryAction key hash)

/-! ## Cancellation -/

def requesterCancelledResult : DispatchResult :=
  { outcome := .cancelled
    summary := "Cancelled by requester"
    reportMarkdown := "The requester cancelled this execution."
    checks := []
    code := none
    review := none }

/-- The recorded cancellation of a key, if it was taken before. -/
def RequestRows.cancelAction? (rows : RequestRows) (key : OperationKey) : Option CancelDigest :=
  rows.events.findSome? fun event =>
    match event.body with
    | .cancelAction recorded hash =>
        if recorded = key then some hash else none
    | _ => none

/-- Move a claimed request to `CANCEL_REQUESTED`, once. -/
def requestStop (env : Env) (rows : RequestRows) (c : CandidateRow)
    (attemptId : Uuid) : RequestRows :=
  if rows.request.state = .cancelRequested then
    rows
  else
    let rows := rows.updateAttempt attemptId fun row =>
      { row with
        state := .cancelRequested
        revokedAt := row.revokedAt <|> some env.now }
    let rows := rows.updateCandidate c.id fun row =>
      { row with state := .cancelRequested }
    let rows := transition env rows .cancelRequested none
    rows.insertEvent env (some attemptId) (.service none) .cancelRequested

/-- Cancel a request whose candidate has an attempt: the stop is requested, and
an attempt that already stopped is finished. -/
def cancelAttempt (env : Env) (registry : Registry) (rows : RequestRows) (c : CandidateRow)
    (a : AttemptRow) : Except Failure RequestRows := do
  let x ← lockArtifactAttempt env registry rows a.id
  let rows := requestStop env rows c a.id
  if x.a.stoppedAt ≠ none ∧ ¬ rows.UnresolvedPublication then
    let finished ← finishResult env rows x requesterCancelledResult
      (.canonical requesterCancelledResult) none
    return finished.1
  else
    return rows

/-- `assertRetryAuthorization`, where the request was claimed before. -/
def assertRetryIfClaimed (rows : RequestRows) : Except Failure Unit :=
  if rows.request.firstClaimedAt ≠ none then do
    let _ ← assertRetryAuthorization rows
    return ()
  else
    .ok ()

/-- Cancel a request that no attempt is running for. -/
def cancelUnclaimed (env : Env) (rows : RequestRows)
    (candidate : Option CandidateRow) : Except Failure RequestRows := do
  assertRetryIfClaimed rows
  let claimedBefore := rows.request.firstClaimedAt
  ensure (∀ c ∈ candidate, c.firstClaimedAt = none) conflict
  let rows :=
    match candidate with
    | some c => closeUnclaimed env rows c
    | none => rows
  let inserted ← insertResult env rows none requesterCancelledResult
  let rows := transition env inserted.1 .cancelled (some inserted.2)
  return rows.insertEvent env none (.service none) (if claimedBefore ≠ none then
      .cancelRecoveredUnstarted inserted.2
    else
      .cancelUnclaimed inserted.2)

/-- The part of `cancelDispatch` that changes a request still in progress. -/
def cancelInProgress (env : Env) (registry : Registry)
    (rows : RequestRows) : Except Failure RequestRows :=
  if rows.request.state.Terminal then
    .ok rows
  else
    match rows.openCandidate? with
    | none => cancelUnclaimed env rows none
    | some c =>
        match rows.attempts.find? fun a => a.candidateId = c.id with
        | some a => cancelAttempt env registry rows c a
        | none => cancelUnclaimed env rows (some c)

/-- The authority of a cancellation by someone other than the requester. -/
def authorizeCancel (env : Env) (actor : Actor) (r : RequestRow) :
    Except Failure Unit :=
  if actor.userId ≠ r.userId then do
    ensure (actor.source ≠ .web) forbidden
    answered (env.authorizeDispatch actor r.input .recover)
  else
    .ok ()

def cancelDispatch (env : Env) (registry : Registry) (rows : RequestRows) (actor : Actor)
    (actionId : String)
    (expectedVersion : Nat) : Except Failure RequestRows := do
  ensure (keyValid actionId = true) invalidInput
  let r := rows.request
  answered (env.authorizeDispatch actor r.input .cancel)
  authorizeCancel env actor r
  let hash : CancelDigest := { id := r.id, expectedVersion := expectedVersion }
  let key : OperationKey :=
    { principalKey := actor.principalKey
      purpose := .cancel
      actionId := actionId }
  match rows.cancelAction? key with
  | some recorded =>
      ensure (recorded = hash) idempotencyConflict
      return rows
  | none =>
      ensure (r.version = expectedVersion) conflict
      lockHierarchyOf env r.input
      let cancelled ← cancelInProgress env registry rows
      return cancelled.insertEvent env none (.user actor.userId) (.cancelAction key hash)

end Dispatch
end Scrum4Me
