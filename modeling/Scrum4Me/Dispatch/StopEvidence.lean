import Scrum4Me.Dispatch.Attempts

/-!
# Stop evidence

The ways in which the stop of an attempt is accepted. The scoped stop checks a
staged broker observation; the claim-bound stop and the signed-off stop stand in
for it where the attempt provably never started. Each records exactly one
`stop_accepted` event, and only an accepted stop releases capacity.
-/

namespace Scrum4Me
namespace Dispatch

open Foundation

/-- `authenticateHistoricalSupervisor`. -/
def authenticateHistoricalSupervisor (env : Env) (actor : Actor)
    (x : ArtifactAttempt) : Except Failure Unit := do
  answered (env.refreshActor actor)
  ensure (x.SupervisedBy actor) forbidden

/-- The outcome of accepting a stop: the rows, the attempt as the caller goes on
with it, the receipt, and whether the event is new. -/
structure AcceptedStop where
  rows : RequestRows
  x : ArtifactAttempt
  id : Uuid
  fresh : Bool

/-- The two writes that every fresh acceptance makes. -/
def recordStop (env : Env) (rows : RequestRows) (x : ArtifactAttempt) (acceptance : StopAcceptance)
    (actor : EventActor) : AcceptedStop :=
  let id := rows.nextEventId env
  let rows := rows.insertEvent env (some x.a.id) actor (.stopAccepted acceptance)
  { rows := rows.updateAttempt x.a.id fun row =>
      { row with
        stoppedAt := some acceptance.observedAt
        revokedAt := row.revokedAt <|> some env.now }
    x := { x with a := { x.a with stoppedAt := some acceptance.observedAt } }
    id := id
    fresh := true }

/-- The `artifact_staged` events of an artifact of the attempt. -/
def RequestRows.stagings (rows : RequestRows) (attemptId artifactId : Uuid) : List EventRow :=
  rows.events.filter fun event =>
    match event.body with
    | .artifactStaged id _ _ _ _ =>
        decide (event.attemptId = some attemptId ∧ id = artifactId)
    | _ => false

/-- The staging event recorded these bytes under this binding. -/
def EventRow.Staged (event : EventRow) (sha256 : Sha256) (b : StagedBinding) :
    Prop :=
  match event.body with
  | .artifactStaged _ _ staged _ binding => staged = sha256 ∧ binding = b
  | _ => False

instance (event : EventRow) (sha256 : Sha256) (b : StagedBinding) :
    Decidable (event.Staged sha256 b) := by
  unfold EventRow.Staged
  split <;> infer_instance

/-- The observation is of a container that was never started. -/
def preparedNonlaunch (rows : RequestRows) (x : ArtifactAttempt) (body : StopObservation) : Prop :=
  x.a.startedAt = none ∧ rows.scopesOf x.a.id = [] ∧
    (∃ claimed ∈ x.c.firstClaimedAt, claimed ≤ body.observedAt) ∧
    body.status = .created ∧ ¬ rows.UnresolvedPublication

instance (rows : RequestRows) (x : ArtifactAttempt) (body : StopObservation) :
    Decidable (preparedNonlaunch rows x body) :=
  inferInstanceAs (Decidable (_ ∧ _))

/-- The observation is of the scope the attempt was started in. -/
def registeredScopeStopped (rows : RequestRows) (x : ArtifactAttempt)
    (body : StopObservation) : Prop :=
  x.a.scopeId = some body.binding.scope.scopeId ∧
    rows.scopesOf x.a.id = [body.binding.scope] ∧
    ∃ started ∈ x.a.startedAt, started ≤ body.observedAt

instance (rows : RequestRows) (x : ArtifactAttempt) (body : StopObservation) :
    Decidable (registeredScopeStopped rows x body) :=
  inferInstanceAs (Decidable (_ ∧ _))

/-- Evidence, observation and attempt name the same execution. -/
def observationMatches (x : ArtifactAttempt) (e : StopEvidence) (body : StopObservation) : Prop :=
  let b := body.binding
  b.requestId = x.r.id ∧ b.candidateId = x.c.id ∧
    b.generation = x.c.generation ∧ b.attemptId = x.a.id ∧
    b.incarnationId = x.i.id ∧ body.slotId = x.s.id ∧
    body.observer = .broker x.s.id ∧ b.scope.bootId = x.i.bootId ∧
    b.scope.profileSha256 = x.scope.profileSha256 ∧
    b.scope.imageDigest = x.scope.imageDigest ∧ e.attemptId = x.a.id ∧
    e.incarnationId = x.i.id ∧ e.scopeId = b.scope.scopeId ∧
    e.profileSha256 = b.scope.profileSha256 ∧ e.observedAt = body.observedAt

instance (x : ArtifactAttempt) (e : StopEvidence) (body : StopObservation) :
    Decidable (observationMatches x e body) :=
  inferInstanceAs (Decidable (_ ∧ _))

/-- The observation that a staged artifact holds. -/
def Document.observation? : Document → Option StopObservation
  | .stopObservation body => some body
  | _ => none

/-- `acceptStopInTransaction`. -/
def acceptStopInTransaction
    (env : Env) (rows : RequestRows) (x : ArtifactAttempt) (e : StopEvidence)
    (actor : Actor) : Except Failure AcceptedStop := do
  ensure (e.kind = .containerStopped) conflict
  let a ← require (rows.artifacts.find? fun artifact =>
      artifact.id = e.artifactId ∧ artifact.attemptId = some x.a.id ∧
        artifact.key = supervisorStopKey) conflict
  ensure (a.sha256 = e.sha256 ∧ a.byteSize = env.byteLength a.bytes ∧
      artifactHash a.bytes = e.sha256) conflict
  let body ← require a.bytes.observation? .other
  ensure (observationMatches x e body) conflict
  let staged ← require (rows.stagings x.a.id a.id).head? conflict
  ensure ((rows.stagings x.a.id a.id).length = 1 ∧
      staged.actor =
        .staged .supervisor x.s.ownerUserId (some x.scope.supervisorTokenId)
          x.i.id none ∧
      staged.Staged e.sha256 (.observed body.binding x.s.id (if x.a.scopeId = none then
            .unregisteredPreparedScope
          else
            .registeredStartedScope)))
    conflict
  ensure (if x.a.scopeId = none then
      preparedNonlaunch rows x body
    else
      registeredScopeStopped rows x body)
    conflict
  ensure (body.observedAt ≤ env.clock) conflict
  match rows.stopsOf x.a.id with
  | old :: others => do
      ensure (others = [] ∧ old.acceptance.artifactId = some a.id ∧
          old.acceptance.sha256 = some e.sha256 ∧
          old.acceptance.binding = .scoped body.binding)
        conflict
      return { rows := rows, x := x, id := old.eventId, fresh := false }
  | [] =>
      return recordStop env rows x
        { kind :=
            if x.a.scopeId = none then
              .preparedCreatedNonlaunch
            else
              .registeredStartedScope
          artifactId := some a.id
          sha256 := some e.sha256
          binding := .scoped body.binding
          observedAt := body.observedAt }
        (.staged .supervisor x.s.ownerUserId (some x.scope.supervisorTokenId)
          x.i.id (some actor.userId))

/-! ## Stops without a scope -/

/-- `/^DISPATCH_[A-Z0-9_]{1,80}$/`. -/
def boundedStopReason (reason : String) : Bool :=
  let characters := reason.toList
  let body := characters.drop 9
  characters.take 9 == "DISPATCH_".toList &&
    decide (1 ≤ body.length ∧ body.length ≤ 80) &&
    body.all fun c => c.isUpper || c.isDigit || c == '_'

/-- The claim of the attempt, as `sourceBindingSchema` writes it. -/
def ArtifactAttempt.claimBinding (x : ArtifactAttempt) : SourceBinding :=
  { requestId := x.r.id
    candidateId := x.c.id
    generation := x.c.generation
    attemptId := x.a.id
    incarnationId := x.i.id }

/-- The exact signature of an attempt that nothing was started for. -/
def unscopedSignature (rows : RequestRows) (x : ArtifactAttempt) : Prop :=
  x.a.scopeId = none ∧ x.a.startedAt = none ∧ x.a.stoppedAt = none ∧
    (x.r.state = .claimed ∨ x.r.state = .uncertain ∨
      x.r.state = .cancelRequested) ∧
    (x.a.state = .claimed ∨ x.a.state = .uncertain ∨
      x.a.state = .cancelRequested) ∧
    x.r.generation = x.c.generation ∧ x.c.firstClaimedAt ≠ none ∧
    rows.scopesOf x.a.id = [] ∧ rows.result? = none ∧
    ¬ rows.UnresolvedPublication

instance (rows : RequestRows) (x : ArtifactAttempt) :
    Decidable (unscopedSignature rows x) :=
  inferInstanceAs (Decidable (_ ∧ _))

/-- The canonical body of a claim-bound stop. -/
def claimBoundBody (x : ArtifactAttempt) (reason : String) (observedAt : Timestamp) : Document :=
  .claimBoundStop
    { binding := x.claimBinding
      slotId := x.s.id
      observer := .supervisor x.s.id
      observedAt := observedAt
      reason := reason }

/-- `acceptClaimBoundStopInTransaction`. -/
def acceptClaimBoundStopInTransaction
    (env : Env) (rows : RequestRows) (x : ArtifactAttempt) (reason : String)
    (observedAt : Option Timestamp)
    (actor : Actor) : Except Failure AcceptedStop := do
  ensure (boundedStopReason reason = true) conflict
  let observedAt ← require observedAt conflict
  let bytes := claimBoundBody x reason observedAt
  let sha256 := artifactHash bytes
  match rows.stopsOf x.a.id with
  | old :: others => do
      ensure (others = [] ∧ old.acceptance.kind = .claimBoundUnscoped ∧
          old.acceptance.sha256 = some sha256)
        conflict
      return { rows := rows, x := x, id := old.eventId, fresh := false }
  | [] => do
      ensure (unscopedSignature rows x) conflict
      ensure (∀ artifact ∈ rows.artifacts,
          ¬ (artifact.attemptId = some x.a.id ∧
            artifact.key = supervisorStopKey))
        conflict
      ensure ((∃ claimed ∈ x.c.firstClaimedAt, claimed ≤ observedAt) ∧
          observedAt ≤ env.clock)
        conflict
      let stored ← insertArtifact env rows
        { attemptId := some x.a.id
          key := claimBoundStopKey
          bytes := bytes
          sha256 := sha256
          actor := .staged .supervisor actor.userId actor.tokenId x.i.id none
          binding := .claim x.claimBinding }
      return recordStop env stored.1 x
        { kind := .claimBoundUnscoped
          artifactId := some stored.2
          sha256 := some sha256
          binding := .claim x.claimBinding
          observedAt := observedAt }
        (.staged .supervisor actor.userId actor.tokenId x.i.id (some actor.userId))

def claimBoundFailedResult (reason : String) : DispatchResult :=
  { outcome := .failed
    summary := reason
    reportMarkdown :=
      "The attempt was refused before any runtime scope was created: " ++
        reason ++
        ". No container was created, so there is no output to report."
    checks := []
    code := none
    review := none }

def signedOffUnstartedReason : String :=
  "DISPATCH_INCARNATION_SIGNED_OFF_BEFORE_START"

/-- `acceptSignedOffUnstartedStopInTransaction`: nothing, where the attempt may
have started. -/
def acceptSignedOffUnstartedStopInTransaction (env : Env) (rows : RequestRows)
    (x : ArtifactAttempt) : Option AcceptedStop :=
  if x.i.signedOffAt ≠ none ∧ unscopedSignature rows x ∧
      rows.stopsOf x.a.id = [] then
    some (recordStop env rows x
      { kind := .signedOffUnstarted
        artifactId := none
        sha256 := none
        binding := .claim x.claimBinding
        observedAt := env.clock }
      (.service none))
  else
    none

/-! ## The transactions -/

/-- `submitStop` of the supervisor: the receipt id. -/
def submitStop (env : Env) (registry : Registry) (rows : RequestRows) (actor : Actor)
    (proof : AttemptProof)
    (e : StopEvidence) : Except Failure (RequestRows × Uuid) := do
  let x ← lockArtifactAttempt env registry rows proof.attemptId
  verifyArtifactProof actor proof x
  authenticateHistoricalSupervisor env actor x
  let stop ← acceptStopInTransaction env rows x e actor
  let rows ← finishStoppedCancellation env stop.rows stop.x
  return (rows, stop.id)

/-- `nonLaunchRecovery(actor).submitStop`: the same stop, proved by its
historical binding. -/
def submitHistoricalStop (env : Env) (registry : Registry) (rows : RequestRows) (actor : Actor)
    (binding : StartBinding)
    (e : StopEvidence) : Except Failure (RequestRows × Uuid) := do
  let x ← lockArtifactAttempt env registry rows binding.attemptId
  authenticateHistoricalSupervisor env actor x
  validateHistoricalBinding rows x binding
  let stop ← acceptStopInTransaction env rows x e actor
  let rows ← finishStoppedCancellation env stop.rows stop.x
  return (rows, stop.id)

/-- Close a request in the transaction that accepted an unscoped stop. -/
def closeStopped (env : Env) (stop : AcceptedStop)
    (result : DispatchResult) : Except Failure RequestRows :=
  if stop.x.r.state = .cancelRequested then
    finishStoppedCancellation env stop.rows stop.x
  else do
    let finished ← finishResult env stop.rows stop.x result (.canonical result)
      none
    return finished.1

def submitClaimBoundStop (env : Env) (registry : Registry) (rows : RequestRows) (actor : Actor)
    (proof : AttemptProof) (reason : String)
    (observedAt : Option Timestamp) : Except Failure (RequestRows × Uuid) := do
  let x ← lockArtifactAttempt env registry rows proof.attemptId
  verifyArtifactProof actor proof x
  authenticateHistoricalSupervisor env actor x
  let stop ← acceptClaimBoundStopInTransaction env rows x reason observedAt
    actor
  if stop.fresh = true then
    let closed ← closeStopped env stop (claimBoundFailedResult reason)
    return (closed, stop.id)
  else
    return (stop.rows, stop.id)

def signedOffUnstartedResult : DispatchResult :=
  { outcome := .failed
    summary := signedOffUnstartedReason
    reportMarkdown :=
      "The supervisor holding this claim was replaced before the attempt " ++
        "started. No start permit was ever issued, so nothing ran."
    checks := []
    code := none
    review := none }

/-- One row of `closeSignedOffUnstartedAttempts`: whether it was closed. -/
def closeSignedOffUnstartedAttempt (env : Env) (registry : Registry) (rows : RequestRows)
    (attemptId : Uuid) : Except Failure (RequestRows × Bool) := do
  let x ← lockArtifactAttempt env registry rows attemptId
  match acceptSignedOffUnstartedStopInTransaction env rows x with
  | none => return (rows, false)
  | some stop =>
      let closed ← closeStopped env stop signedOffUnstartedResult
      return (closed, true)

end Dispatch
end Scrum4Me
