import Scrum4Me.Dispatch.Artifacts

/-!
# Finishing a request

The helpers that every closing transaction shares: the result insert, the
transition, the release of the attempt's capacity, and the usage of its job.
-/

namespace Scrum4Me
namespace Dispatch

open Foundation

/-! ## Usage -/

/-- A value that `dispatchUsageSchema` accepts. -/
structure DispatchUsage where
  status : UsageStatus
  model : Option String
  inputTokens : Nat
  outputTokens : Nat
  cacheReadTokens : Nat
  cacheWriteTokens : Nat
  reasoningOutputTokens : Option Nat
  deriving DecidableEq

/-- The raw usage of a submission: `none` is a value that does not parse. -/
abbrev RawUsage := Option DispatchUsage

def dispatchUsageColumns (raw : RawUsage)
    (requestedModel : Option String) : UsageColumns :=
  let status := (raw.map DispatchUsage.status).getD .parseError
  let none' : UsageColumns :=
    { modelId := none
      inputTokens := none
      outputTokens := none
      cacheReadTokens := none
      cacheWriteTokens := none
      reasoningOutputTokens := none
      captureStatus := status }
  match raw with
  | none => none'
  | some u =>
      if u.status ≠ .captured then
        none'
      else
        let model := u.model <|> requestedModel
        { modelId := model
          inputTokens := some u.inputTokens
          outputTokens := some u.outputTokens
          cacheReadTokens := some u.cacheReadTokens
          cacheWriteTokens := some u.cacheWriteTokens
          reasoningOutputTokens := u.reasoningOutputTokens
          captureStatus := if model = none then .missingModel else .captured }

/-- `writeDispatchUsage`. With `once`, a job that carries usage keeps it. -/
def writeDispatchUsage (rows : RequestRows) (jobId : Uuid) (raw : RawUsage)
    (once : Bool) : RequestRows :=
  rows.updateJob jobId fun job =>
    if once = true ∧ job.usage ≠ none then
      job
    else
      { job with usage := some (dispatchUsageColumns raw job.requestedModel) }

/-- Write the usage of a job, where both exist. -/
def writeUsageOf (rows : RequestRows) (jobId : Option Uuid) (usage : Option RawUsage)
    (once : Bool) : RequestRows :=
  match jobId, usage with
  | some id, some raw => writeDispatchUsage rows id raw once
  | _, _ => rows

/-! ## Closing -/

/-- `transition`. -/
def transition (env : Env) (rows : RequestRows) (state : DispatchState)
    (resultId : Option Uuid) : RequestRows :=
  rows.announce env state resultId

/-- `terminalizeAttempt`: only an attempt with an accepted stop, and without an
unresolved publication, gives its capacity back. -/
def terminalizeAttempt (env : Env) (rows : RequestRows) (x : ArtifactAttempt)
    (outcome : Outcome) : Except Failure RequestRows := do
  ensure (x.a.stoppedAt ≠ none ∧ ¬ rows.UnresolvedPublication) conflict
  let rows := rows.updateAttempt x.a.id fun row =>
    { row with
      state := outcome.attemptState
      revokedAt := row.revokedAt <|> some env.now }
  let rows := rows.updateJobOf x.c.jobId fun row =>
    { row with status := outcome.jobStatus, finishedAt := some env.now }
  let rows := rows.updateCandidate x.c.id fun row =>
    { row with state := .finished }
  return rows.releaseReservation env x.c.id

def insertResult (env : Env) (rows : RequestRows) (attemptId : Option Uuid)
    (result : DispatchResult) : Except Failure (RequestRows × Uuid) :=
  match rows.result? with
  | some old => do
      ensure (old.sha256 = .canonical result) idempotencyConflict
      return (rows, old.id)
  | none =>
      let resultId := env.uuid .result rows.results.length
      .ok
        ({ rows with
            results := rows.results ++
              [{ id := resultId
                 attemptId := attemptId
                 outcome := result.outcome
                 payload := result
                 sha256 := .canonical result }] },
          resultId)

/-- `ResultReceipt`, with the reason as a word of the source. -/
structure ResultReceipt where
  accepted : Bool
  resultId : Option Uuid
  reason : String
  result : Option DispatchResult
  deriving DecidableEq

def Outcome.text : Outcome → String
  | .succeeded => "succeeded"
  | .failed => "failed"
  | .cancelled => "cancelled"

/-- `projectManagedTaskStatus`, skipped for a cancellation: the task tables are
outside the model, but their lock may fail. -/
def projectManagedTaskStatus (env : Env) (input : DispatchInput)
    (outcome : Outcome) : Except Failure Unit :=
  if outcome = .cancelled then .ok () else lockHierarchyOf env input

/-- `finishResult`. -/
def finishResult
    (env : Env) (rows : RequestRows) (x : ArtifactAttempt) (result : DispatchResult)
    (submittedHash : ResultHash)
    (usage : Option RawUsage) : Except Failure (RequestRows × ResultReceipt) := do
  let inserted ← insertResult env rows (some x.a.id) result
  let rows := transition env inserted.1 result.outcome.dispatchState
    (some inserted.2)
  let rows ← terminalizeAttempt env rows x result.outcome
  let rows := writeUsageOf rows x.c.jobId usage false
  projectManagedTaskStatus env x.r.input result.outcome
  return (rows.insertEvent env (some x.a.id) (.service none)
      (.resultAccepted inserted.2 submittedHash),
    { accepted := true
      resultId := some inserted.2
      reason := result.outcome.text
      result := some result })

def stoppedCancellationResult : DispatchResult :=
  { outcome := .cancelled
    summary := "Cancelled execution has stopped"
    reportMarkdown :=
      "The bound supervisor confirmed termination after cancellation."
    checks := []
    code := none
    review := none }

/-- `finishStoppedCancellation`. `x.r` is the request as it was locked. -/
def finishStoppedCancellation (env : Env) (rows : RequestRows)
    (x : ArtifactAttempt) : Except Failure RequestRows :=
  if x.r.state ≠ .cancelRequested ∨ rows.UnresolvedPublication then
    .ok rows
  else if rows.result? ≠ none then
    .ok rows
  else do
    let finished ← finishResult env rows x stoppedCancellationResult
      (.canonical stoppedCancellationResult) none
    return finished.1

/-- `assertRetryAuthorization`: the id of the live retry authority. -/
def assertRetryAuthorization (rows : RequestRows) : Except Failure Uuid := do
  let r := rows.request
  let e ← require
    (rows.retryAuthorizations.find? fun authorization =>
      some authorization.eventId = r.retryAuthorizationEventId) conflict
  ensure
    (e.actor.isService = true ∧
      e.inputHash = r.inputHash ∧
      (e.generation = r.generation ∨ e.generation + 1 = r.generation) ∧
      (∀ consumption ∈ rows.retryConsumptions, consumption.1 ≠ e.eventId) ∧
      ¬ rows.UnresolvedPublication ∧
      ∀ a ∈ rows.attempts,
        a.state.Terminal ∧ a.stoppedAt ≠ none ∧ a.revokedAt ≠ none ∧
          rows.stopsOf a.id ≠ [])
    conflict
  return e.eventId

end Dispatch
end Scrum4Me
