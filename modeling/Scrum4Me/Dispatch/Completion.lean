import Scrum4Me.Dispatch.Recovery

/-!
# Accepting a result

`accept` runs in up to three transactions: `acceptPrepare` checks a submission,
`recordVerification` records what was verified outside any transaction, and
`acceptFinish` writes the canonical result. Each of them rechecks the attempt
under its locks; between them the request may be cancelled or closed.
-/

namespace Scrum4Me
namespace Dispatch

open Foundation

/-- `{proof} | {binding}`: how the submitter proves its attempt. -/
inductive Authority
  | proof (proof : AttemptProof)
  | binding (binding : StartBinding)
  deriving DecidableEq

def Authority.attemptId : Authority → Uuid
  | .proof attemptProof => attemptProof.attemptId
  | .binding startBinding => startBinding.attemptId

/-- `verify` of `accept` and `publishUnlocked`. -/
def Authority.verify (authority : Authority) (rows : RequestRows) (actor : Actor)
    (x : ArtifactAttempt) : Except Failure Unit :=
  match authority with
  | .proof attemptProof => verifyArtifactProof actor attemptProof x
  | .binding startBinding => validateHistoricalBinding rows x startBinding

/-- Lock the attempt of a submission and authenticate its supervisor. -/
def lockAuthorized (env : Env) (registry : Registry) (rows : RequestRows) (actor : Actor)
    (authority : Authority) : Except Failure ArtifactAttempt := do
  let x ← lockArtifactAttempt env registry rows authority.attemptId
  authority.verify rows actor x
  authenticateHistoricalSupervisor env actor x
  return x

/-- A submission: its value, its digest and its usage. -/
structure Submission where
  result : DispatchResult
  usage : Option RawUsage
  deriving DecidableEq

def Submission.hash (submission : Submission) : ResultHash :=
  .canonical submission.result

/-- The `submitted_hash` of the attempt's `result_accepted` event. -/
def RequestRows.acceptedHash? (rows : RequestRows) (attemptId : Uuid) : Option ResultHash :=
  rows.events.findSome? fun event =>
    match event.body with
    | .resultAccepted _ submittedHash =>
        if event.attemptId = some attemptId then some submittedHash else none
    | _ => none

/-- `terminal`: a request that already has its canonical result. -/
def terminal (env : Env) (rows : RequestRows) (x : ArtifactAttempt) (submission : Submission)
    (old : ResultRow) : RequestRows × ResultReceipt :=
  if rows.acceptedHash? x.a.id = some submission.hash then
    (rows,
      { accepted := true
        resultId := some old.id
        reason := "replayed"
        result := some old.payload })
  else
    let rows := rows.insertEvent env (some x.a.id) (.service none)
      (.lateResult submission.hash submission.result)
    let rows :=
      if old.attemptId = some x.a.id then
        writeUsageOf rows x.c.jobId submission.usage true
      else
        rows
    (rows,
      { accepted := false
        resultId := some old.id
        reason := "terminal_result"
        result := some old.payload })

/-- What the first transaction hands on: the result so far, and whether a code
artifact is left to verify. -/
structure PreparedResult where
  result : DispatchResult
  code : Option CodeArtifact
  deriving DecidableEq

/-- The outcome of the first transaction of `accept`. -/
inductive Preparation
  | receipt (receipt : ResultReceipt)
  | prepared (prepared : PreparedResult)
  deriving DecidableEq

/-- Every prepared source is still what its event recorded. -/
def sourcesIntact (env : Env) (rows : RequestRows) : Bool :=
  match rows.events.filterMap fun event =>
      match event.body with
      | .sourcesPrepared sources => some sources
      | _ => none with
  | [sources] =>
      sources.all fun source =>
        match rows.artifacts.find? fun a =>
            a.id = source.artifactId ∧ a.attemptId = none with
        | none => false
        | some a =>
            decide (a.key = source.key ∧ a.sha256 = source.sha256 ∧
              a.byteSize = source.byteSize ∧
              a.byteSize = env.byteLength a.bytes ∧
              artifactHash a.bytes = source.sha256)
  | _ => false

/-- `assertReviewSourceReceipts`: every pinned document was delivered. -/
def reviewSourcesDelivered (rows : RequestRows) (x : ArtifactAttempt)
    (documents : List DocumentRef) : Bool :=
  decide (x.r.input.reviewDocuments ≠ [] ∧
      x.r.input.reviewDocuments = documents) &&
    x.r.input.reviewDocuments.all fun ref =>
      rows.events.any fun event =>
        match event.body with
        | .sourceDelivered attemptId key artifactId sha256 =>
            decide (attemptId = x.a.id ∧ key = ref.key ∧
              sha256 = artifactHash (.text ref.sha256)) &&
              rows.artifacts.any fun a =>
                decide (a.id = artifactId ∧ a.attemptId = none ∧
                  a.key = ref.key ∧ a.sha256 = sha256)
        | _ => false

/-- The reason why a submitted success cannot stand, if there is one; a later
reason replaces an earlier one. -/
def submissionFailure (env : Env) (rows : RequestRows) (x : ArtifactAttempt)
    (result : DispatchResult) : Option String :=
  let input := x.r.input
  let failure := if x.p.revokedAt ≠ none then some "profile_revoked" else none
  let failure :=
    match env.authorizeDispatch (requestActor x.r) input .publish with
    | .ok _ => failure
    | .error _ => some "authorization_unavailable"
  let failure :=
    if input.action ≠ .review ∧ input.reviewDocuments ≠ [] ∧
        reviewSourcesDelivered rows x input.reviewDocuments = false then
      some "sources_unverified"
    else
      failure
  if input.action = .review then
    match result.review with
    | some documents =>
        if reviewSourcesDelivered rows x documents = true then
          failure
        else
          some "review_sources_unverified"
    | none => some "review_sources_unverified"
  else
    failure

/-- The code artifact that a result names, checked against its request. -/
def submittedCode (env : Env) (rows : RequestRows) (x : ArtifactAttempt)
    (code : CodeReference) : Except Failure CodeArtifact := do
  let a ← require (rows.artifacts.find? fun a =>
      a.id = code.artifactId ∧ a.attemptId = some x.a.id) invalidInput
  let source ← require (rows.artifacts.find? fun a =>
      a.attemptId = none ∧ a.key = repositorySourceKey) invalidInput
  let repo ← require x.r.input.repository invalidInput
  let url ← require (env.repoUrl repo.productId) invalidInput
  ensure (artifactHash a.bytes = a.sha256 ∧
      artifactHash source.bytes = source.sha256 ∧
      code.baseSha = repo.baseSha ∧ code.branchOf = x.r.id)
    invalidInput
  return { branchOf := code.branchOf
           baseSha := code.baseSha
           headSha := code.headSha
           repoUrl := url
           checks := [] }

/-- A result with the code that it names. -/
def checkedCode (env : Env) (rows : RequestRows) (x : ArtifactAttempt)
    (result : DispatchResult) : Except Failure (Option CodeArtifact) :=
  match result.code with
  | none => .ok none
  | some code => do
      let artifact ← submittedCode env rows x code
      return some { artifact with checks := result.checks }

def DispatchResult.failedAs (result : DispatchResult) (summary : String) :
    DispatchResult :=
  { result with outcome := .failed, summary := summary, review := none }

/-- The result that the first transaction hands on. -/
def preparedResult (env : Env) (rows : RequestRows) (x : ArtifactAttempt)
    (original : DispatchResult) : Except Failure PreparedResult := do
  let result :=
    if x.r.state = .cancelRequested then
      { original with outcome := .cancelled }
    else
      original
  ensure (x.r.state ≠ .uncertain) conflict
  ensure (result.outcome = .succeeded → x.r.input.action ≠ .review →
      result.review = none)
    invalidInput
  let failure :=
    if result.outcome = .succeeded then
      submissionFailure env rows x result
    else
      none
  let code ← checkedCode env rows x result
  let failure :=
    if result.code = none ∧ result.outcome = .succeeded ∧ (x.r.input.action = .taskImplementation ∨
          x.r.input.access = .repoWrite) then
      some "code_artifact_required"
    else
      failure
  return { result :=
             match failure with
             | some summary => result.failedAs summary
             | none => result
           code := code }

/-- The first transaction of `accept`. -/
def acceptPrepare (env : Env) (registry : Registry) (rows : RequestRows) (actor : Actor)
    (authority : Authority) (submission : Submission) :
    Except Failure (RequestRows × Preparation) := do
  let x ← lockAuthorized env registry rows actor authority
  match rows.result? with
  | some old =>
      let answer := terminal env rows x submission old
      return (answer.1, .receipt answer.2)
  | none =>
      ensure (x.c.generation = x.r.generation ∧ x.a.stoppedAt ≠ none ∧
          rows.stopsOf x.a.id ≠ [] ∧
          artifactHash (.input x.r.input) = x.r.inputHash ∧
          x.p.sha256 = x.scope.profileSha256 ∧
          x.p.config.imageDigest = x.scope.imageDigest ∧
          sourcesIntact env rows = true)
        conflict
      ensure (x.a.scopeId = none → submission.result.outcome ≠ .succeeded) conflict
      let prepared ← preparedResult env rows x submission.result
      return (rows, .prepared prepared)

/-- The second transaction of `accept`, after a task was verified. -/
def recordVerification (env : Env) (registry : Registry) (rows : RequestRows) (actor : Actor)
    (authority : Authority) (artifactId : Uuid)
    (allowed : Bool) : Except Failure RequestRows := do
  let x ← lockAuthorized env registry rows actor authority
  return rows.insertEvent env (some x.a.id) (.service none) (.taskVerified artifactId allowed)

/-- The rights of a success are checked once more at the finish. -/
def finishRefused (env : Env) (x : ArtifactAttempt) : Bool :=
  match env.authorizeDispatch (requestActor x.r) x.r.input .publish with
  | .ok _ => decide (x.p.revokedAt ≠ none)
  | .error _ => true

/-- The last transaction of `accept`, for the result that verification and
publication arrived at. -/
def acceptFinish (env : Env) (registry : Registry) (rows : RequestRows) (actor : Actor)
    (authority : Authority) (submission : Submission) (result : DispatchResult) :
    Except Failure (RequestRows × ResultReceipt) := do
  let x ← lockAuthorized env registry rows actor authority
  match rows.result? with
  | some old => return terminal env rows x submission old
  | none =>
      ensure (x.r.generation = x.c.generation ∧ ¬ rows.UnresolvedPublication)
        conflict
      if x.r.state = .cancelRequested then
        let rows := rows.insertEvent env (some x.a.id) (.service none)
          (.lateResult submission.hash submission.result)
        finishResult env rows x { result with outcome := .cancelled }
          submission.hash submission.usage
      else
        ensure (x.r.state = .claimed ∨ x.r.state = .running) conflict
        let result :=
          if result.outcome = .succeeded ∧ finishRefused env x = true then
            result.failedAs "authorization_unavailable"
          else
            result
        finishResult env rows x result submission.hash submission.usage

end Dispatch
end Scrum4Me
