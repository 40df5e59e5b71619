/-!
# The vocabulary of managed dispatch

States, actors, inputs, evidence and results, under the words of the source.
Identifiers of database rows are `Uuid`s, timestamps are milliseconds, and an
ISO date-time is represented by its instant. The SHA-256 digest of a canonical
document is represented by the document itself: two digests agree exactly when
the documents do.
-/

namespace Scrum4Me
namespace Dispatch

abbrev Uuid := Nat

/-- Milliseconds since the epoch. -/
abbrev Timestamp := Nat

/-! ## States -/

inductive DispatchState
  | waiting | reserved | claimed | running | uncertain | cancelRequested
  | succeeded | failed | cancelled
  deriving DecidableEq

inductive CandidateState
  | reserved | claimed | running | uncertain | cancelRequested
  | finished | retired
  deriving DecidableEq

inductive AttemptState
  | claimed | running | uncertain | cancelRequested
  | succeeded | failed | cancelled
  deriving DecidableEq

inductive JobStatus
  | queued | claimed | running | done | failed | cancelled
  deriving DecidableEq

inductive PublicationState
  | prepared | sent | unknown | confirmed | failed
  deriving DecidableEq

inductive Outcome
  | succeeded | failed | cancelled
  deriving DecidableEq

inductive Route
  | job | host
  deriving DecidableEq

/-- `outcome.toUpperCase()` as the state of a request. -/
def Outcome.dispatchState : Outcome → DispatchState
  | .succeeded => .succeeded
  | .failed => .failed
  | .cancelled => .cancelled

/-- `outcome.toUpperCase()` as the state of an attempt. -/
def Outcome.attemptState : Outcome → AttemptState
  | .succeeded => .succeeded
  | .failed => .failed
  | .cancelled => .cancelled

/-- `outcome === 'SUCCEEDED' ? 'DONE' : outcome`. -/
def Outcome.jobStatus : Outcome → JobStatus
  | .succeeded => .done
  | .failed => .failed
  | .cancelled => .cancelled

/-- A request that will never change again. -/
def DispatchState.Terminal (state : DispatchState) : Prop :=
  state = .succeeded ∨ state = .failed ∨ state = .cancelled

instance (state : DispatchState) : Decidable state.Terminal :=
  inferInstanceAs (Decidable (_ ∨ _ ∨ _))

def AttemptState.Terminal (state : AttemptState) : Prop :=
  state = .succeeded ∨ state = .failed ∨ state = .cancelled

instance (state : AttemptState) : Decidable state.Terminal :=
  inferInstanceAs (Decidable (_ ∨ _ ∨ _))

/-- `state NOT IN ('FINISHED','RETIRED')`. -/
def CandidateState.Open (state : CandidateState) : Prop :=
  state ≠ .finished ∧ state ≠ .retired

instance (state : CandidateState) : Decidable state.Open :=
  inferInstanceAs (Decidable (_ ∧ _))

/-- `state IN ('PREPARED','SENT','UNKNOWN')`. -/
def PublicationState.Unresolved (state : PublicationState) : Prop :=
  state = .prepared ∨ state = .sent ∨ state = .unknown

instance (state : PublicationState) : Decidable state.Unresolved :=
  inferInstanceAs (Decidable (_ ∨ _ ∨ _))

@[simp] theorem Outcome.terminal_dispatchState (outcome : Outcome) :
    outcome.dispatchState.Terminal := by
  cases outcome <;> decide

@[simp] theorem Outcome.terminal_attemptState (outcome : Outcome) :
    outcome.attemptState.Terminal := by
  cases outcome <;> decide

/-! ## Failures -/

inductive DispatchErrorCode
  | unauthenticated | forbidden | notFound | idempotencyConflict
  | stateConflict | invalidInput | tooLarge
  deriving DecidableEq

/-- What aborts a transaction: a `DispatchError`, or any other exception (a
schema that does not parse, a missing row that is dereferenced, a violated
key). -/
inductive Failure
  | dispatch (code : DispatchErrorCode)
  | other
  deriving DecidableEq

abbrev forbidden : Failure := .dispatch .forbidden
abbrev conflict : Failure := .dispatch .stateConflict
abbrev idempotencyConflict : Failure := .dispatch .idempotencyConflict
abbrev notFound : Failure := .dispatch .notFound
abbrev invalidInput : Failure := .dispatch .invalidInput
abbrev tooLarge : Failure := .dispatch .tooLarge

/-! ## Actors and inputs -/

inductive ActorSource
  | bearer | workers | web
  deriving DecidableEq

structure Actor where
  userId : String
  principalKey : String
  tokenId : Option String
  source : ActorSource
  deriving DecidableEq

inductive Operation
  | read | submit | cancel | claim | start | publish | recover | profile
  deriving DecidableEq

inductive DispatchAction
  | freeTask | review | taskImplementation
  deriving DecidableEq

inductive Access
  | read | repoWrite
  deriving DecidableEq

inductive PublishMode
  | artifact | branch | pullRequest
  deriving DecidableEq

inductive Runtime
  | codex | claude
  deriving DecidableEq

structure Repository where
  productId : String
  baseSha : String
  deriving DecidableEq

inductive DocumentSource
  | productDoc | git
  deriving DecidableEq

/-- A pinned document. Its digest is represented by the pinned text. -/
structure DocumentRef where
  key : String
  productId : String
  source : DocumentSource
  sha256 : String
  deriving DecidableEq

structure DispatchInput where
  productId : String
  action : DispatchAction
  taskId : Option String
  access : Access
  runtime : Option Runtime
  environmentKeys : List String
  repository : Option Repository
  reviewDocuments : List DocumentRef
  publish : PublishMode
  replyTo : String
  deriving DecidableEq

/-- The purpose of an idempotency key. The source joins principal, purpose and
action id with colons; an action id holds no colon, so the parts determine the
key. -/
inductive KeyPurpose
  | cancel | recovery | publicationResolution
  | register | slot | disableSlot | revokeProfile | profile
  deriving DecidableEq

structure OperationKey where
  principalKey : String
  purpose : KeyPurpose
  actionId : String
  deriving DecidableEq

/-- `/^[A-Za-z0-9_-]{1,128}$/`. -/
def keyValid (key : String) : Bool :=
  let characters := key.toList
  decide (1 ≤ characters.length ∧ characters.length ≤ 128) &&
    characters.all fun c => c.isAlphanum || c == '_' || c == '-'

/-! ## Credentials -/

/-- A secret as its holder presents it. The two derived kinds are keyed hashes
of exactly these fields, so they determine the secret. -/
inductive Credential
  | attempt (attemptId incarnationId : Uuid) (generation keyVersion : Nat)
  | session (incarnationId slotId : Uuid) (tokenId : String) (keyVersion : Nat)
  | text (value : String)
  deriving DecidableEq

/-- `credentialHash`: the stored digest of a secret. -/
structure CredentialHash where
  secret : Credential
  deriving DecidableEq

def credentialHash (credential : Credential) : CredentialHash := ⟨credential⟩

def credentialMatches (credential : Credential) (expectedHash : CredentialHash) : Bool :=
  credentialHash credential == expectedHash

/-- `AttemptProof`. -/
structure AttemptProof where
  requestId : Uuid
  candidateId : Uuid
  generation : Nat
  attemptId : Uuid
  incarnationId : Uuid
  credential : Credential
  deriving DecidableEq

/-! ## Scopes and evidence -/

structure RuntimeScope where
  scopeId : String
  bootId : String
  imageDigest : String
  profileSha256 : String
  deriving DecidableEq

/-- `sourceBindingSchema`: the claim an attempt was given. -/
structure SourceBinding where
  requestId : Uuid
  candidateId : Uuid
  generation : Nat
  attemptId : Uuid
  incarnationId : Uuid
  deriving DecidableEq

/-- `DispatchStartBinding`: a claim together with its runtime scope. -/
structure StartBinding extends SourceBinding where
  scope : RuntimeScope
  deriving DecidableEq

inductive EvidenceKind
  | containerStopped | operatorAttested | runtimeRebooted
  deriving DecidableEq

inductive Observer
  | broker (slotId : Uuid)
  | supervisor (slotId : Uuid)
  | text (value : String)
  deriving DecidableEq

inductive ContainerStatus
  | created | exited
  deriving DecidableEq

/-- The body of `RuntimeStopObservation`. -/
structure StopObservation where
  binding : StartBinding
  slotId : Uuid
  observer : Observer
  status : ContainerStatus
  runtimeBootId : String
  observedAt : Timestamp
  deriving DecidableEq

/-- `RecoveryAttestation`. -/
structure RecoveryAttestation where
  binding : StartBinding
  kind : EvidenceKind
  observedAt : Timestamp
  observer : String
  statement : String
  runtimeBootBefore : String
  runtimeBootAfter : String
  rebootedAt : Option Timestamp
  deriving DecidableEq

structure ClaimBoundStop where
  binding : SourceBinding
  slotId : Uuid
  observer : Observer
  observedAt : Timestamp
  reason : String
  deriving DecidableEq

inductive PullRequestFinding
  | notApplicable | noneFound
  deriving DecidableEq

/-- `PublicationResolution`. -/
structure PublicationResolution where
  operationId : Uuid
  observer : String
  statement : String
  observedAt : Timestamp
  remoteHead : Option String
  pullRequest : PullRequestFinding
  deriving DecidableEq

/-! ## Results and canonical documents -/

structure CodeReference where
  artifactId : Uuid
  baseSha : String
  headSha : String
  branchOf : Uuid
  deriving DecidableEq

/-- `DispatchResult`. `checks` and `review` are carried and compared, never
looked into here. -/
structure DispatchResult where
  outcome : Outcome
  summary : String
  reportMarkdown : String
  checks : List String
  code : Option CodeReference
  review : Option (List DocumentRef)
  deriving DecidableEq

/-- A staged code bundle. The branch `codex/queue-<id>` is represented by the
request it is named after. -/
structure CodeArtifact where
  branchOf : Uuid
  baseSha : String
  headSha : String
  repoUrl : String
  checks : List String
  deriving DecidableEq

/-- The bytes of an artifact, by what they encode. Parsing recovers the encoded
value. -/
inductive Document
  | stopObservation (body : StopObservation)
  | attestation (body : RecoveryAttestation)
  | claimBoundStop (body : ClaimBoundStop)
  | resolution (body : PublicationResolution)
  | code (body : CodeArtifact)
  | input (body : DispatchInput)
  | text (value : String)
  deriving DecidableEq

structure Sha256 where
  document : Document
  deriving DecidableEq

def artifactHash (document : Document) : Sha256 := ⟨document⟩

/-- The digest of a result, taken of its canonical form or, by
`rejectUnstartedInTransaction` alone, of its plain JSON. -/
inductive ResultHash
  | canonical (result : DispatchResult)
  | json (result : DispatchResult)
  deriving DecidableEq

/-- `StopEvidence`. -/
structure StopEvidence where
  kind : EvidenceKind
  artifactId : Uuid
  sha256 : Sha256
  attemptId : Uuid
  incarnationId : Uuid
  scopeId : String
  profileSha256 : String
  observedAt : Timestamp
  deriving DecidableEq

inductive RecoveryMode
  | closeFailed | closeCancelled | retrySameContract
  deriving DecidableEq

/-- What `cancelDispatch` digests: the request and the expected version. -/
structure CancelDigest where
  id : Uuid
  expectedVersion : Nat
  deriving DecidableEq

/-- What `recoverDispatch` digests. -/
structure RecoveryDigest where
  id : Uuid
  expectedVersion : Nat
  evidence : StopEvidence
  mode : RecoveryMode
  deriving DecidableEq

end Dispatch
end Scrum4Me
