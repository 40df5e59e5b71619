import Scrum4Me.Dispatch.Lifecycle
import Scrum4Me.Foundation.Execution

/-!
# The life of one request

An abstract machine for what dispatch is about: which candidate of a request
holds capacity, which attempt may execute, and how the request ends. `Life`
keeps of every table the columns this depends on; a `Change` is one lawful move,
with the condition under which it is allowed and the life it leads to. Clocks,
credentials, artifacts and authorization are gone.
-/

namespace Scrum4Me
namespace Dispatch

open Foundation

/-- A candidate, without its profile and deadline. -/
structure CandidateLife where
  id : Uuid
  generation : Nat
  route : Route
  state : CandidateState
  slotId : Uuid
  jobId : Option Uuid
  claimed : Bool
  deriving DecidableEq

structure ReservationLife where
  candidateId : Uuid
  slotId : Uuid
  isOpen : Bool
  deriving DecidableEq

/-- What a claim is answered by: the key an incarnation claimed under. -/
structure ClaimKey where
  incarnationId : Uuid
  key : String
  deriving DecidableEq

structure AttemptLife where
  id : Uuid
  candidateId : Uuid
  claim : ClaimKey
  state : AttemptState
  scopeId : Option String
  started : Bool
  stopped : Bool
  revoked : Bool
  deriving DecidableEq

/-- A job, with the task that it implements. -/
structure JobLife where
  id : Uuid
  status : JobStatus
  task : Option String
  deriving DecidableEq

structure PublicationLife where
  id : Uuid
  attemptId : Uuid
  headSha : String
  expectedRemoteHead : Option String
  state : PublicationState
  deriving DecidableEq

/-- What marks an accepted stop: the receipt it was answered with, and whether it
stands in for a scope that never existed. -/
structure StopMark where
  receiptId : Uuid
  unscoped : Bool
  deriving DecidableEq

/-- An accepted stop, with the attempt it names. -/
structure StopLife extends StopMark where
  attemptId : Option Uuid
  deriving DecidableEq

/-- What a request keeps from its submission on. -/
structure RequestIdentity where
  requestId : Uuid
  input : DispatchInput
  rootId : Uuid
  replyId : Uuid
  deriving DecidableEq

/-- The task that the jobs of the request implement. -/
def RequestIdentity.task (identity : RequestIdentity) : Option String :=
  if identity.input.action = .taskImplementation then identity.input.taskId
  else none

structure Life where
  identity : RequestIdentity
  state : DispatchState
  version : Nat
  generation : Nat
  claimed : Bool
  authority : Option Uuid
  resultId : Option Uuid
  /-- The newest reason to wait. -/
  waitingReason : Option String
  candidates : List CandidateLife
  reservations : List ReservationLife
  attempts : List AttemptLife
  jobs : List JobLife
  /-- The `started_scope` events. -/
  scopes : List (Uuid × RuntimeScope)
  /-- The `stop_accepted` events. -/
  stops : List StopLife
  /-- The cancellations taken, by the key they answer to. -/
  cancellations : List (OperationKey × CancelDigest)
  authorizations : List Uuid
  consumptions : List (Uuid × Uuid)
  results : List ResultRow
  /-- The accepted results: whose they are, and the digest of what was
  submitted. -/
  acceptances : List (Option Uuid × ResultHash)
  publications : List PublicationLife
  /-- The payloads of the outbox. -/
  announcements : List DispatchProjection
  /-- The versions that the outbox rows are for. -/
  announcedVersions : List Nat
  deriving DecidableEq

namespace Life

/-- What a request shows of itself. -/
def shown (life : Life) : DispatchProjection :=
  { requestId := life.identity.requestId
    version := life.version
    state := life.state
    input := life.identity.input
    rootId := life.identity.rootId
    replyId := life.identity.replyId
    route :=
      (life.candidates.find? fun candidate =>
        candidate.generation = life.generation).map CandidateLife.route
    reason :=
      if life.state = .waiting then
        life.waitingReason.getD "waiting_for_capacity"
      else
        life.state.text
    result :=
      (life.results.find? fun result => some result.id = life.resultId).map
        ResultRow.payload }

/-! ## Elementary updates -/

/-- Move to a state under the next version, without announcing it. -/
def moved (state : DispatchState) (resultId : Option Uuid) (life : Life) :
    Life :=
  { life with
    state := state
    resultId := resultId <|> life.resultId
    version := life.version + 1 }

def announced (state : DispatchState) (resultId : Option Uuid) (life : Life) :
    Life :=
  { life.moved state resultId with
    announcements :=
      life.announcements ++ [(life.moved state resultId).shown]
    announcedVersions := life.announcedVersions ++ [life.version + 1] }

def setCandidate
    (id : Uuid) (change : CandidateLife → CandidateLife) (life : Life) : Life :=
  { life with
    candidates := updateWhere (fun row => row.id = id) change life.candidates }

def setAttempt
    (id : Uuid) (change : AttemptLife → AttemptLife) (life : Life) : Life :=
  { life with
    attempts := updateWhere (fun row => row.id = id) change life.attempts }

def setJob (id : Option Uuid) (status : JobStatus) (life : Life) : Life :=
  { life with
    jobs :=
      updateWhere (fun row => some row.id = id)
        (fun row => { row with status := status }) life.jobs }

def setReservation (candidateId : Uuid) (change : ReservationLife → ReservationLife)
    (life : Life) : Life :=
  { life with
    reservations :=
      updateWhere (fun row => row.candidateId = candidateId ∧ row.isOpen = true)
        change life.reservations }

def release (candidateId : Uuid) (life : Life) : Life :=
  life.setReservation candidateId fun row => { row with isOpen := false }

def setPublication
    (id : Uuid) (change : PublicationLife → PublicationLife) (life : Life) :
    Life :=
  { life with
    publications :=
      updateWhere (fun row => row.id = id) change life.publications }

/-- A publication is not settled yet. -/
def Unresolved (life : Life) : Prop :=
  ∃ publication ∈ life.publications, publication.state.Unresolved

instance (life : Life) : Decidable life.Unresolved :=
  inferInstanceAs (Decidable (∃ publication ∈ life.publications, _))

/-- A stop of the attempt was accepted. -/
def StopOf (life : Life) (attemptId : Uuid) : Prop :=
  some attemptId ∈ life.stops.map StopLife.attemptId

/-- The retry authority is live: granted, not yet consumed, and everything that
ran before it has provably ended. -/
def RetryAuthorized (life : Life) : Prop :=
  ∃ authorization ∈ life.authority,
    authorization ∈ life.authorizations ∧
      (∀ consumption ∈ life.consumptions, consumption.1 ≠ authorization) ∧
      ¬ life.Unresolved ∧
      ∀ attempt ∈ life.attempts,
        attempt.state.Terminal ∧ attempt.stopped = true ∧
          attempt.revoked = true ∧ life.StopOf attempt.id

/-- The head that the newest publication left on the remote. -/
def confirmedHead (life : Life) : Option String :=
  life.publications.getLast?.bind fun newest =>
    if newest.state = .confirmed then some newest.headSha else none

end Life

/-! ## Changes -/

/-- The execution that a change is about: an attempt with its candidate and
job. -/
structure Execution where
  candidate : CandidateLife
  attempt : AttemptLife
  deriving DecidableEq

/-- An execution that belongs to the request. -/
structure Execution.In (x : Execution) (life : Life) : Prop where
  attempt : x.attempt ∈ life.attempts
  candidate : x.candidate ∈ life.candidates
  linked : x.attempt.candidateId = x.candidate.id

/-- One lawful move in the life of a request. -/
inductive Change
  | reserve (candidateId slotId : Uuid) (route : Route) (jobId : Option Uuid)
  | retire (candidate : CandidateLife)
  | abandon (candidate : Option CandidateLife) (result : ResultRow)
  | claim (candidate : CandidateLife) (slotId attemptId : Uuid) (key : ClaimKey)
  | start (x : Execution) (scope : RuntimeScope)
  | resume (x : Execution)
  | lapse (x : Execution)
  | requestStop (x : Execution)
  | stop (x : Execution) (mark : StopMark)
  | finish (x : Execution) (result : ResultRow) (submitted : ResultHash)
  | recover (x : Execution) (result : ResultRow) (submitted : ResultHash)
  | retry (x : Execution) (authorizationId : Uuid)
  | recordCancel (key : OperationKey) (digest : CancelDigest)
  | preparePublication (x : Execution) (id : Uuid) (headSha : String)
  | sendPublication (id : Uuid)
  | settlePublication (id : Uuid) (state : PublicationState)
  | explain (reason : Option String)

namespace Change

open Life

/-- Close the candidate, its job and its reservation without an attempt. -/
def retireCandidate (candidate : CandidateLife) (life : Life) : Life :=
  ((life.setJob candidate.jobId .cancelled).setCandidate candidate.id
    fun row => { row with state := .retired }).release candidate.id

/-- Close an execution with an outcome. -/
def closeExecution (x : Execution) (outcome : Outcome) (life : Life) : Life :=
  (((life.setAttempt x.attempt.id fun row =>
    { row with state := outcome.attemptState, revoked := true }).setJob
      x.candidate.jobId outcome.jobStatus).setCandidate x.candidate.id
        fun row => { row with state := .finished }).release x.candidate.id

/-- Move an execution and its request to a common state. -/
def moveExecution
    (x : Execution) (attempt : AttemptLife → AttemptLife) (candidate : CandidateState)
    (state : DispatchState)
    (life : Life) : Life :=
  ((life.setAttempt x.attempt.id attempt).setCandidate x.candidate.id
    fun row => { row with state := candidate }).announced state none

def insertResult (result : ResultRow) (life : Life) : Life :=
  { life with results := life.results ++ [result] }

/-- Write the canonical result of an execution, and close it. -/
def conclude (x : Execution) (result : ResultRow) (submitted : ResultHash)
    (life : Life) : Life :=
  { closeExecution x result.outcome
      ((insertResult result life).announced result.outcome.dispatchState
        (some result.id)) with
    acceptances := life.acceptances ++ [(some x.attempt.id, submitted)] }

def consume (attemptId : Uuid) (life : Life) : Life :=
  { life with
    authority := none
    consumptions := life.consumptions ++
      life.authority.toList.map fun authorization =>
        (authorization, attemptId) }

/-- The life after a change. -/
def apply : Change → Life → Life
  | reserve candidateId slotId route jobId, life =>
      ({ life with
          generation := life.generation + 1
          candidates := life.candidates ++
            [{ id := candidateId
               generation := life.generation + 1
               route := route
               state := .reserved
               slotId := slotId
               jobId := jobId
               claimed := false }]
          reservations := life.reservations ++
            [{ candidateId := candidateId, slotId := slotId, isOpen := true }]
          jobs := life.jobs ++ jobId.toList.map fun id =>
            { id := id
              status := .queued
              task := life.identity.task } } : Life).announced .reserved none
  | retire candidate, life =>
      (retireCandidate candidate life).announced .waiting none
  | abandon candidate result, life =>
      (insertResult result
        (candidate.elim life fun row => retireCandidate row life)).announced
          result.outcome.dispatchState (some result.id)
  | claim candidate slotId attemptId key, life =>
      let moved := ((life.setReservation candidate.id fun row =>
        { row with slotId := slotId }).setCandidate candidate.id fun row =>
          { row with
            state := .claimed
            slotId := slotId
            claimed := true }).setJob candidate.jobId .claimed
      (consume attemptId
        { moved with
          claimed := true
          attempts := moved.attempts ++
            [{ id := attemptId
               candidateId := candidate.id
               claim := key
               state := .claimed
               scopeId := none
               started := false
               stopped := false
               revoked := false }] }).announced .claimed none
  | start x scope, life =>
      let moved := ((life.setAttempt x.attempt.id fun row =>
        { row with
          state := .running
          scopeId := some scope.scopeId
          started := true }).setCandidate x.candidate.id fun row =>
            { row with state := .running }).setJob x.candidate.jobId .running
      ({ moved with
          scopes := moved.scopes ++ [(x.attempt.id, scope)] } : Life).announced
        .running none
  | resume x, life =>
      moveExecution x (fun row => { row with state := .running }) .running
        .running life
  | lapse x, life =>
      moveExecution x (fun row => { row with state := .uncertain }) .uncertain
        .uncertain life
  | requestStop x, life =>
      moveExecution x
        (fun row => { row with state := .cancelRequested, revoked := true })
        .cancelRequested .cancelRequested life
  | stop x mark, life =>
      ({ life with
          stops := life.stops ++
            [{ mark with attemptId := some x.attempt.id }] }
        : Life).setAttempt x.attempt.id fun row =>
          { row with stopped := true, revoked := true }
  | finish x result submitted, life => conclude x result submitted life
  | recover x result submitted, life => conclude x result submitted life
  | retry x authorizationId, life =>
      ({ closeExecution x .failed life with
          authority := some authorizationId
          authorizations := life.authorizations ++ [authorizationId] }
        : Life).announced .waiting none
  | recordCancel key digest, life =>
      { life with cancellations := life.cancellations ++ [(key, digest)] }
  | preparePublication x id headSha, life =>
      { life with
        publications := life.publications ++
          [{ id := id
             attemptId := x.attempt.id
             headSha := headSha
             expectedRemoteHead := life.confirmedHead
             state := .prepared }] }
  | sendPublication id, life =>
      life.setPublication id fun row =>
        if row.state = .prepared then { row with state := .sent } else row
  | settlePublication id state, life =>
      life.setPublication id fun row =>
        if row.state.Unresolved then { row with state := state } else row
  | explain reason, life => { life with waitingReason := reason }

/-- The condition under which a change may happen. `free` says which slots have
no open reservation. -/
def Allowed (free : Uuid → Prop) (life : Life) : Change → Prop
  | reserve candidateId slotId _ jobId =>
      life.state = .waiting ∧ (life.claimed = true → life.RetryAuthorized) ∧
        candidateId ∉ life.candidates.map CandidateLife.id ∧
        (∀ id ∈ jobId, id ∉ life.jobs.map JobLife.id) ∧ free slotId
  | retire candidate =>
      candidate ∈ life.candidates ∧ life.state = .reserved ∧
        life.claimed = false ∧ candidate.generation = life.generation ∧
        candidate.state = .reserved ∧ candidate.claimed = false
  | abandon candidate result =>
      ¬ life.state.Terminal ∧ (life.claimed = true → life.RetryAuthorized) ∧
        life.results = [] ∧ result.attemptId = none ∧
        result.outcome ≠ .succeeded ∧
        match candidate with
        | none =>
            ∀ row ∈ life.candidates, row.generation = life.generation →
              ¬ row.state.Open
        | some row =>
            row ∈ life.candidates ∧ row.generation = life.generation ∧
              row.state.Open ∧ row.claimed = false
  | claim candidate slotId attemptId _ =>
      candidate ∈ life.candidates ∧ life.state = .reserved ∧
        candidate.generation = life.generation ∧
        candidate.state = .reserved ∧ candidate.claimed = false ∧
        (life.claimed = true → life.RetryAuthorized) ∧
        attemptId ∉ life.attempts.map AttemptLife.id ∧
        (slotId = candidate.slotId ∨ free slotId)
  | start x _ =>
      x.In life ∧ x.candidate.generation = life.generation ∧
        x.attempt.state = .claimed ∧ x.attempt.revoked = false ∧
        (life.state = .claimed ∨ life.state = .running)
  | resume x =>
      x.In life ∧ x.candidate.generation = life.generation ∧
        x.attempt.state = .uncertain ∧ x.attempt.revoked = false ∧
        x.attempt.started = true ∧ life.state = .uncertain
  | lapse x =>
      x.In life ∧ x.candidate.generation = life.generation ∧
        (x.attempt.state = .claimed ∨ x.attempt.state = .running) ∧
        (life.state = .claimed ∨ life.state = .running ∨
          life.state = .uncertain) ∧
        (x.attempt.revoked = true → x.attempt.stopped = true →
          ¬ life.StopOf x.attempt.id)
  | requestStop x =>
      x.In life ∧ x.candidate.generation = life.generation ∧
        ¬ life.state.Terminal ∧ life.state ≠ .cancelRequested ∧
        (x.candidate.state.Open ∨ ¬ x.attempt.state.Terminal)
  | stop x mark =>
      x.In life ∧ ¬ life.StopOf x.attempt.id ∧
        (mark.unscoped = true → x.attempt.started = false)
  | finish x result _ =>
      x.In life ∧ x.attempt.stopped = true ∧ ¬ life.Unresolved ∧
        life.results = [] ∧ result.attemptId = some x.attempt.id ∧
        ¬ life.state.Terminal ∧ life.state ≠ .waiting ∧
        (result.outcome = .succeeded →
          life.state = .claimed ∨ life.state = .running) ∧
        (life.state = .cancelRequested → result.outcome = .cancelled) ∧
        (x.candidate.generation = life.generation ∨
          life.state = .cancelRequested)
  | recover x result _ =>
      x.In life ∧ x.candidate.generation = life.generation ∧
        x.attempt.stopped = true ∧ ¬ life.Unresolved ∧ life.results = [] ∧
        result.attemptId = some x.attempt.id ∧
        (life.state = .uncertain ∨ life.state = .cancelRequested) ∧
        result.outcome ≠ .succeeded
  | retry x authorizationId =>
      x.In life ∧ x.candidate.generation = life.generation ∧
        x.attempt.stopped = true ∧ ¬ life.Unresolved ∧
        life.state = .uncertain ∧ authorizationId ∉ life.authorizations
  | recordCancel _ _ => life.state = .cancelRequested ∨ life.state.Terminal
  | preparePublication x id _ =>
      x.In life ∧ x.candidate.generation = life.generation ∧
        x.attempt.stopped = true ∧ life.state = .running ∧
        id ∉ life.publications.map PublicationLife.id ∧
        ∀ newest ∈ life.publications.getLast?, ¬ newest.state.Unresolved
  | sendPublication _ => life.state = .running
  | settlePublication _ state => state ≠ .prepared ∧ state ≠ .sent
  | explain _ => life.state = .waiting

/-- A finish by an attempt of an earlier generation than the request's. -/
def Stale (life : Life) : Change → Prop
  | finish x _ _ => x.candidate.generation ≠ life.generation
  | _ => False

end Change

/-! ## Paths -/

/-- The life after several changes. -/
def Life.applyAll (life : Life) (changes : List Change) : Life :=
  run (fun earlier change => change.apply earlier) life changes

/-- Each change is allowed where it happens. -/
def Life.Path (free : Uuid → Prop) (life : Life) (changes : List Change) :
    Prop :=
  EveryStep (fun earlier change => Change.apply change earlier)
    (fun earlier change => change.Allowed free earlier) life changes

/-- No change is a stale finish where it happens. -/
def Life.Fresh (life : Life) (changes : List Change) : Prop :=
  EveryStep (fun earlier change => Change.apply change earlier)
    (fun earlier change => ¬ change.Stale earlier) life changes

@[simp] theorem Life.applyAll_nil (life : Life) : life.applyAll [] = life := rfl

@[simp] theorem Life.applyAll_cons (life : Life) (change : Change) (rest : List Change) :
    life.applyAll (change :: rest) = (change.apply life).applyAll rest := rfl

theorem Life.applyAll_append (life : Life) (first second : List Change) :
    life.applyAll (first ++ second) = (life.applyAll first).applyAll second :=
  run_append life first second

@[simp] theorem Life.path_nil (free : Uuid → Prop) (life : Life) :
    life.Path free [] := trivial

@[simp] theorem Life.path_cons (free : Uuid → Prop) (life : Life) (change : Change)
    (rest : List Change) :
    life.Path free (change :: rest) ↔
      change.Allowed free life ∧ (change.apply life).Path free rest := Iff.rfl

theorem Life.path_append (free : Uuid → Prop) (life : Life) (first second : List Change) :
    life.Path free (first ++ second) ↔
      life.Path free first ∧ (life.applyAll first).Path free second :=
  everyStep_append _ _ _ _

@[simp] theorem Life.fresh_nil (life : Life) : life.Fresh [] := trivial

@[simp] theorem Life.fresh_cons (life : Life) (change : Change) (rest : List Change) :
    life.Fresh (change :: rest) ↔ ¬ change.Stale life ∧ (change.apply life).Fresh rest := Iff.rfl

theorem Life.fresh_append (life : Life) (first second : List Change) :
    life.Fresh (first ++ second) ↔ life.Fresh first ∧ (life.applyAll first).Fresh second :=
  everyStep_append _ _ _ _

end Dispatch
end Scrum4Me
