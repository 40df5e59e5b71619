import Scrum4Me.Lifecycle.Queries
import Scrum4Me.Refinement.Runs

/-!
# Consistency of the whole machine

In which states the request, candidate, attempt, reservation and job rows of a
request can be together. One slip breaks it: the stop of an attempt of an
earlier generation, resent while the request waits to be cancelled, cancels the
request under the feet of its current attempt.
-/

namespace Scrum4Me
namespace Dispatch

open Foundation

namespace RequestRows

variable (rows : RequestRows)

/-- The candidates outside of `RETIRED` and `FINISHED`. -/
def openCandidates : List CandidateRow :=
  rows.candidates.filter fun c => c.state.Open

def liveAttempts : List AttemptRow :=
  rows.attempts.filter fun a => ¬ a.state.Terminal

def attemptsOf (candidateId : Uuid) : List AttemptRow :=
  rows.attempts.filter fun a => a.candidateId = candidateId

def reservationsOf (candidateId : Uuid) : List ReservationRow :=
  rows.reservations.filter fun r => r.candidateId = candidateId

/-- The rows of a request agree on what it is doing. -/
structure Coherent : Prop where
  idle : rows.request.state = .waiting ∨ rows.request.state.Terminal →
    rows.openCandidates = [] ∧ rows.liveAttempts = []
  reserved : rows.request.state = .reserved →
    rows.liveAttempts = [] ∧
      ∃ c, rows.openCandidates = [c] ∧ c.state = .reserved ∧
        c.generation = rows.request.generation ∧ rows.attemptsOf c.id = []
  executing : ∀ s : ExecutionState, rows.request.state = s.dispatchState →
    ∃ c a, rows.openCandidates = [c] ∧ rows.liveAttempts = [a] ∧
      rows.attemptsOf c.id = [a] ∧
      c.generation = rows.request.generation ∧
      c.state = s.candidateState ∧ a.state = s.attemptState
  reservations : ∀ c ∈ rows.candidates, ∃ r, rows.reservationsOf c.id = [r] ∧
    r.slotId = c.reservedSlotId ∧ (r.releasedAt = none ↔ c.state.Open)
  jobs : ∀ c ∈ rows.candidates, ∀ j ∈ rows.jobs, c.jobId = some j.id →
    (c.state = .reserved → j.status = .queued) ∧
      (c.state = .retired → j.status = .cancelled) ∧
      ∀ a ∈ rows.attemptsOf c.id,
        (¬ a.state.Terminal →
          j.status = if a.startedAt = none then .claimed else .running) ∧
        ∀ outcome : Outcome, a.state = outcome.attemptState →
          j.status = outcome.jobStatus

/-! ## Queries and their lives -/

theorem openCandidates_life :
    rows.openCandidates.map CandidateRow.life =
      (lifeOf rows).candidates.filter fun c => c.state.Open := by
  simp only [openCandidates, lifeOf, List.filter_map]
  rfl

theorem liveAttempts_life :
    rows.liveAttempts.map AttemptRow.life =
      (lifeOf rows).attempts.filter fun a => ¬ a.state.Terminal := by
  simp only [liveAttempts, lifeOf, List.filter_map]
  rfl

theorem attemptsOf_life (candidateId : Uuid) :
    (rows.attemptsOf candidateId).map AttemptRow.life =
      (lifeOf rows).attempts.filter fun a => a.candidateId = candidateId := by
  simp only [attemptsOf, lifeOf, List.filter_map]
  rfl

theorem reservationsOf_life (candidateId : Uuid) :
    (rows.reservationsOf candidateId).map ReservationRow.life =
      (lifeOf rows).reservations.filter fun r =>
        r.candidateId = candidateId := by
  simp only [reservationsOf, lifeOf, List.filter_map]
  rfl

end RequestRows

section Coherent

variable {rows : RequestRows} {past : List Episode} {current : Option Episode} {e : Episode}

theorem Outcome.attemptState_injective {first second : Outcome}
    (same : first.attemptState = second.attemptState) : first = second := by
  cases first <;> cases second <;> first | rfl | cases same

variable {life : Life}

/-- An idle request has no open episode. -/
theorem Life.SettledWith.idle (history : life.History past current)
    (settled : life.SettledWith past current) (idle : life.state = .waiting ∨ life.state.Terminal) :
    current = none := by
  rcases idle with waiting | terminal
  · cases current with
    | none => rfl
    | some e =>
      rcases history.agrees with ⟨-, state⟩ | ⟨s, -, state | ⟨state, -⟩⟩
      · rw [waiting] at state
        cases state
      · rw [waiting] at state
        cases s <;> cases state
      · rw [waiting] at state
        cases state
  · exact settled.closed terminal

/-- A request in execution has its episode in that state. -/
theorem Life.History.executing (history : life.History past current) (s : ExecutionState)
    (state : life.state = s.dispatchState) :
    ∃ e, current = some e ∧ e.Executing s := by
  cases current with
  | none =>
    rcases history.agrees with waiting | terminal
    · rw [waiting] at state
      cases s <;> cases state
    · rw [state] at terminal
      cases s <;> exact absurd terminal (by decide)
  | some e =>
    rcases history.agrees with ⟨-, reserved⟩ | ⟨s', executing, own | ⟨own, -⟩⟩
    · rw [reserved] at state
      cases s <;> cases state
    · refine ⟨e, rfl, ?_⟩
      rw [state] at own
      cases s <;> cases s' <;> first | exact executing | cases own
    · rw [own] at state
      cases s <;> cases state

theorem Life.History.reserved
    (history : life.History past current) (state : life.state = .reserved) :
    ∃ e, current = some e ∧ e.Unclaimed := by
  cases current with
  | none =>
    rcases history.agrees with waiting | terminal
    · rw [waiting] at state
      cases state
    · rw [state] at terminal
      exact absurd terminal (by decide)
  | some e =>
    rcases history.agrees with ⟨unclaimed, -⟩ | ⟨s, -, own | ⟨own, -⟩⟩
    · exact ⟨e, rfl, unclaimed⟩
    · rw [own] at state
      cases s <;> cases state
    · rw [own] at state
      cases state

/-- What an episode says about its reservation. -/
theorem Life.History.reservation_open (history : life.History past current)
    (member : e ∈ past ++ current.toList) :
    e.reservation.isOpen = true ↔ e.candidate.state.Open := by
  rcases List.mem_append.mp member with old | new
  · have closed := history.closed e old
    constructor
    · intro isOpen
      rw [closed.1] at isOpen
      cases isOpen
    · intro isOpen
      rcases closed.2 with ⟨state, -⟩ | ⟨state, -⟩
      · exact (isOpen.2 state).elim
      · exact (isOpen.1 state).elim
  · obtain rfl : current = some e := by simpa [eq_comm] using new
    have isOpen := history.isOpen_current
    exact ⟨fun _ => isOpen.2, fun _ => isOpen.1⟩

/-- What an episode says about its job. -/
structure Episode.JobAgrees (e : Episode) (status : JobStatus) : Prop where
  reserved : e.candidate.state = .reserved → status = .queued
  retired : e.candidate.state = .retired → status = .cancelled
  live : ∀ a ∈ e.attempt, ¬ a.state.Terminal → status = liveJobStatus a
  ended : ∀ a ∈ e.attempt, ∀ outcome : Outcome,
    a.state = outcome.attemptState → status = outcome.jobStatus

theorem Life.History.jobAgrees (history : life.History past current)
    (member : e ∈ past ++ current.toList) {j : JobLife} (job : e.job = some j) :
    e.JobAgrees j.status := by
  rcases List.mem_append.mp member with old | new
  · rcases (history.closed e old).2 with
      ⟨state, noAttempt, cancelled⟩ |
        ⟨state, a, outcome, attempt, ended, -, status⟩
    · exact
        { reserved := fun reserved => by rw [state] at reserved; cases reserved
          retired := fun _ => cancelled j job
          live := fun a own => by rw [noAttempt] at own; cases own
          ended := fun a own => by rw [noAttempt] at own; cases own }
    · refine
        { reserved := fun reserved => by rw [state] at reserved; cases reserved
          retired := fun retired => by rw [state] at retired; cases retired
          live := fun b own alive => ?_
          ended := fun b own other same => ?_ }
      · obtain rfl := Option.some.inj (attempt.symm.trans own)
        rw [ended] at alive
        exact (alive outcome.terminal_attemptState).elim
      · obtain rfl := Option.some.inj (attempt.symm.trans own)
        rw [ended] at same
        rw [Outcome.attemptState_injective same] at status
        exact status j job
  · obtain rfl : current = some e := by simpa [eq_comm] using new
    rcases history.agrees with ⟨⟨-, state, noAttempt, queued⟩, -⟩ |
      ⟨s, ⟨-, state, a, attempt, own, status⟩, -⟩
    · exact
        { reserved := fun _ => queued j job
          retired := fun retired => by rw [state] at retired; cases retired
          live := fun a own => by rw [noAttempt] at own; cases own
          ended := fun a own => by rw [noAttempt] at own; cases own }
    · refine
        { reserved := fun reserved => ?_
          retired := fun retired => ?_
          live := fun b same _ => ?_
          ended := fun b same outcome ended => ?_ }
      · rw [state] at reserved
        cases s <;> cases reserved
      · rw [state] at retired
        cases s <;> cases retired
      · obtain rfl := Option.some.inj (attempt.symm.trans same)
        exact status j job
      · obtain rfl := Option.some.inj (attempt.symm.trans same)
        rw [own] at ended
        cases s <;> cases outcome <;> cases ended

theorem exists_of_map_singleton {project : α → β} {table : List α} {value : β}
    (single : table.map project = [value]) :
    ∃ row, table = [row] ∧ project row = value := by
  obtain ⟨row, own, same⟩ := List.map_eq_singleton_iff.mp single
  exact ⟨row, own, same⟩

/-- The rows of a settled life agree. -/
theorem Life.Settled.coherent (settled : (lifeOf rows).Settled) : rows.Coherent := by
  obtain ⟨past, current, ⟨history, -⟩, settled⟩ := settled
  have candidates := rows.openCandidates_life.trans history.openCandidates
  have attempts := rows.liveAttempts_life.trans history.liveAttempts
  have attemptsOf : ∀ e ∈ past ++ current.toList,
      (rows.attemptsOf e.candidate.id).map AttemptRow.life = e.attempt.toList := fun e member =>
    (rows.attemptsOf_life _).trans (history.flat.attemptsOf member)
  refine
    { idle := fun idle => ?_
      reserved := fun reserved => ?_
      executing := fun s state => ?_
      reservations := fun c member => ?_
      jobs := fun c member j inside named => ?_ }
  · obtain rfl := settled.idle history idle
    exact ⟨List.map_eq_nil_iff.mp candidates, List.map_eq_nil_iff.mp attempts⟩
  · obtain ⟨e, rfl, -, state, noAttempt, -⟩ := history.reserved reserved
    obtain ⟨c, single, own⟩ := exists_of_map_singleton candidates
    have none' := attemptsOf e (by simp)
    rw [noAttempt] at none'
    rw [Option.bind_some, noAttempt] at attempts
    refine ⟨List.map_eq_nil_iff.mp attempts, c, single, ?_, ?_, ?_⟩
    · exact (congrArg CandidateLife.state own).trans state
    · exact (congrArg CandidateLife.generation own).trans history.generation_current
    · rw [← own] at none'
      exact List.map_eq_nil_iff.mp none'
  · obtain ⟨e, rfl, -, candidateState, b, attempt, attemptState, -⟩ := history.executing s state
    obtain ⟨c, single, own⟩ := exists_of_map_singleton candidates
    have some' := attemptsOf e (by simp)
    rw [attempt] at some'
    rw [Option.bind_some, attempt] at attempts
    obtain ⟨a, live, ownAttempt⟩ := exists_of_map_singleton attempts
    obtain ⟨a', its, ownAttempt'⟩ := exists_of_map_singleton some'
    rw [← own] at its
    have aLive : a' ∈ rows.liveAttempts := by
      refine List.mem_filter.mpr ⟨?_, ?_⟩
      · exact List.mem_of_mem_filter (its ▸ List.mem_singleton_self a')
      · have state : a'.state = s.attemptState :=
          (congrArg AttemptLife.state ownAttempt').trans attemptState
        rw [state]
        cases s <;> decide
    rw [live] at aLive
    obtain rfl := List.mem_singleton.mp aLive
    exact ⟨c, a', single, live, its,
      (congrArg CandidateLife.generation own).trans history.generation_current,
      (congrArg CandidateLife.state own).trans candidateState,
      (congrArg AttemptLife.state ownAttempt').trans attemptState⟩
  · obtain ⟨e, inside, own⟩ := history.flat.mem_candidates.mp
      (List.mem_map_of_mem member : c.life ∈ (lifeOf rows).candidates)
    have reservations := (rows.reservationsOf_life e.candidate.id).trans
      (history.flat.reservationsOf inside)
    obtain ⟨r, single, ownReservation⟩ := exists_of_map_singleton reservations
    rw [own] at single
    refine ⟨r, single, ?_, ?_⟩
    · have slot := (history.flat.linked e inside).slot
      rw [own, ← ownReservation] at slot
      exact slot
    · have isOpen := history.reservation_open inside
      rw [own, ← ownReservation] at isOpen
      exact Option.isNone_iff_eq_none.symm.trans isOpen
  · obtain ⟨e, inEpisodes, own⟩ := history.flat.mem_candidates.mp
      (List.mem_map_of_mem member : c.life ∈ (lifeOf rows).candidates)
    have job := history.flat.jobOf inEpisodes
      (List.mem_map_of_mem inside : j.life ∈ (lifeOf rows).jobs)
      (by rw [own]; exact named)
    have agrees := history.jobAgrees inEpisodes job
    have its := attemptsOf e inEpisodes
    rw [own] at its
    have attemptOf : ∀ a ∈ rows.attemptsOf c.id, a.life ∈ e.attempt := by
      intro a chosen
      apply Option.mem_toList.mp
      rw [← its]
      exact List.mem_map_of_mem chosen
    refine ⟨fun reserved => agrees.reserved ?_,
      fun retired => agrees.retired ?_, fun a chosen => ⟨fun alive => ?_,
        fun outcome ended => agrees.ended _ (attemptOf a chosen) outcome ended⟩⟩
    · rw [own]
      exact reserved
    · rw [own]
      exact retired
    · refine (agrees.live _ (attemptOf a chosen) alive).trans ?_
      cases started : a.startedAt <;>
        simp [liveJobStatus, AttemptRow.life, started]

end Coherent

/-! ## Runs -/

/-- In every run without a stale stop, the rows of every request agree in every
state reached. -/
theorem coherent_after (inputs earlier : List Input)
    (admitted : EveryStep execute
      (fun store input => ¬ input.StaleStop store) Store.empty inputs)
    (isPrefix : earlier <+: inputs) :
    ∀ rows ∈ (after earlier).requests, rows.Coherent :=
  fun rows member =>
    (settled_after (admitted.of_prefix isPrefix) rows member).coherent

/-! ## A deployment -/

namespace Deployment

/-- An environment that grants every right and holds no other work. -/
def env (moment : Timestamp) : Env :=
  { now := moment
    clock := moment
    hostNow := moment
    uuid := fun _ position => 100 * moment + position
    enabled := true
    productAllowlist := ["product"]
    repositorySources := true
    keyVersion := 1
    hasKey := fun _ => true
    byteLength := fun _ => 1
    artifactMaxBytes := 100
    attemptMaxBytes := 100
    attemptOutputMaxBytes := 100
    stopEvidenceMaxBytes := 100
    refreshActor := fun _ => .ok ()
    authorizeDispatch := fun _ _ _ => .ok ()
    lockManagedTask := fun _ => .ok ()
    lockManagedTaskHierarchy := fun _ => .ok ()
    snapshotTask := fun _ => .ok ()
    repoUrl := fun _ => some "repository"
    jobModel := fun _ _ => some "model"
    worker := fun _ => none
    minQuotaPct := fun _ => 0
    ordinaryLiveJob := fun _ => false
    ordinaryRequestClaim := fun _ => false
    requestLocked := fun _ => false
    slotLocked := fun _ => false }

def input (moment : Timestamp) (action : Action) : Input :=
  { env := env moment, action := action }

/-- The owner, who also runs the supervisor. -/
def owner : Actor := actorForToken "owner" "token"

def freeTask : DispatchInput :=
  { productId := "product"
    action := .freeTask
    taskId := none
    access := .repoWrite
    runtime := none
    environmentKeys := []
    repository := some { productId := "product", baseSha := "base" }
    reviewDocuments := []
    publish := .branch
    replyTo := "mac:jp" }

def profile : ProfileConfig :=
  { protocol := "dispatch-v1"
    productIds := ["product"]
    actions := [.freeTask]
    runtime := .codex
    access := .repoWrite
    publishModes := [.branch]
    environmentKeys := []
    repositoryProductIds := ["product"]
    imageDigest := "image"
    maxDurationSeconds := 3600 }

def scope : RuntimeScope :=
  { scopeId := "scope"
    bootId := "boot"
    imageDigest := "image"
    profileSha256 := "profile" }

/-- The secret of the only incarnation. -/
def session : Credential := .session 300 200 "token" 1

def proof (candidateId generation attemptId : Nat) : AttemptProof :=
  { requestId := 400
    candidateId := candidateId
    generation := generation
    attemptId := attemptId
    incarnationId := 300
    credential := .attempt attemptId 300 generation 1 }

/-- The first attempt, in its scope. -/
def binding : StartBinding :=
  { requestId := 400
    candidateId := 600
    generation := 1
    attemptId := 700
    incarnationId := 300
    scope := scope }

/-- The broker saw the first attempt stopped. -/
def observation : StopObservation :=
  { binding := binding
    slotId := 200
    observer := .broker 200
    status := .exited
    runtimeBootId := "boot"
    observedAt := 9 }

def evidence (artifactId : Uuid) : StopEvidence :=
  { kind := .containerStopped
    artifactId := artifactId
    sha256 := artifactHash (.stopObservation observation)
    attemptId := 700
    incarnationId := 300
    scopeId := "scope"
    profileSha256 := "profile"
    observedAt := 9 }

/-- One slot with a profile, and one request for it. -/
def submitted : List Input :=
  [input 1 (.createProfile owner "codex" "product" "profile" "profile" profile),
    input 2 (.createSlot owner
      { actionId := "slot"
        ownerUserId := "owner"
        tokenId := "token"
        productId := "product"
        kind := .host
        capacityKey := "slot"
        profileRevisionIds := [100] }),
    input 3 (.register owner
      { slotId := 200
        bootId := "boot"
        runtime := .codex
        imageDigest := "image"
        profileSha256 := "profile"
        registrationKey := "register" }),
    input 4 (.submit owner freeTask "submit"),
    input 5 (.prepareSources 400
      [{ key := repositorySourceKey
         bytes := .text "base"
         sha256 := artifactHash (.text "base") }] (some "repository"))]

/-- The first attempt runs. -/
def running : List Input :=
  submitted ++
    [input 6 (.reserve 400),
      input 7 (.claim owner 300 "first" session),
      input 8 (.start owner (proof 600 1 700) scope)]

/-- The first attempt's lease ran out, and its stop was accepted. -/
def stopped : List Input :=
  running ++
    [input 200000 (.stageStop owner observation
        (artifactHash (.stopObservation observation))),
      input 200001 (.markExpired 400 600 700),
      input 200002 (.submitStop owner (proof 600 1 700) (evidence 20000001))]

/-- The operator authorizes one retry. -/
def retry : Input :=
  input 200003
    (.recover owner 400 "recover" 5 (evidence 20000001) .retrySameContract)

/-- A second attempt takes the authorized retry. -/
def retried : List Input :=
  stopped ++
    [retry,
      input 200004 (.heartbeat owner 300 session false),
      input 200005 (.reserve 400),
      input 200006 (.claim owner 300 "second" session)]

/-- The owner cancels the request at a version of it. -/
def cancel (moment : Timestamp) (expectedVersion : Nat) : Input :=
  input moment (.cancel owner 400 "cancel" expectedVersion)

/-- The request is cancelled, and the first attempt's stop is sent again. -/
def staleStopped : List Input :=
  retried ++
    [cancel 200007 8,
      input 200008 (.submitStop owner (proof 600 1 700) (evidence 20000001))]

end Deployment

/-- Of a run without such a stop, with its one request. -/
theorem coherent_running :
    (after Deployment.running).requests.length = 1 ∧
      ∀ rows ∈ (after Deployment.running).requests, rows.Coherent := by
  refine ⟨by decide +kernel, ?_⟩
  refine coherent_after Deployment.running Deployment.running
    (everyStep_of_forall ?_ _) List.prefix_rfl
  rintro store input member ⟨-, rows, -, stale⟩
  simp only [Deployment.running, Deployment.submitted, List.cons_append,
    List.nil_append, List.mem_cons, List.not_mem_nil, or_false] at member
  rcases member with rfl | rfl | rfl | rfl | rfl | rfl | rfl | rfl <;>
    exact stale

/-- A stale stop cancels a request whose second attempt still runs. -/
theorem stale_stop_incoherent :
    ¬ ∀ inputs : List Input,
      ∀ rows ∈ (after inputs).requests, rows.Coherent := by
  intro always
  have cancelled : ∃ rows ∈ (after Deployment.staleStopped).requests,
      rows.request.state = .cancelled ∧ rows.openCandidates ≠ [] := by
    decide +kernel
  obtain ⟨rows, member, state, isOpen⟩ := cancelled
  have idle := (always _ rows member).idle (.inr (by rw [state]; decide))
  exact isOpen idle.1

end Dispatch
end Scrum4Me
