import Scrum4Me.Guarantees.Stops

/-!
# One canonical result

A request gets one result, exactly when it ends, and keeps it. A submission to a
request that has ended is replayed or recorded as late; the job usage that a late
submission reports is written at most once.
-/

namespace Scrum4Me
namespace Dispatch

open Foundation

/-! ## The result of a life -/

section Lives

variable {free : Uuid → Prop} {life : Life}

/-- What a request that has ended keeps. -/
structure Life.SameEnd (life life' : Life) : Prop where
  state : life'.state = life.state
  version : life'.version = life.version
  resultId : life'.resultId = life.resultId
  results : life'.results = life.results
  acceptances : life'.acceptances = life.acceptances

theorem Life.SameEnd.refl (life : Life) : life.SameEnd life :=
  ⟨rfl, rfl, rfl, rfl, rfl⟩

theorem Life.SameEnd.trans
    {life' life'' : Life} (first : life.SameEnd life') (second : life'.SameEnd life'') :
    life.SameEnd life'' :=
  ⟨second.state.trans first.state, second.version.trans first.version,
    second.resultId.trans first.resultId, second.results.trans first.results,
    second.acceptances.trans first.acceptances⟩

/-- A change of a request that has ended leaves its end alone. -/
theorem Change.sameEnd
    {change : Change} (ended : life.state.Terminal) (allowed : change.Allowed free life) :
    life.SameEnd (change.apply life) := by
  cases change with
  | reserve =>
    rw [allowed.1] at ended
    exact absurd ended (by decide)
  | retire =>
    rw [allowed.2.1] at ended
    exact absurd ended (by decide)
  | abandon => exact (allowed.1 ended).elim
  | claim =>
    rw [allowed.2.1] at ended
    exact absurd ended (by decide)
  | start =>
    obtain ⟨-, -, -, -, state⟩ := allowed
    rcases state with h | h <;> rw [h] at ended <;>
      exact absurd ended (by decide)
  | resume =>
    obtain ⟨-, -, -, -, -, state⟩ := allowed
    rw [state] at ended
    exact absurd ended (by decide)
  | lapse =>
    obtain ⟨-, -, -, state, -⟩ := allowed
    rcases state with h | h | h <;> rw [h] at ended <;>
      exact absurd ended (by decide)
  | requestStop => exact (allowed.2.2.1 ended).elim
  | finish =>
    obtain ⟨-, -, -, -, -, notEnded, -⟩ := allowed
    exact (notEnded ended).elim
  | recover =>
    obtain ⟨-, -, -, -, -, -, state, -⟩ := allowed
    rcases state with h | h <;> rw [h] at ended <;>
      exact absurd ended (by decide)
  | retry =>
    obtain ⟨-, -, -, -, state, -⟩ := allowed
    rw [state] at ended
    exact absurd ended (by decide)
  | _ => exact ⟨rfl, rfl, rfl, rfl, rfl⟩

theorem Life.sameEnd_applyAll {changes : List Change} (ended : life.state.Terminal)
    (path : life.Path free changes) :
    life.SameEnd (life.applyAll changes) := by
  induction changes generalizing life with
  | nil => exact .refl life
  | cons change rest ih =>
    have same := Change.sameEnd ended path.1
    exact same.trans (ih (by rw [same.state]; exact ended) path.2)

end Lives

/-! ## The result of a request -/

/-- A request has at most one result, and has it exactly when it has ended. -/
structure RequestRows.Canonical (rows : RequestRows) : Prop where
  single : rows.results.length ≤ 1
  named : rows.request.resultId ≠ none ↔ rows.request.state.Terminal
  outcome : rows.request.state.Terminal → ∃ result ∈ rows.results,
    rows.request.resultId = some result.id ∧
      result.outcome.dispatchState = rows.request.state

/-- The last attempt and its job ended with the outcome of the result. -/
def RequestRows.LastAttemptAgrees (rows : RequestRows) : Prop :=
  ∀ result ∈ rows.results, ∀ id ∈ result.attemptId,
    ∃ a, rows.attempts.getLast? = some a ∧ a.id = id ∧
      a.state = result.outcome.attemptState ∧
      ∀ c ∈ rows.candidates, c.id = a.candidateId →
        ∀ j ∈ rows.jobs, c.jobId = some j.id →
          j.status = result.outcome.jobStatus

section Requests

variable {store store' : Store} {input : Input} {rows rows' : RequestRows}

theorem Life.Consistent.canonical (consistent : (lifeOf rows).Consistent) : rows.Canonical := by
  obtain ⟨past, current, consistent⟩ := consistent
  have accounts := consistent.results
  by_cases ended : rows.request.state.Terminal
  · obtain ⟨result, results, resultId, outcome, -⟩ := accounts.canonical ended
    have results : rows.results = [result] := results
    have resultId : rows.request.resultId = some result.id := resultId
    exact
      { single := by simp [results]
        named := by simp [resultId, ended]
        outcome := fun _ => ⟨result, by simp [results], resultId, outcome⟩ }
  · obtain ⟨results, resultId, -⟩ := accounts.pending ended
    have results : rows.results = [] := results
    have resultId : rows.request.resultId = none := resultId
    exact
      { single := by simp [results]
        named := by simp [resultId, ended]
        outcome := fun terminal => (ended terminal).elim }

/-- The attempts of a request that has ended end with the last episode's. -/
theorem Life.Settled.lastAttemptAgrees (settled : (lifeOf rows).Settled) :
    rows.LastAttemptAgrees := by
  obtain ⟨past, current, consistent, settled⟩ := settled
  intro result member id named
  have ended : (lifeOf rows).state.Terminal := by
    by_contra notEnded
    have none' := (consistent.results.pending notEnded).1
    have own : result ∈ (lifeOf rows).results := member
    rw [none'] at own
    cases own
  obtain rfl := settled.closed ended
  obtain ⟨e, last, attempt, its, sameId, state, job⟩ := settled.ended result member id named
  have flat := consistent.history.flat
  simp only [Option.toList_none, List.append_nil] at flat
  obtain ⟨before, rfl⟩ := List.getLast?_eq_some_iff.mp last
  have inside : e ∈ before ++ [e] := by simp
  have attempts : rows.attempts.map AttemptRow.life =
      before.filterMap Episode.attempt ++ [attempt] := by
    refine flat.attempts.trans ?_
    rw [List.filterMap_append, List.filterMap_cons_some its, List.filterMap_nil]
  have newest := congrArg List.getLast? attempts
  rw [List.getLast?_map, List.getLast?_concat] at newest
  obtain ⟨a, isLast, rfl⟩ := Option.map_eq_some_iff.mp newest
  refine ⟨a, isLast, sameId, state, ?_⟩
  intro c own linked j inJobs ofCandidate
  have sameCandidate : c.life = e.candidate := by
    obtain ⟨e', episode, same⟩ := flat.mem_candidates.mp
      (List.mem_map_of_mem own : c.life ∈ (lifeOf rows).candidates)
    rw [← same]
    apply congrArg Episode.candidate
    apply List.inj_on_of_nodup_map flat.candidateIds episode inside
    show e'.candidate.id = e.candidate.id
    rw [same, ← (flat.linked e inside).attempt _ its]
    exact linked
  have ownJob := flat.jobOf inside (List.mem_map_of_mem inJobs : j.life ∈ (lifeOf rows).jobs)
    (by rw [← sameCandidate]; exact ofCandidate)
  exact job j.life ownJob

/-- A request that has ended stays as it ended. -/
theorem Store.Sound.sameEnd
    (sound : store.Sound) (inputs : List Input) (member : rows ∈ store.requests)
    (member' : rows' ∈ (run execute store inputs).requests)
    (sameId : rows'.request.id = rows.request.id) (ended : rows.request.state.Terminal) :
    (lifeOf rows).SameEnd (lifeOf rows') := by
  refine sound.along (fun _ _ => True) (fun rows rows' => rows.request.state.Terminal →
      (lifeOf rows).SameEnd (lifeOf rows'))
    (fun _ _ => .refl _) ?_ ?_
    (everyStep_of_forall (fun _ _ _ => trivial) store) member member' sameId
    ended
  · intro first second third earlier later ended
    have same := earlier ended
    exact same.trans (later (by
      have state : second.request.state = first.request.state := same.state
      rw [state]
      exact ended))
  · intro store input rows rows' sound _ member member' sameId ended
    cases sound.successor member member' sameId with
    | kept life =>
      rw [life]
      exact .refl _
    | changed changes evolves =>
      rw [evolves.refines.life]
      exact Life.sameEnd_applyAll ended evolves.refines.path

end Requests

/-! ## Submitting again -/

/-- The attempt and the submission of an action that submits a result. -/
def Action.submits? : Action → Option (Uuid × Submission)
  | .acceptPrepare _ authority submission =>
      some (authority.attemptId, submission)
  | .acceptFinish _ authority submission _ =>
      some (authority.attemptId, submission)
  | _ => none

/-- The receipt of an answer to a submission. -/
def Answer.receipt? : Answer → Option ResultReceipt
  | .preparation (.receipt given) => some given
  | .result given => some given
  | _ => Option.none

def EventRow.LateResult (event : EventRow) : Prop :=
  match event.body with
  | .lateResult _ _ => True
  | _ => False

/-- The job whose usage a late submission may still report: the one of the
attempt that the result is of. -/
def RequestRows.acceptedJob? (rows : RequestRows) : Option Uuid := do
  let result ← rows.result?
  let id ← result.attemptId
  let a ← rows.attempt? id
  let c ← rows.candidate? a.candidateId
  c.jobId

/-- The usage of the accepted attempt was written. -/
def RequestRows.UsageWritten (rows : RequestRows) : Prop :=
  ∀ j ∈ rows.jobs, rows.acceptedJob? = some j.id → j.usage ≠ none

/-- What late submissions leave behind. -/
structure RequestRows.Late (rows rows' : RequestRows) : Prop where
  others : rows' = { rows with events := rows'.events, jobs := rows'.jobs }
  events : ∃ late, rows'.events = rows.events ++ late ∧
    ∀ event ∈ late, event.LateResult
  written : rows'.jobs = rows.jobs ∨ rows'.UsageWritten
  once : rows.UsageWritten → rows'.jobs = rows.jobs

namespace RequestRows.Late

variable {rows rows' rows'' : RequestRows}

theorem refl (rows : RequestRows) : rows.Late rows :=
  ⟨rfl, ⟨[], by simp, by simp⟩, .inl rfl, fun _ => rfl⟩

theorem acceptedJob? (late : rows.Late rows') : rows'.acceptedJob? = rows.acceptedJob? := by
  rw [late.others]
  rfl

theorem usageWritten (late : rows.Late rows') (written : rows.UsageWritten) :
    rows'.UsageWritten := by
  unfold UsageWritten
  rw [late.once written, late.acceptedJob?]
  exact written

theorem trans (first : rows.Late rows') (second : rows'.Late rows'') : rows.Late rows'' where
  others := by rw [second.others, first.others]
  events := by
    obtain ⟨late, events, isLate⟩ := first.events
    obtain ⟨later, events', isLater⟩ := second.events
    refine ⟨late ++ later, by rw [events', events, List.append_assoc], ?_⟩
    intro event member
    rcases List.mem_append.mp member with inLate | inLater
    · exact isLate event inLate
    · exact isLater event inLater
  written := by
    rcases first.written with same | written
    · rcases second.written with same' | written'
      · exact .inl (same'.trans same)
      · exact .inr written'
    · exact .inr (second.usageWritten written)
  once := fun written => (second.once (first.usageWritten written)).trans (first.once written)

end RequestRows.Late

section Terminal

variable {env : Env} {registry : Registry} {store : Store}
  {rows rows' : RequestRows} {x : ArtifactAttempt} {submission : Submission}
  {old : ResultRow}

theorem lockArtifactAttempt_finds {attemptId : Uuid}
    (locked : lockArtifactAttempt env registry rows attemptId = .ok x) :
    rows.attempt? attemptId = some x.a ∧ rows.candidate? x.a.candidateId = some x.c := by
  simp only [lockArtifactAttempt, bind_eq_ok, require_eq_ok, ensure_eq_ok, pure_eq_ok] at locked
  obtain ⟨a, foundAttempt, c, foundCandidate, -, -, s, -, i, -, p, -, -, -, rfl⟩ := locked
  exact ⟨foundAttempt, foundCandidate⟩

/-- A job whose usage is there is not written again. -/
theorem writeDispatchUsage_once (jobId : Uuid) (raw : RawUsage)
    (written : ∀ j ∈ rows.jobs, j.id = jobId → j.usage ≠ none) :
    writeDispatchUsage rows jobId raw true = rows := by
  have same : updateWhere (fun row => row.id = jobId) (fun job : JobRow =>
        if true = true ∧ job.usage ≠ none then
          job
        else
          { job with
            usage := some (dispatchUsageColumns raw job.requestedModel) })
      rows.jobs = rows.jobs := by
    rw [updateWhere]
    conv_rhs => rw [← List.map_id rows.jobs]
    apply List.map_congr_left
    intro j member
    by_cases own : j.id = jobId
    · simp [own, written j member own]
    · simp [own]
  unfold writeDispatchUsage RequestRows.updateJob
  rw [same]

theorem writeDispatchUsage_writes (jobId : Uuid) (raw : RawUsage) :
    ∀ j ∈ (writeDispatchUsage rows jobId raw true).jobs, j.id = jobId → j.usage ≠ none := by
  intro j member own
  obtain ⟨k, inside, rfl⟩ := List.mem_map.mp member
  by_cases its : k.id = jobId
  · by_cases written : k.usage = none <;> simp [its, written]
  · simp [its] at own

/-- A submission to a request that has ended is late, or changes nothing. -/
theorem terminal_late (result : rows.result? = some old) (attempt : rows.attempt? x.a.id = some x.a)
    (candidate : rows.candidate? x.a.candidateId = some x.c) :
    rows.Late (terminal env rows x submission old).1 := by
  unfold terminal
  split
  · exact .refl rows
  · have recorded : rows.Late (rows.insertEvent env (some x.a.id) (.service none)
        (.lateResult submission.hash submission.result)) :=
      ⟨rfl, ⟨_, rfl, by simp [EventRow.LateResult]⟩, .inl rfl, fun _ => rfl⟩
    dsimp only
    split
    · rename_i own
      refine recorded.trans ?_
      generalize rows.insertEvent env (some x.a.id) (.service none)
        (.lateResult submission.hash submission.result) = moved at recorded
      have accepted : moved.acceptedJob? = x.c.jobId := by
        rw [recorded.acceptedJob?]
        simp [RequestRows.acceptedJob?, result, own, attempt, candidate]
      unfold writeUsageOf
      split
      · rename_i jobId raw job _
        rw [job] at accepted
        have sameJob : (writeDispatchUsage moved jobId raw true).acceptedJob? =
            moved.acceptedJob? := rfl
        refine ⟨rfl, ⟨[], (List.append_nil _).symm, by simp⟩, .inr ?_, ?_⟩
        · intro j member own
          rw [sameJob, accepted] at own
          exact writeDispatchUsage_writes jobId raw j member (Option.some.inj own).symm
        · intro written
          rw [writeDispatchUsage_once]
          intro j member own
          exact written j member (by rw [accepted, own])
      · exact .refl moved
    · exact recorded

/-- A submission to a request that has ended is answered by `terminal`. -/
theorem submits_terminal {action : Action} {answer : Answer} {attemptId : Uuid}
    (written : transactRows env store rows action = .ok (rows', answer))
    (submits : action.submits? = some (attemptId, submission)) (result : rows.result? = some old) :
    ∃ x, x.LockedIn rows ∧ x.a.id = attemptId ∧ rows.attempt? x.a.id = some x.a ∧
      rows.candidate? x.a.candidateId = some x.c ∧ rows' = (terminal env rows x submission old).1 ∧
      answer.receipt? = some (terminal env rows x submission old).2 := by
  cases action with
  | acceptPrepare actor authority submission' =>
    obtain ⟨rfl, rfl⟩ := Prod.mk.inj (Option.some.inj submits)
    obtain ⟨preparation, prepared, rfl⟩ := answering_eq_ok.mp written
    simp only [acceptPrepare, bind_eq_ok, result, pure_eq_ok, Prod.mk.injEq]
      at prepared
    obtain ⟨x, locked, rfl, rfl⟩ := prepared
    obtain ⟨lockedIn, sameId⟩ := lockAuthorized_spec locked
    simp only [lockAuthorized, bind_eq_ok, pure_eq_ok] at locked
    obtain ⟨y, locked, -, -, -, -, rfl⟩ := locked
    obtain ⟨attempt, candidate⟩ := lockArtifactAttempt_finds locked
    exact ⟨_, lockedIn, sameId, sameId.symm ▸ attempt, candidate, rfl, rfl⟩
  | acceptFinish actor authority submission' submitted =>
    obtain ⟨rfl, rfl⟩ := Prod.mk.inj (Option.some.inj submits)
    obtain ⟨receipt, finished, rfl⟩ := answering_eq_ok.mp written
    simp only [acceptFinish, bind_eq_ok, result, pure_eq_ok] at finished
    obtain ⟨x, locked, finished⟩ := finished
    obtain ⟨lockedIn, sameId⟩ := lockAuthorized_spec locked
    simp only [lockAuthorized, bind_eq_ok, pure_eq_ok] at locked
    obtain ⟨y, locked, -, -, -, -, rfl⟩ := locked
    obtain ⟨attempt, candidate⟩ := lockArtifactAttempt_finds locked
    exact ⟨_, lockedIn, sameId, sameId.symm ▸ attempt, candidate, (congrArg Prod.fst finished).symm,
      congrArg some (congrArg Prod.snd finished).symm⟩
  | _ => cases submits

end Terminal

/-! ## Accepted submissions -/

/-- The submission of the attempt was accepted, with this receipt. -/
structure RequestRows.Accepted
    (rows : RequestRows) (attemptId : Uuid) (submission : Submission)
    (receipt : ResultReceipt) : Prop where
  attempt : ∃ a ∈ rows.attempts, a.id = attemptId
  hash : rows.acceptedHash? attemptId = some submission.hash
  result : ∃ old, rows.results = [old] ∧ receipt.resultId = some old.id ∧
    receipt.result = some old.payload

section Accepted

variable {env : Env} {store store' : Store} {input : Input} {answer : Answer}
  {rows rows' : RequestRows} {x : ArtifactAttempt} {attemptId : Uuid}
  {submission : Submission} {receipt : ResultReceipt} {old : ResultRow}

theorem acceptedHash?_lifeOf (rows : RequestRows) (attemptId : Uuid) :
    rows.acceptedHash? attemptId = ((lifeOf rows).acceptances.find? fun acceptance =>
        acceptance.1 = some attemptId).map Prod.snd := by
  simp only [RequestRows.acceptedHash?, lifeOf]
  induction rows.events with
  | nil => rfl
  | cons event rest ih =>
    rw [List.findSome?_cons, List.filterMap_cons]
    cases body : event.body with
    | resultAccepted resultId hash =>
      by_cases own : event.attemptId = some attemptId
      · simp [EventRow.acceptance?, body, own]
      · simp [EventRow.acceptance?, body, own, ih]
    | _ => simp [EventRow.acceptance?, body, ih]

/-- What finishing answers is what it wrote. -/
theorem finishResult_receipt {result : DispatchResult} {hash : ResultHash} {usage : Option RawUsage}
    {finished : RequestRows × ResultReceipt} (noResult : (lifeOf rows).results = [])
    (written : finishResult env rows x result hash usage = .ok finished) :
    ∃ old, (lifeOf finished.1).results = [old] ∧ finished.2.resultId = some old.id ∧
      finished.2.result = some old.payload ∧
      (lifeOf finished.1).acceptances = (lifeOf rows).acceptances ++ [(some x.a.id, hash)] := by
  obtain ⟨row, attempt, records, life, -, -⟩ := finishResult_spec x.execution_of noResult written
  refine ⟨row, ?_, ?_, ?_, ?_⟩
  · rw [life]
    show (lifeOf rows).results ++ [row] = [row]
    rw [noResult, List.nil_append]
  · have named : (lifeOf finished.1).resultId = some row.id := by rw [life]; rfl
    simp only [finishResult, bind_eq_ok, pure_eq_ok] at written
    obtain ⟨inserted, insertion, closed, closing, -, -, rfl⟩ := written
    obtain ⟨row', -, -, sameId, insertedLife⟩ := insertResult_spec noResult insertion
    have first : (lifeOf inserted.1).results = [row'] := by
      rw [insertedLife]
      show (lifeOf rows).results ++ [row'] = [row']
      rw [noResult, List.nil_append]
    obtain ⟨ended, -, -⟩ := terminalizeAttempt_spec x.execution_of closing
    have kept : (lifeOf closed).results = (lifeOf inserted.1).results := by
      rw [ended, transition, lifeOf_announce]
      rfl
    have own : [row] = [row'] := by
      rw [← first, ← kept]
      have results := congrArg Life.results life
      rw [lifeOf_insertAcceptance, lifeOf_writeUsageOf] at results
      refine Eq.trans ?_ results.symm
      show [row] = (lifeOf rows).results ++ [row]
      rw [noResult, List.nil_append]
    show some inserted.2 = some row.id
    rw [List.singleton_inj.mp own, sameId]
  · simp only [finishResult, bind_eq_ok, pure_eq_ok] at written
    obtain ⟨inserted, insertion, closed, closing, -, -, rfl⟩ := written
    exact congrArg some records.payload.symm
  · rw [life]
    rfl

/-- A submission that is accepted, now or again, is on record. -/
theorem accepted_rows (consistent : (lifeOf rows).Consistent)
    (written : transactRows input.env store rows input.action = .ok (rows', answer))
    (later : (lifeOf rows).Later (lifeOf rows'))
    (submits : input.action.submits? = some (attemptId, submission))
    (received : answer.receipt? = some receipt) (accepted : receipt.accepted = true) :
    rows'.Accepted attemptId submission receipt := by
  cases result : rows.result? with
  | some old =>
    obtain ⟨x, lockedIn, rfl, -, -, rfl, answered⟩ := submits_terminal written submits result
    obtain rfl := Option.some.inj (received.symm.trans answered)
    unfold terminal at accepted ⊢
    split at accepted
    · rename_i same
      simp only [if_pos same]
      refine ⟨⟨x.a, lockedIn.a, rfl⟩, same, old, ?_, rfl, rfl⟩
      have single := consistent.canonical.single
      match results : rows.results with
      | [] => simp [RequestRows.result?, results] at result
      | [only] =>
        simp only [RequestRows.result?, results, List.head?_cons] at result
        rw [Option.some.inj result]
      | _ :: _ :: _ => simp [results] at single
    · cases accepted
  | none =>
    have noResult := (result?_eq_none rows).mp result
    have noAcceptance : (lifeOf rows).acceptances = [] := by
      obtain ⟨past, current, consistent⟩ := consistent
      by_cases ended : (lifeOf rows).state.Terminal
      · obtain ⟨only, results, -⟩ := consistent.results.canonical ended
        rw [noResult] at results
        cases results
      · exact (consistent.results.pending ended).2.2
    have recorded : ∀ {rows₁ : RequestRows} {x : ArtifactAttempt}
        {submitted : DispatchResult} {finished : RequestRows × ResultReceipt},
        lifeOf rows₁ = lifeOf rows → x.LockedIn rows → x.a.id = attemptId →
        finishResult input.env rows₁ x submitted submission.hash submission.usage = .ok finished →
        finished = (rows', receipt) →
        rows'.Accepted attemptId submission receipt := by
      intro rows₁ x submitted finished sameLife lockedIn named finishing same
      obtain ⟨old, results, resultId, payload, acceptances⟩ :=
        finishResult_receipt (by rw [sameLife]; exact noResult) finishing
      rw [sameLife, noAcceptance, List.nil_append] at acceptances
      subst same
      obtain ⟨a, own, sameAttempt, -⟩ := later.attempt lockedIn.a
      refine ⟨⟨a, own, sameAttempt.trans named⟩, ?_, old, results, resultId, payload⟩
      rw [acceptedHash?_lifeOf, acceptances]
      simp [named]
    obtain ⟨inputEnv, action⟩ := input
    cases action with
    | acceptPrepare actor authority submission' =>
      obtain ⟨preparation, prepared, rfl⟩ := answering_eq_ok.mp written
      simp only [acceptPrepare, bind_eq_ok, result, ensure_eq_ok,
        pure_eq_ok, Prod.mk.injEq] at prepared
      obtain ⟨x, -, -, -, -, -, prepared, -, -, rfl⟩ := prepared
      cases received
    | acceptFinish actor authority submission' submitted =>
      obtain ⟨rfl, rfl⟩ := Prod.mk.inj (Option.some.inj submits)
      obtain ⟨given, finished, rfl⟩ := answering_eq_ok.mp written
      obtain rfl := Option.some.inj received
      simp only [acceptFinish, bind_eq_ok, result, ensure_eq_ok] at finished
      obtain ⟨x, locked, -, -, finished⟩ := finished
      obtain ⟨lockedIn, named⟩ := lockAuthorized_spec locked
      split at finished
      · have silent : lifeOf (rows.insertEvent inputEnv (some x.a.id)
            (.service none) (.lateResult submission'.hash submission'.result)) = lifeOf rows :=
          lifeOf_insertEvent _ _ _ _ trivial
        exact recorded silent lockedIn named finished rfl
      · simp only [bind_eq_ok, ensure_eq_ok] at finished
        obtain ⟨-, -, finished⟩ := finished
        exact recorded rfl lockedIn named finished rfl
    | _ => cases submits

/-- An accepted submission stays on record. -/
theorem Store.Sound.accepted_later
    (sound : store.Sound) (inputs : List Input) (member : rows ∈ store.requests)
    (accepted : rows.Accepted attemptId submission receipt) :
    ∃ rows' ∈ (run execute store inputs).requests, rows'.Accepted attemptId submission receipt := by
  obtain ⟨rows', member', sameId, later⟩ := sound.exists_later inputs member
  obtain ⟨a, own, named⟩ := accepted.attempt
  obtain ⟨old, results, resultId, payload⟩ := accepted.result
  have ended : rows.request.state.Terminal := by
    by_contra notEnded
    obtain ⟨past, current, consistent⟩ := sound.consistent rows member
    have noResult := (consistent.results.pending notEnded).1
    have results : (lifeOf rows).results = [old] := results
    rw [noResult] at results
    cases results
  have same := sound.sameEnd inputs member member' sameId ended
  obtain ⟨a', own', sameAttempt, -⟩ := later.attempt own
  refine ⟨rows', member', ⟨a', own', sameAttempt.trans named⟩, ?_, old,
    same.results.trans results, resultId, payload⟩
  rw [acceptedHash?_lifeOf, same.acceptances, ← acceptedHash?_lifeOf]
  exact accepted.hash

/-- How a submission to a request that has ended is answered: the accepted bytes
are replayed and change nothing, any other submission is recorded as late. -/
inductive Resubmitted
    (store store' : Store) (env : Env) (rows : RequestRows)
    (attemptId : Uuid) (submission : Submission) (receipt : ResultReceipt) :
    Prop
  | replayed (same : rows.acceptedHash? attemptId = some submission.hash)
      (unchanged : store' = { store with clock := env.clock })
      (accepted : receipt.accepted = true)
      (reason : receipt.reason = "replayed")
  | late (rows' : RequestRows) (event : EventRow)
      (other : rows.acceptedHash? attemptId ≠ some submission.hash)
      (changed : store' = { store.put rows' with clock := env.clock })
      (recorded : rows'.events = rows.events ++ [event])
      (body : event.body = .lateResult submission.hash submission.result)
      (otherwise : rows.Late rows')
      (refused : receipt.accepted = false)
      (reason : receipt.reason = "terminal_result")

theorem submits_works (submits : input.action.submits? = some (attemptId, submission)) :
    transact input.env store input.action =
      onRows store (input.action.target? store) notFound fun rows =>
        transactRows input.env store rows input.action := by
  obtain ⟨env, action⟩ := input
  cases action with
  | acceptPrepare => rfl
  | acceptFinish => rfl
  | _ => cases submits

theorem terminal_events (env : Env) (old : ResultRow)
    (other : rows.acceptedHash? x.a.id ≠ some submission.hash) :
    ∃ event, (terminal env rows x submission old).1.events = rows.events ++ [event] ∧
      event.body = .lateResult submission.hash submission.result := by
  unfold terminal
  rw [if_neg other]
  dsimp only
  refine ⟨{
    id := rows.nextEventId env
    attemptId := some x.a.id
    actor := .service none
    body := .lateResult submission.hash submission.result
    createdAt := env.now }, ?_, rfl⟩
  split
  · unfold writeUsageOf
    split <;> rfl
  · rfl

/-- A submission to a request that has ended. -/
theorem Store.Sound.resubmitted (sound : store.Sound) (member : rows ∈ store.requests)
    (own : ∃ a ∈ rows.attempts, a.id = attemptId) (results : rows.results = [old])
    (committed : perform store input = .ok (store', answer))
    (submits : input.action.submits? = some (attemptId, submission)) :
    ∃ receipt, answer.receipt? = some receipt ∧
      receipt.resultId = some old.id ∧ receipt.result = some old.payload ∧
      Resubmitted store store' input.env rows attemptId submission receipt := by
  obtain ⟨before, other, rows', later, changes, split, split', written, put,
    evolves⟩ := sound.transaction committed (submits_works submits)
  have inStore : other ∈ store.requests := by rw [split]; simp
  have named : ∃ a ∈ other.attempts, a.id = attemptId := by
    obtain ⟨inputEnv, action⟩ := input
    cases action with
    | acceptPrepare actor authority submission' =>
      obtain ⟨rfl, rfl⟩ := Prod.mk.inj (Option.some.inj submits)
      obtain ⟨preparation, prepared, -⟩ := answering_eq_ok.mp written
      simp only [acceptPrepare, bind_eq_ok] at prepared
      obtain ⟨x, locked, -⟩ := prepared
      obtain ⟨lockedIn, sameId⟩ := lockAuthorized_spec locked
      exact ⟨x.a, lockedIn.a, sameId⟩
    | acceptFinish actor authority submission' submitted =>
      obtain ⟨rfl, rfl⟩ := Prod.mk.inj (Option.some.inj submits)
      obtain ⟨given, finished, -⟩ := answering_eq_ok.mp written
      simp only [acceptFinish, bind_eq_ok] at finished
      obtain ⟨x, locked, -⟩ := finished
      obtain ⟨lockedIn, sameId⟩ := lockAuthorized_spec locked
      exact ⟨x.a, lockedIn.a, sameId⟩
    | _ => cases submits
  obtain ⟨a, inRows, sameId⟩ := own
  obtain ⟨a', inOther, sameId'⟩ := named
  obtain rfl := sound.request_of_attempt member inStore inRows inOther (sameId.trans sameId'.symm)
  have result : rows.result? = some old := by rw [RequestRows.result?, results, List.head?_cons]
  obtain ⟨x, lockedIn, rfl, attempt, candidate, rfl, answered⟩ :=
    submits_terminal written submits result
  refine ⟨_, answered, ?_, ?_, ?_⟩
  · unfold terminal
    split <;> rfl
  · unfold terminal
    split <;> rfl
  · by_cases same : rows.acceptedHash? x.a.id = some submission.hash
    · have replay : terminal input.env rows x submission old = (rows,
            { accepted := true
              resultId := some old.id
              reason := "replayed"
              result := some old.payload }) := if_pos same
      rw [replay] at put ⊢
      rw [store.put_self sound.keys.requests member] at put
      exact .replayed same put rfl rfl
    · obtain ⟨event, recorded, body⟩ := terminal_events input.env old same
      refine .late _ event same put recorded body (terminal_late result attempt candidate) ?_ ?_
      · unfold terminal
        rw [if_neg same]
      · unfold terminal
        rw [if_neg same]

/-- The accepted bytes are replayed. -/
theorem Store.Sound.replayed
    {submission' : Submission} (sound : store.Sound) (member : rows ∈ store.requests)
    (recorded : rows.Accepted attemptId submission receipt) (accepted : receipt.accepted = true)
    (sameBytes : submission'.result = submission.result)
    (committed : perform store input = .ok (store', answer))
    (submits : input.action.submits? = some (attemptId, submission')) :
    answer.receipt? = some { receipt with reason := "replayed" } ∧
      store' = { store with clock := input.env.clock } := by
  obtain ⟨old, results, resultId, payload⟩ := recorded.result
  obtain ⟨given, answered, givenId, givenPayload, resubmitted⟩ :=
    sound.resubmitted member recorded.attempt results committed submits
  have sameHash : submission'.hash = submission.hash := congrArg ResultHash.canonical sameBytes
  cases resubmitted with
  | replayed same unchanged isAccepted reason =>
    refine ⟨answered.trans (congrArg some ?_), unchanged⟩
    obtain ⟨first, second, third, fourth⟩ := given
    obtain rfl := isAccepted
    obtain rfl := reason
    obtain rfl := givenId
    obtain rfl := givenPayload
    rw [resultId, payload, accepted]
  | late rows' event other => exact (other (by rw [sameHash]; exact recorded.hash)).elim

/-- Submissions to a request that has ended are late, or change nothing. -/
theorem Store.Sound.late {inputs : List Input} (sound : store.Sound)
    (submit : ∀ input ∈ inputs, input.action.submits?.isSome = true)
    (member : rows ∈ store.requests) (member' : rows' ∈ (run execute store inputs).requests)
    (sameId : rows'.request.id = rows.request.id) (ended : rows.request.state.Terminal) :
    rows.Late rows' := by
  refine sound.along (fun _ input => input.action.submits?.isSome = true)
    (fun rows rows' => rows.request.state.Terminal → rows.Late rows')
    (fun rows _ => .refl rows) ?_ ?_ (everyStep_of_forall (fun _ => submit) store)
    member member' sameId ended
  · intro first second third earlier next ended
    have late := earlier ended
    refine late.trans (next ?_)
    rw [late.others]
    exact ended
  · intro store input rows rows' sound submits member member' sameId ended
    obtain ⟨⟨attemptId, submission⟩, submits⟩ := Option.isSome_iff_exists.mp submits
    rcases sound.execute_cases input with ⟨⟨answer, committed⟩, -⟩ | same
    · rcases sound.transaction_rows committed (submits_works submits) member
        member' sameId with rfl | written
      · exact .refl rows'
      · obtain ⟨old, inResults, -⟩ := (sound.consistent rows member).canonical.outcome ended
        obtain ⟨result, found⟩ : ∃ result, rows.result? = some result := by
          rw [RequestRows.result?]
          cases results : rows.results with
          | nil =>
            rw [results] at inResults
            cases inResults
          | cons first rest => exact ⟨first, rfl⟩
        obtain ⟨x, -, -, attempt, candidate, rfl, -⟩ := submits_terminal written submits found
        exact terminal_late found attempt candidate
    · rw [same] at member'
      obtain rfl := sound.request_unique member member' sameId
      exact .refl rows'

end Accepted

/-! ## Runs -/

/-- One canonical result, forever. The last attempt agrees with it in every run
without a stale stop. -/
theorem canonical_result (inputs : List Input) :
    (∀ rows ∈ (after inputs).requests, rows.Canonical) ∧
      (∀ earlier, earlier <+: inputs → ∀ rows ∈ (after earlier).requests,
        rows.request.state.Terminal → ∀ rows' ∈ (after inputs).requests,
          rows'.request.id = rows.request.id →
            rows'.request.state = rows.request.state ∧
              rows'.request.version = rows.request.version ∧
              rows'.request.resultId = rows.request.resultId ∧
              rows'.results = rows.results) ∧
      (∀ earlier input store answer attemptId submission receipt,
        earlier ++ [input] <+: inputs →
        perform (after earlier) input = .ok (store, answer) →
        input.action.submits? = some (attemptId, submission) →
        answer.receipt? = some receipt → receipt.accepted = true →
        ∀ again store' answer' submission',
          again.action.submits? = some (attemptId, submission') →
          submission'.result = submission.result →
          perform (after inputs) again = .ok (store', answer') →
          answer'.receipt? = some { receipt with reason := "replayed" } ∧
            store' = { after inputs with clock := again.env.clock }) ∧
      (∀ rows ∈ (after inputs).requests, ∀ old, rows.results = [old] →
        ∀ again store answer attemptId submission,
          again.action.submits? = some (attemptId, submission) →
          (∃ a ∈ rows.attempts, a.id = attemptId) →
          perform (after inputs) again = .ok (store, answer) →
          ∃ receipt, answer.receipt? = some receipt ∧
            receipt.resultId = some old.id ∧
            receipt.result = some old.payload ∧
            Resubmitted (after inputs) store again.env rows attemptId submission
              receipt) ∧
      (∀ first second : List Input,
        (∀ input ∈ first ++ second, input.action.submits?.isSome = true) →
        ∀ rows ∈ (after inputs).requests, rows.request.state.Terminal →
          ∀ rows₁ ∈ (run execute (after inputs) first).requests,
          ∀ rows₂ ∈ (run execute (after inputs) (first ++ second)).requests,
            rows₁.request.id = rows.request.id →
            rows₂.request.id = rows.request.id →
            rows.Late rows₂ ∧ (rows₁.jobs = rows.jobs ∨ rows₂.jobs = rows₁.jobs)) ∧
      (EveryStep execute (fun store input => ¬ input.StaleStop store) Store.empty inputs →
        ∀ rows ∈ (after inputs).requests, rows.LastAttemptAgrees) := by
  have sound := sound_after inputs
  refine ⟨?_, ?_, ?_, ?_, ?_, ?_⟩
  · exact fun rows member => (sound.consistent rows member).canonical
  · intro earlier isPrefix rows member ended rows' member' sameId
    obtain ⟨rest, same⟩ := run_of_prefix isPrefix
    rw [same] at member'
    have kept := (sound_after earlier).sameEnd rest member member' sameId ended
    exact ⟨kept.state, kept.version, kept.resultId, kept.results⟩
  · intro earlier input store answer attemptId submission receipt isPrefix
      committed submits received accepted again store' answer' submission'
      submitsAgain sameBytes committed'
    have earlierSound := sound_after earlier
    obtain ⟨before, old, old', later, changes, split, split', written, -,
      evolves⟩ := earlierSound.transaction committed (submits_works submits)
    have inStore : old ∈ (after earlier).requests := by rw [split]; simp
    have inNext : old' ∈ (after (earlier ++ [input])).requests := by
      rw [after_next committed, split']
      simp
    have grown : (lifeOf old).Later (lifeOf old') := by
      rw [evolves.refines.life]
      exact Life.later_applyAll _ changes
    have recorded := accepted_rows (earlierSound.consistent old inStore) written
      grown submits received accepted
    obtain ⟨rest, same⟩ := run_of_prefix isPrefix
    obtain ⟨rows, member, kept⟩ :=
      (sound_after (earlier ++ [input])).accepted_later rest inNext recorded
    rw [← same] at member
    exact sound.replayed member kept accepted sameBytes committed' submitsAgain
  · intro rows member old results again store answer attemptId submission
      submits own committed
    exact sound.resubmitted member own results committed submits
  · intro first second submit rows member ended rows₁ member₁ rows₂ member₂
      sameId₁ sameId₂
    have early := sound.late
      (fun input inside => submit input (List.mem_append_left _ inside)) member
      member₁ sameId₁ ended
    rw [run_append] at member₂
    have ended₁ : rows₁.request.state.Terminal := by
      rw [early.others]
      exact ended
    have next := (sound.afterRun first).late
      (fun input inside => submit input (List.mem_append_right _ inside))
      member₁ member₂ (sameId₂.trans sameId₁.symm) ended₁
    exact ⟨early.trans next, early.written.imp_right next.once⟩
  · intro admitted rows member
    exact (settled_after admitted rows member).lastAttemptAgrees

namespace Deployment

def failedResult : DispatchResult :=
  { outcome := .failed
    summary := "broken"
    reportMarkdown := "report"
    checks := []
    code := none
    review := none }

/-- The supervisor submits that the first attempt failed. -/
def submitFailed (moment : Timestamp) : Input :=
  input moment (.acceptFinish owner (.proof (proof 600 1 700))
    { result := failedResult, usage := none } failedResult)

/-- The first attempt failed, with its result. -/
def failed : List Input :=
  finished ++ [sendStop 11 1002, submitFailed 12]

end Deployment

/-- The result of the first attempt, submitted again. -/
theorem canonical_deployment :
    (∀ rows ∈ (after Deployment.failed).requests, rows.Canonical) ∧
      ∃ (receipt : ResultReceipt) (store : Store) (answer : Answer),
        perform (after Deployment.failed) (Deployment.submitFailed 13) =
          .ok (store, answer) ∧
        answer.receipt? = some { receipt with reason := "replayed" } ∧
        store = { after Deployment.failed with clock := 13 } := by
  obtain ⟨canonical, -, replayed, -⟩ := canonical_result Deployment.failed
  refine ⟨canonical, ?_⟩
  obtain ⟨⟨store, answer⟩, committed⟩ : ∃ value,
      perform (after (Deployment.finished ++ [Deployment.sendStop 11 1002]))
        (Deployment.submitFailed 12) = .ok value :=
    exists_of_isOk (by decide +kernel)
  obtain ⟨⟨store', answer'⟩, committed'⟩ : ∃ value,
      perform (after Deployment.failed) (Deployment.submitFailed 13) =
        .ok value :=
    exists_of_isOk (by decide +kernel)
  have received : ∃ receipt : ResultReceipt, answer.receipt? = some receipt ∧
      receipt.accepted = true := by
    have known : ((perform (after (Deployment.finished ++ [Deployment.sendStop 11 1002]))
        (Deployment.submitFailed 12)).toOption.bind fun value =>
          value.2.receipt?.map ResultReceipt.accepted) = some true := by
      decide +kernel
    rw [committed] at known
    have known : answer.receipt?.map ResultReceipt.accepted = some true := known
    exact Option.map_eq_some_iff.mp known
  obtain ⟨receipt, received, accepted⟩ := received
  obtain ⟨answered, unchanged⟩ := replayed (Deployment.finished ++ [Deployment.sendStop 11 1002])
    (Deployment.submitFailed 12) store answer 700 _ receipt List.prefix_rfl
    committed rfl received accepted (Deployment.submitFailed 13) store' answer'
    _ rfl rfl committed'
  exact ⟨receipt, store', answer', committed', answered, unchanged⟩

/-- After a stale stop, the result is of an attempt that is not the last. -/
theorem stale_stop_disagrees :
    ¬ ∀ inputs : List Input,
      ∀ rows ∈ (after inputs).requests, rows.LastAttemptAgrees := by
  intro always
  have ended : ∃ rows ∈ (after Deployment.staleStopped).requests,
      ∃ result ∈ rows.results, ∃ id ∈ result.attemptId,
        ∀ a ∈ rows.attempts.getLast?,
          a.state ≠ result.outcome.attemptState := by
    decide +kernel
  obtain ⟨rows, member, result, inResults, id, named, others⟩ := ended
  obtain ⟨a, last, -, state, -⟩ := always _ rows member result inResults id named
  exact others a last state

end Dispatch
end Scrum4Me
