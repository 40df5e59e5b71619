import Scrum4Me.Guarantees.Races

/-!
# Retry authority

An operator's authorization buys one more attempt, once everything that ran
before has provably ended. Without one, a request that was claimed before gets
neither a candidate nor an attempt.
-/

namespace Scrum4Me
namespace Dispatch

open Foundation

/-! ## Changes that start something new -/

/-- The change that gives a request a new candidate or a new attempt. -/
def Change.Begins : Change → Prop
  | .reserve _ _ _ _ => True
  | .claim _ _ _ _ => True
  | _ => False

section Lives

variable {free : Uuid → Prop} {life : Life}

/-- The candidates and attempts of a life, by their keys. -/
def Life.beginnings (life : Life) : List Uuid × List Uuid :=
  (life.candidates.map CandidateLife.id, life.attempts.map AttemptLife.id)

theorem Life.beginnings_congr {life' : Life} (candidates : life'.candidates.map CandidateLife.id =
      life.candidates.map CandidateLife.id) (attempts : life'.attempts.map AttemptLife.id =
      life.attempts.map AttemptLife.id) :
    life'.beginnings = life.beginnings := by
  rw [beginnings, beginnings, candidates, attempts]

/-- An execution moves or closes: its rows keep their keys. -/
theorem Life.beginnings_execution
    {life' : Life} {x : Execution} {candidate : CandidateLife → CandidateLife}
    {attempt : AttemptLife → AttemptLife} (candidates : life'.candidates =
      updateWhere (fun row => row.id = x.candidate.id) candidate life.candidates)
    (attempts : life'.attempts =
      updateWhere (fun row => row.id = x.attempt.id) attempt life.attempts)
    (sameCandidate : ∀ row, (candidate row).id = row.id)
    (sameAttempt : ∀ row, (attempt row).id = row.id) :
    life'.beginnings = life.beginnings := by
  apply Life.beginnings_congr
  · rw [candidates]
    exact map_updateWhere_of_unchanged sameCandidate _
  · rw [attempts]
    exact map_updateWhere_of_unchanged sameAttempt _

theorem Change.beginnings_retireCandidate (candidate : CandidateLife) :
    (retireCandidate candidate life).beginnings = life.beginnings :=
  Life.beginnings_congr (map_updateWhere_of_unchanged (by intro row; rfl) _) rfl

/-- Any other change begins nothing. -/
theorem Change.beginnings_apply {change : Change} (silent : ¬ change.Begins) (life : Life) :
    (change.apply life).beginnings = life.beginnings := by
  cases change with
  | reserve => exact (silent trivial).elim
  | claim => exact (silent trivial).elim
  | retire candidate => exact beginnings_retireCandidate candidate
  | abandon candidate result =>
    cases candidate with
    | none => rfl
    | some row => exact beginnings_retireCandidate row
  | stop => exact Life.beginnings_congr rfl (map_updateWhere_of_unchanged (by intro row; rfl) _)
  | start x =>
    exact Life.beginnings_execution (x := x) rfl rfl (by intro row; rfl) (by intro row; rfl)
  | resume x =>
    exact Life.beginnings_execution (x := x) rfl rfl (by intro row; rfl) (by intro row; rfl)
  | lapse x =>
    exact Life.beginnings_execution (x := x) rfl rfl (by intro row; rfl) (by intro row; rfl)
  | requestStop x =>
    exact Life.beginnings_execution (x := x) rfl rfl (by intro row; rfl) (by intro row; rfl)
  | finish x =>
    exact Life.beginnings_execution (x := x) rfl rfl (by intro row; rfl) (by intro row; rfl)
  | recover x =>
    exact Life.beginnings_execution (x := x) rfl rfl (by intro row; rfl) (by intro row; rfl)
  | retry x =>
    exact Life.beginnings_execution (x := x) rfl rfl (by intro row; rfl) (by intro row; rfl)
  | _ => rfl

theorem Life.beginnings_applyAll
    {changes : List Change} (silent : ∀ change ∈ changes, ¬ change.Begins) (life : Life) :
    (life.applyAll changes).beginnings = life.beginnings := by
  induction changes generalizing life with
  | nil => rfl
  | cons change rest ih =>
    exact (ih (fun other member => silent other (List.mem_cons_of_mem _ member))
      _).trans (Change.beginnings_apply (silent change List.mem_cons_self) life)

end Lives

variable {changes : List Change}

theorem StopPath.not_begins (path : StopPath changes) : ∀ change ∈ changes, ¬ change.Begins := by
  cases path <;> simp [Change.Begins]

theorem RecoveryPath.not_begins {mode : RecoveryMode} (path : RecoveryPath mode changes) :
    ∀ change ∈ changes, ¬ change.Begins := by
  have ends : ∀ {change}, RecoveryEnd mode change → ¬ change.Begins := by
    intro change ends
    cases ends <;> exact not_false
  cases path with
  | replayed => simp
  | decided change last =>
    intro other member
    obtain rfl := List.mem_singleton.mp member
    exact ends last
  | stoppedAndDecided x mark change last =>
    intro other member
    rcases List.mem_cons.mp member with rfl | member
    · exact not_false
    · obtain rfl := List.mem_singleton.mp member
      exact ends last

theorem CancelPath.not_begins (path : CancelPath changes) :
    ∀ change ∈ changes, ¬ change.Begins := by
  cases path <;> simp [Change.Begins]

/-- What begins something is the only change of its transaction. -/
theorem Action.Makes.begins {action : Action} (makes : action.Makes changes) :
    (∀ change ∈ changes, ¬ change.Begins) ∨ ∃ change, change.Begins ∧ changes = [change] := by
  cases action with
  | recover => exact .inl (RecoveryPath.not_begins makes)
  | cancel =>
    rcases makes with rfl | ⟨earlier, key, digest, path, rfl⟩
    · exact .inl (by simp)
    · refine .inl fun change member => ?_
      rcases mem_inserted.mp member with early | rfl
      · exact path.not_begins change early
      · exact not_false
  | submitStop => exact .inl (StopPath.not_begins makes)
  | submitHistoricalStop => exact .inl (StopPath.not_begins makes)
  | submitClaimBoundStop => exact .inl (StopPath.not_begins makes)
  | closeSignedOff => exact .inl (StopPath.not_begins makes)
  | reserve =>
    rcases makes with rfl | ⟨candidate, result, rfl⟩ | ⟨reason, rfl⟩ |
      ⟨candidateId, slotId, route, jobId, rfl⟩
    · exact .inl (by simp)
    · exact .inl (by simp [Change.Begins])
    · exact .inl (by simp [Change.Begins])
    · exact .inr ⟨_, by trivial, rfl⟩
  | claim =>
    obtain ⟨candidate, slotId, attemptId, rfl⟩ := makes
    exact .inr ⟨_, by trivial, rfl⟩
  | _ =>
    left
    simp only [Action.Makes] at makes
    grind [Change.Begins]

/-! ## Requests -/

/-- Everything that ran for the request has provably ended, and its live
authorization was not yet consumed. -/
structure RequestRows.RetryReady (rows : RequestRows) (authorization : Uuid) :
    Prop where
  live : rows.request.retryAuthorizationEventId = some authorization
  granted : authorization ∈ rows.retryAuthorizations.map RetryFact.eventId
  unconsumed : ∀ consumption ∈ rows.retryConsumptions,
    consumption.1 ≠ authorization
  settled : ¬ rows.UnresolvedPublication
  ended : ∀ a ∈ rows.attempts, a.state.Terminal ∧ a.stoppedAt ≠ none ∧
    a.revokedAt ≠ none ∧ rows.stopsOf a.id ≠ []

section Requests

variable {store : Store} {input : Input} {rows rows' : RequestRows}

theorem retryReady_of_life (authorized : (lifeOf rows).RetryAuthorized) :
    ∃ authorization, rows.RetryReady authorization := by
  obtain ⟨authorization, live, granted, unconsumed, settled, ended⟩ := authorized
  refine ⟨authorization, live, granted, unconsumed, ?_, ?_⟩
  · rwa [unresolved_lifeOf] at settled
  · intro a member
    obtain ⟨terminal, stopped, revoked, accepted⟩ := ended a.life (List.mem_map_of_mem member)
    exact ⟨terminal, Option.isSome_iff_ne_none.mp stopped, Option.isSome_iff_ne_none.mp revoked,
      (stopOf_lifeOf rows a.id).mp accepted⟩

/-- A request begins something new in one change, or not at all. -/
theorem Store.Sound.begins (sound : store.Sound) (member : rows ∈ store.requests)
    (member' : rows' ∈ (execute store input).requests)
    (sameId : rows'.request.id = rows.request.id) :
    (lifeOf rows').beginnings = (lifeOf rows).beginnings ∨ ∃ change : Change, change.Begins ∧
        change.Allowed store.Free (lifeOf rows) ∧ lifeOf rows' = change.apply (lifeOf rows) := by
  cases sound.successor member member' sameId with
  | kept life => exact .inl (by rw [life])
  | changed changes evolves =>
    rcases evolves.makes.begins with silent | ⟨change, begins, rfl⟩
    · left
      rw [evolves.refines.life]
      exact Life.beginnings_applyAll silent _
    · exact .inr ⟨change, begins, evolves.refines.path.1, evolves.refines.life⟩

/-- What a request that was claimed before begins, it has an authority for. -/
theorem Store.Sound.retryReady (sound : store.Sound) (claimed : rows.request.firstClaimedAt ≠ none)
    (member : rows ∈ store.requests) (member' : rows' ∈ (execute store input).requests)
    (sameId : rows'.request.id = rows.request.id) :
    (lifeOf rows').beginnings = (lifeOf rows).beginnings ∨
      ∃ authorization, rows.RetryReady authorization := by
  rcases sound.begins member member' sameId with same |
    ⟨change, begins, allowed, -⟩
  · exact .inl same
  · have claimed : (lifeOf rows).claimed = true := Option.isSome_iff_ne_none.mpr claimed
    cases change with
    | reserve => exact .inr (retryReady_of_life (allowed.2.1 claimed))
    | claim =>
      obtain ⟨-, -, -, -, -, authorized, -⟩ := allowed
      exact .inr (retryReady_of_life (authorized claimed))
    | _ => exact begins.elim

/-- The attempt that a claim inserts. -/
theorem Store.Sound.claims (sound : store.Sound) (member : rows ∈ store.requests)
    (member' : rows' ∈ (execute store input).requests)
    (sameId : rows'.request.id = rows.request.id) :
    rows'.attempts.map AttemptRow.id = rows.attempts.map AttemptRow.id ∨ ∃ attemptId,
        rows'.attempts.map AttemptRow.id = rows.attempts.map AttemptRow.id ++ [attemptId] ∧
        (rows.request.firstClaimedAt ≠ none → ∃ authorization, rows.RetryReady authorization ∧
            rows'.retryConsumptions = rows.retryConsumptions ++ [(authorization, attemptId)]) := by
  have keys : ∀ rows : RequestRows,
      rows.attempts.map AttemptRow.id = (lifeOf rows).attempts.map AttemptLife.id := by
    intro rows
    simp only [lifeOf, List.map_map]
    rfl
  rcases sound.begins member member' sameId with same |
    ⟨change, begins, allowed, life⟩
  · left
    rw [keys, keys]
    exact congrArg Prod.snd same
  · cases change with
    | reserve =>
      left
      rw [keys, keys, life]
      rfl
    | claim candidate slotId attemptId key =>
      obtain ⟨-, -, -, -, -, authorized, -⟩ := allowed
      refine .inr ⟨attemptId, ?_, fun claimed => ?_⟩
      · rw [keys, keys, life]
        show ((lifeOf rows).attempts ++ [_]).map AttemptLife.id = _
        rw [List.map_append]
        rfl
      · obtain ⟨authorization, ready⟩ := retryReady_of_life
          (authorized (Option.isSome_iff_ne_none.mpr claimed))
        refine ⟨authorization, ready, ?_⟩
        have consumptions := congrArg Life.consumptions life
        refine consumptions.trans ?_
        have live : (lifeOf rows).authority = some authorization := ready.live
        show rows.retryConsumptions ++ (lifeOf rows).authority.toList.map _ = _
        rw [live]
        rfl
    | _ => exact begins.elim

end Requests

/-! ## Runs -/

/-- Retry authority is linear. -/
theorem retry_authority (inputs : List Input) :
    (∀ rows ∈ (after inputs).requests,
        rows.attempts.length ≤ 1 + rows.retryAuthorizations.length ∧
          (rows.retryAuthorizations.map RetryFact.eventId).Nodup ∧
          (rows.retryConsumptions.map Prod.fst).Nodup ∧
          ∀ consumption ∈ rows.retryConsumptions,
            consumption.1 ∈ rows.retryAuthorizations.map RetryFact.eventId) ∧
      ∀ input, ∀ rows ∈ (after inputs).requests,
        ∀ rows' ∈ (execute (after inputs) input).requests,
          rows'.request.id = rows.request.id →
          (rows'.attempts.map AttemptRow.id = rows.attempts.map AttemptRow.id ∨
            ∃ attemptId,
              rows'.attempts.map AttemptRow.id =
                rows.attempts.map AttemptRow.id ++ [attemptId] ∧
              (rows.attempts ≠ [] →
                ∃ authorization, rows.RetryReady authorization ∧
                  rows'.retryConsumptions =
                    rows.retryConsumptions ++ [(authorization, attemptId)])) ∧
          (rows.request.firstClaimedAt ≠ none →
            (∀ authorization ∈ rows.request.retryAuthorizationEventId,
              ∃ consumption ∈ rows.retryConsumptions,
                consumption.1 = authorization) →
            rows'.candidates.map CandidateRow.id =
                rows.candidates.map CandidateRow.id ∧
              rows'.attempts.map AttemptRow.id =
                rows.attempts.map AttemptRow.id) := by
  have sound := sound_after inputs
  have accounts : ∀ rows ∈ (after inputs).requests,
      (lifeOf rows).RetryAccounts := by
    intro rows member
    obtain ⟨past, current, consistent⟩ := sound.consistent rows member
    exact consistent.retries
  constructor
  · intro rows member
    have own := accounts rows member
    refine ⟨?_, own.distinct, own.linear, own.granted⟩
    have attempts : rows.attempts.length = (if (lifeOf rows).claimed = true then 1 else 0) +
          rows.retryConsumptions.length := by
      have counted := own.attempts
      simp only [lifeOf, List.length_map] at counted ⊢
      exact counted
    have consumed : (rows.retryConsumptions.map Prod.fst).length ≤
        (rows.retryAuthorizations.map RetryFact.eventId).length := by
      apply List.Subperm.length_le
      apply List.subperm_of_subset own.linear
      intro authorization member
      obtain ⟨consumption, inside, rfl⟩ := List.mem_map.mp member
      exact own.granted consumption inside
    rw [List.length_map, List.length_map] at consumed
    split at attempts <;> omega
  · intro input rows member rows' member' sameId
    have claimed : rows.attempts ≠ [] → rows.request.firstClaimedAt ≠ none := by
      intro some' unclaimed
      have own := accounts rows member
      have never : (lifeOf rows).claimed = false := by
        simp [lifeOf, unclaimed]
      have counted := own.attempts
      rw [never, own.unclaimed never] at counted
      simp only [lifeOf, List.length_map] at counted
      exact some' (List.length_eq_zero_iff.mp counted)
    constructor
    · rcases sound.claims member member' sameId with same |
        ⟨attemptId, appended, authorized⟩
      · exact .inl same
      · exact .inr ⟨attemptId, appended,
          fun some' => authorized (claimed some')⟩
    · intro before spent
      rcases sound.retryReady before member member' sameId with same |
        ⟨authorization, ready⟩
      · have candidates := congrArg Prod.fst same
        have attempts := congrArg Prod.snd same
        simp only [Life.beginnings, lifeOf, List.map_map] at candidates attempts
        exact ⟨candidates, attempts⟩
      · obtain ⟨consumption, inside, sameAuthorization⟩ :=
          spent authorization ready.live
        exact (ready.unconsumed consumption inside sameAuthorization).elim

/-- The second attempt of the first request takes the only authorization. -/
theorem retry_deployment :
    ∀ rows ∈ (after Deployment.retried).requests,
      rows.attempts.length = 2 ∧ rows.retryAuthorizations.length = 1 ∧
        rows.attempts.length ≤ 1 + rows.retryAuthorizations.length := by
  have counted : ∀ rows ∈ (after Deployment.retried).requests,
      rows.attempts.length = 2 ∧ rows.retryAuthorizations.length = 1 := by
    decide +kernel
  obtain ⟨linear, -⟩ := retry_authority Deployment.retried
  exact fun rows member => ⟨(counted rows member).1, (counted rows member).2,
    (linear rows member).1⟩

end Dispatch
end Scrum4Me
