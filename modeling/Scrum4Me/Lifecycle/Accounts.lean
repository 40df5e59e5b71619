import Scrum4Me.Lifecycle.Life

/-!
# The books of a request

What the events, the results and the announcements of a request say about its
attempts, kept in agreement by every change: stops, retries, canonical results
and versions each balance on their own.
-/

namespace Scrum4Me
namespace Dispatch

open Foundation

variable {life life' : Life} {x : Execution} {free : Uuid → Prop}

/-- Attempts are told apart by their identifiers. -/
def Life.AttemptsDistinct (life : Life) : Prop :=
  (life.attempts.map AttemptLife.id).Nodup

theorem Life.AttemptsDistinct.eq (distinct : life.AttemptsDistinct) {first second : AttemptLife}
    (firstMember : first ∈ life.attempts) (secondMember : second ∈ life.attempts)
    (sameId : first.id = second.id) :
    first = second :=
  List.inj_on_of_nodup_map distinct firstMember secondMember sameId

/-! ## Stops -/

/-- The events of an attempt agree with its columns. -/
structure AttemptLife.Recorded (a : AttemptLife) (life : Life) : Prop where
  stops :
    (life.stops.map StopLife.attemptId).count (some a.id) =
      if a.stopped = true then 1 else 0
  unscoped : ∀ stop ∈ life.stops, stop.attemptId = some a.id →
    stop.unscoped = true → a.started = false
  revoked : a.stopped = true → a.revoked = true
  claimed : a.state = .claimed → a.started = false
  running : a.state = .running → a.started = true

/-- Every attempt is recorded, and every accepted stop is of an attempt. -/
structure Life.StopAccounts (life : Life) : Prop where
  recorded : ∀ a ∈ life.attempts, a.Recorded life
  known :
    ∀ stop ∈ life.stops, ∃ a ∈ life.attempts, stop.attemptId = some a.id

/-- A stop was accepted exactly for the attempts that are marked stopped. -/
theorem AttemptLife.Recorded.stopOf_iff {a : AttemptLife} (recorded : a.Recorded life) :
    life.StopOf a.id ↔ a.stopped = true := by
  unfold Life.StopOf
  rw [← List.count_pos_iff, recorded.stops]
  split <;> simp_all

namespace Life.StopAccounts

/-- Nothing about stops and attempts changed. -/
theorem congr (accounts : life.StopAccounts) (attempts : life'.attempts = life.attempts)
    (stops : life'.stops = life.stops) :
    life'.StopAccounts where
  recorded := by
    intro a member
    rw [attempts] at member
    have recorded := accounts.recorded a member
    exact
      { recorded with
        stops := by rw [stops, recorded.stops]
        unscoped := by rw [stops]; exact recorded.unscoped }
  known := by
    rw [stops, attempts]
    exact accounts.known

/-- One attempt changed, but not whether it stopped. -/
theorem setAttempt (accounts : life.StopAccounts) (distinct : life.AttemptsDistinct)
    (member : x.attempt ∈ life.attempts) (change : AttemptLife → AttemptLife)
    (attempts : life'.attempts = (life.setAttempt x.attempt.id change).attempts)
    (stops : life'.stops = life.stops) (sameId : ∀ a, (change a).id = a.id)
    (sameStop : ∀ a, (change a).stopped = a.stopped)
    (revoked : x.attempt.revoked = true → (change x.attempt).revoked = true)
    (started : (change x.attempt).started = x.attempt.started ∨ x.attempt.revoked = false)
    (claimed : (change x.attempt).state = .claimed → (change x.attempt).started = false)
    (running : (change x.attempt).state = .running → (change x.attempt).started = true) :
    life'.StopAccounts where
  recorded := by
    intro a inside
    rw [attempts] at inside
    rcases mem_updateWhere.mp inside with
      ⟨old, oldMember, found, rfl⟩ | ⟨oldMember, -⟩
    · obtain rfl : old = x.attempt := distinct.eq oldMember member (of_decide_eq_true found)
      have recorded := accounts.recorded _ member
      refine ⟨?_, ?_, ?_, claimed, running⟩
      · rw [stops, sameId, sameStop]
        exact recorded.stops
      · rw [stops, sameId]
        intro stop accepted named
        rcases started with same | notRevoked
        · rw [same]
          exact recorded.unscoped stop accepted named
        · have stopped := recorded.stopOf_iff.mp (List.mem_map.mpr ⟨stop, accepted, named⟩)
          rw [recorded.revoked stopped] at notRevoked
          cases notRevoked
      · rw [sameStop]
        exact fun stopped => revoked (recorded.revoked stopped)
    · have recorded := accounts.recorded a oldMember
      exact
        { recorded with
          stops := by rw [stops, recorded.stops]
          unscoped := by rw [stops]; exact recorded.unscoped }
  known := by
    intro stop accepted
    rw [stops] at accepted
    obtain ⟨a, own, same⟩ := accounts.known stop accepted
    rw [attempts]
    by_cases found : decide (a.id = x.attempt.id) = true
    · exact ⟨change a, mem_updateWhere.mpr (.inl ⟨a, own, found, rfl⟩), by rw [sameId, same]⟩
    · exact ⟨a, mem_updateWhere.mpr (.inr ⟨own, by simpa using found⟩), same⟩

theorem claim (accounts : life.StopAccounts) {candidate : CandidateLife} {slotId attemptId : Uuid}
    {key : ClaimKey} (fresh : attemptId ∉ life.attempts.map AttemptLife.id) :
    ((Change.claim candidate slotId attemptId key).apply life).StopAccounts where
  recorded := by
    intro a member
    rcases mem_inserted.mp member with old | rfl
    · exact { accounts.recorded a old with }
    · have noStop : ¬ life.StopOf attemptId := by
        intro accepted
        obtain ⟨stop, member, same⟩ := List.mem_map.mp accepted
        obtain ⟨a, own, named⟩ := accounts.known stop member
        obtain rfl := Option.some.inj (same.symm.trans named)
        exact fresh (List.mem_map_of_mem own)
      exact
        { stops := List.count_eq_zero.mpr noStop
          unscoped := fun _ _ _ _ => rfl
          revoked := nofun
          claimed := fun _ => rfl
          running := nofun }
  known := by
    intro stop accepted
    obtain ⟨a, own, same⟩ := accounts.known stop accepted
    exact ⟨a, List.mem_append_left _ own, same⟩

theorem stop (accounts : life.StopAccounts) (distinct : life.AttemptsDistinct) {mark : StopMark}
    (allowed : (Change.stop x mark).Allowed free life) :
    ((Change.stop x mark).apply life).StopAccounts where
  recorded := by
    obtain ⟨inLife, fresh, unstarted⟩ := allowed
    intro a inside
    rcases mem_updateWhere.mp inside with
      ⟨old, oldMember, found, rfl⟩ | ⟨oldMember, missed⟩
    · obtain rfl : old = x.attempt := distinct.eq oldMember inLife.attempt (of_decide_eq_true found)
      have recorded := accounts.recorded _ inLife.attempt
      refine ⟨?_, ?_, fun _ => rfl, recorded.claimed, recorded.running⟩
      · show ((life.stops ++ [_]).map StopLife.attemptId).count _ = 1
        rw [List.map_append, List.count_append, List.count_eq_zero.mpr fresh]
        simp
      · intro stop accepted named unscoped
        rcases List.mem_append.mp accepted with old | new
        · exact recorded.unscoped stop old named unscoped
        · rw [List.mem_singleton.mp new] at unscoped
          exact unstarted unscoped
    · have recorded := accounts.recorded a oldMember
      have other : a.id ≠ x.attempt.id := of_decide_eq_false missed
      refine { recorded with stops := ?_, unscoped := ?_ }
      · show ((life.stops ++ [_]).map StopLife.attemptId).count _ = _
        rw [List.map_append, List.count_append, recorded.stops]
        simp [Ne.symm other]
      · intro stop accepted named
        rcases List.mem_append.mp accepted with old | new
        · exact recorded.unscoped stop old named
        · rw [List.mem_singleton.mp new] at named
          exact (other (Option.some.inj named).symm).elim
  known := by
    intro stop accepted
    have persists : ∀ a ∈ life.attempts, ∃ a' ∈
        ((Change.stop x mark).apply life).attempts, a'.id = a.id := by
      intro a own
      by_cases found : decide (a.id = x.attempt.id) = true
      · exact ⟨_, mem_updateWhere.mpr (.inl ⟨a, own, found, rfl⟩), rfl⟩
      · exact ⟨a, mem_updateWhere.mpr (.inr ⟨own, by simpa using found⟩), rfl⟩
    rcases mem_inserted.mp accepted with old | rfl
    · obtain ⟨a, own, same⟩ := accounts.known stop old
      obtain ⟨a', member, sameId⟩ := persists a own
      exact ⟨a', member, by rw [sameId, same]⟩
    · obtain ⟨a', member, sameId⟩ := persists _ allowed.1.attempt
      exact ⟨a', member, by rw [sameId]⟩

/-- Every change keeps the stops and their attempts in agreement. -/
theorem apply (accounts : life.StopAccounts) (distinct : life.AttemptsDistinct) (change : Change)
    (allowed : change.Allowed free life) :
    (change.apply life).StopAccounts := by
  cases change with
  | abandon candidate => cases candidate <;> exact accounts.congr rfl rfl
  | claim => exact accounts.claim allowed.2.2.2.2.2.2.1
  | start x scope =>
    obtain ⟨inLife, -, -, notRevoked, -⟩ := allowed
    exact accounts.setAttempt distinct inLife.attempt (fun row =>
        { row with
          state := .running
          scopeId := some scope.scopeId
          started := true })
      rfl rfl (fun _ => rfl) (fun _ => rfl) id (.inr notRevoked) nofun
      fun _ => rfl
  | resume x =>
    obtain ⟨inLife, -, -, -, started, -⟩ := allowed
    exact accounts.setAttempt distinct inLife.attempt (fun row => { row with state := .running })
      rfl rfl (fun _ => rfl) (fun _ => rfl) id (.inl rfl) nofun
      fun _ => started
  | lapse x =>
    exact accounts.setAttempt distinct allowed.1.attempt
      (fun row => { row with state := .uncertain })
      rfl rfl (fun _ => rfl) (fun _ => rfl) id (.inl rfl) nofun nofun
  | requestStop x =>
    exact accounts.setAttempt distinct allowed.1.attempt (fun row =>
        { row with state := .cancelRequested, revoked := true })
      rfl rfl (fun _ => rfl) (fun _ => rfl) (fun _ => rfl) (.inl rfl) nofun
      nofun
  | stop => exact accounts.stop distinct allowed
  | finish x result =>
    refine accounts.setAttempt distinct allowed.1.attempt (fun row =>
        { row with state := result.outcome.attemptState, revoked := true })
      rfl rfl (fun _ => rfl) (fun _ => rfl) (fun _ => rfl) (.inl rfl) ?_ ?_
    all_goals cases result.outcome <;> nofun
  | recover x result =>
    refine accounts.setAttempt distinct allowed.1.attempt (fun row =>
        { row with state := result.outcome.attemptState, revoked := true })
      rfl rfl (fun _ => rfl) (fun _ => rfl) (fun _ => rfl) (.inl rfl) ?_ ?_
    all_goals cases result.outcome <;> nofun
  | retry x =>
    exact accounts.setAttempt distinct allowed.1.attempt
      (fun row => { row with state := .failed, revoked := true })
      rfl rfl (fun _ => rfl) (fun _ => rfl) (fun _ => rfl) (.inl rfl) nofun
      nofun
  | _ => exact accounts.congr rfl rfl

end Life.StopAccounts

/-! ## Retries -/

/-- Every attempt but the first consumed an authority of its own. -/
structure Life.RetryAccounts (life : Life) : Prop where
  attempts :
    life.attempts.length = (if life.claimed = true then 1 else 0) + life.consumptions.length
  unclaimed : life.claimed = false → life.consumptions = []
  distinct : life.authorizations.Nodup
  linear : (life.consumptions.map Prod.fst).Nodup
  granted : ∀ consumption ∈ life.consumptions,
    consumption.1 ∈ life.authorizations
  live : ∀ authorization ∈ life.authority,
    life.claimed = true ∧ authorization ∈ life.authorizations

namespace Life.RetryAccounts

theorem congr (accounts : life.RetryAccounts)
    (attempts : life'.attempts.length = life.attempts.length)
    (claimed : life'.claimed = life.claimed) (authority : life'.authority = life.authority)
    (authorizations : life'.authorizations = life.authorizations)
    (consumptions : life'.consumptions = life.consumptions) :
    life'.RetryAccounts where
  attempts := by rw [attempts, claimed, consumptions, accounts.attempts]
  unclaimed := by rw [claimed, consumptions]; exact accounts.unclaimed
  distinct := by rw [authorizations]; exact accounts.distinct
  linear := by rw [consumptions]; exact accounts.linear
  granted := by
    rw [authorizations, consumptions]
    exact accounts.granted
  live := by
    rw [authority, claimed, authorizations]
    exact accounts.live

theorem claim (accounts : life.RetryAccounts) {candidate : CandidateLife} {slotId attemptId : Uuid}
    {key : ClaimKey} (authorized : life.claimed = true → life.RetryAuthorized) :
    ((Change.claim candidate slotId attemptId key).apply life).RetryAccounts := by
  have length := accounts.attempts
  cases claimed : life.claimed with
  | false =>
    have noAuthority : life.authority = none := by
      rw [Option.eq_none_iff_forall_ne_some]
      intro authorization live
      have := (accounts.live authorization live).1
      rw [claimed] at this
      cases this
    refine ⟨?_, nofun, accounts.distinct, ?_, ?_, nofun⟩
    · simp only [Change.apply, Change.consume, Life.announced, Life.moved, Life.setJob,
        Life.setCandidate, Life.setReservation, noAuthority,
        List.length_append, length, claimed]
      simp
      omega
    · simpa [Change.apply, Change.consume, Life.announced, Life.moved, Life.setJob,
        Life.setCandidate, Life.setReservation, noAuthority]
        using accounts.linear
    · simpa [Change.apply, Change.consume, Life.announced, Life.moved, Life.setJob,
        Life.setCandidate, Life.setReservation, noAuthority]
        using accounts.granted
  | true =>
    obtain ⟨authorization, live, granted, unconsumed, -⟩ := authorized claimed
    have authority : life.authority = some authorization := live
    refine ⟨?_, nofun, accounts.distinct, ?_, ?_, nofun⟩
    · simp only [Change.apply, Change.consume, Life.announced, Life.moved, Life.setJob,
        Life.setCandidate, Life.setReservation, authority,
        List.length_append, length, claimed]
      simp
      omega
    · simp only [Change.apply, Change.consume, Life.announced, Life.moved, Life.setJob,
        Life.setCandidate, Life.setReservation, authority,
        Option.toList_some, List.map_cons, List.map_nil, List.map_append]
      refine List.nodup_append.mpr ⟨accounts.linear, by simp, ?_⟩
      intro old member other new same
      obtain rfl := List.mem_singleton.mp new
      obtain ⟨consumption, inside, rfl⟩ := List.mem_map.mp member
      exact unconsumed consumption inside same
    · intro consumption member
      simp only [Change.apply, Change.consume, Life.announced, Life.moved, Life.setJob,
        Life.setCandidate, Life.setReservation, authority,
        Option.toList_some, List.map_cons, List.map_nil] at member
      rcases mem_inserted.mp member with old | rfl
      · exact accounts.granted consumption old
      · exact granted

theorem retry (accounts : life.RetryAccounts) (claimed : life.claimed = true)
    {authorizationId : Uuid} (fresh : authorizationId ∉ life.authorizations) :
    ((Change.retry x authorizationId).apply life).RetryAccounts where
  attempts := by
    show (updateWhere _ _ life.attempts).length = _
    rw [length_updateWhere, accounts.attempts]
    rfl
  unclaimed := accounts.unclaimed
  distinct :=
    List.nodup_append.mpr ⟨accounts.distinct, by simp,
      fun old member other new same => fresh (by rwa [← List.mem_singleton.mp new, ← same])⟩
  linear := accounts.linear
  granted := fun consumption member => List.mem_append_left _ (accounts.granted consumption member)
  live := by
    intro authorization live
    obtain rfl := Option.some.inj live
    exact ⟨claimed, List.mem_append_right _ List.mem_cons_self⟩

/-- Every change keeps retries linear. -/
theorem apply (accounts : life.RetryAccounts) (change : Change)
    (allowed : change.Allowed free life) :
    (change.apply life).RetryAccounts := by
  cases change with
  | claim => exact accounts.claim allowed.2.2.2.2.2.1
  | retry x =>
    have claimed : life.claimed = true := by
      by_contra unclaimed
      have unclaimed : life.claimed = false := by simpa using unclaimed
      have length := accounts.attempts
      rw [unclaimed, accounts.unclaimed unclaimed] at length
      have none' := List.length_eq_zero_iff.mp length
      have member := allowed.1.attempt
      rw [none'] at member
      cases member
    exact accounts.retry claimed allowed.2.2.2.2.2
  | abandon candidate => cases candidate <;> exact accounts.congr rfl rfl rfl rfl rfl
  | reserve => exact accounts.congr rfl rfl rfl rfl rfl
  | retire => exact accounts.congr rfl rfl rfl rfl rfl
  | recordCancel => exact accounts.congr rfl rfl rfl rfl rfl
  | preparePublication => exact accounts.congr rfl rfl rfl rfl rfl
  | sendPublication => exact accounts.congr rfl rfl rfl rfl rfl
  | settlePublication => exact accounts.congr rfl rfl rfl rfl rfl
  | explain => exact accounts.congr rfl rfl rfl rfl rfl
  | _ => exact accounts.congr (length_updateWhere _ _ _) rfl rfl rfl rfl

end Life.RetryAccounts

/-! ## Canonical results -/

/-- A request has its canonical result exactly when it has ended. -/
structure Life.ResultAccounts (life : Life) : Prop where
  pending : ¬ life.state.Terminal →
    life.results = [] ∧ life.resultId = none ∧ life.acceptances = []
  canonical : life.state.Terminal → ∃ result,
    life.results = [result] ∧ life.resultId = some result.id ∧
      result.outcome.dispatchState = life.state ∧
      life.acceptances.map Prod.fst = (result.attemptId.map some).toList

namespace Life.ResultAccounts

theorem congr (accounts : life.ResultAccounts) (state : life'.state = life.state)
    (results : life'.results = life.results) (resultId : life'.resultId = life.resultId)
    (acceptances : life'.acceptances = life.acceptances) :
    life'.ResultAccounts where
  pending := by
    rw [state, results, resultId, acceptances]
    exact accounts.pending
  canonical := by
    rw [state, results, resultId, acceptances]
    exact accounts.canonical

/-- A request in progress stays in progress. -/
theorem advance (accounts : life.ResultAccounts) (state : DispatchState)
    (before : ¬ life.state.Terminal) (moved : life'.state = state)
    (later : ¬ state.Terminal) (results : life'.results = life.results)
    (resultId : life'.resultId = life.resultId)
    (acceptances : life'.acceptances = life.acceptances) :
    life'.ResultAccounts where
  pending := fun _ => by
    rw [results, resultId, acceptances]
    exact accounts.pending before
  canonical := fun ended => (later (moved ▸ ended)).elim

/-- A request in progress ends with its first result. -/
theorem conclude
    {result : ResultRow} (accounts : life.ResultAccounts) (before : ¬ life.state.Terminal)
    (state : life'.state = result.outcome.dispatchState)
    (results : life'.results = life.results ++ [result])
    (resultId : life'.resultId = some result.id) (accepted : List (Option Uuid × ResultHash))
    (acceptances : life'.acceptances = life.acceptances ++ accepted)
    (named : accepted.map Prod.fst = (result.attemptId.map some).toList) :
    life'.ResultAccounts where
  pending := fun notEnded => by
    rw [state] at notEnded
    exact (notEnded result.outcome.terminal_dispatchState).elim
  canonical := fun _ => by
    obtain ⟨noResult, -, noAcceptance⟩ := accounts.pending before
    refine ⟨result, ?_, resultId, state.symm, ?_⟩
    · rw [results, noResult, List.nil_append]
    · rw [acceptances, noAcceptance, List.nil_append]
      exact named

/-- Every change keeps the canonical result where it is, or writes the first. -/
theorem apply (accounts : life.ResultAccounts) (change : Change)
    (allowed : change.Allowed free life) :
    (change.apply life).ResultAccounts := by
  cases change with
  | reserve =>
    exact accounts.advance .reserved (by rw [allowed.1]; decide) rfl (by decide) rfl rfl rfl
  | retire =>
    exact accounts.advance .waiting (by rw [allowed.2.1]; decide) rfl (by decide) rfl rfl rfl
  | abandon candidate result =>
    obtain ⟨before, -, -, noAttempt, -⟩ := allowed
    refine accounts.conclude before (by cases candidate <;> rfl)
      (by cases candidate <;> rfl) (by cases candidate <;> rfl)
      [] (by cases candidate <;> exact (List.append_nil _).symm) ?_
    rw [noAttempt]
    rfl
  | claim =>
    exact accounts.advance .claimed (by rw [allowed.2.1]; decide) rfl (by decide) rfl rfl rfl
  | start =>
    obtain ⟨-, -, -, -, state⟩ := allowed
    exact accounts.advance .running
      (by rcases state with h | h <;> rw [h] <;> decide) rfl (by decide)
      rfl rfl rfl
  | resume =>
    obtain ⟨-, -, -, -, -, state⟩ := allowed
    exact accounts.advance .running (by rw [state]; decide) rfl (by decide) rfl rfl rfl
  | lapse =>
    obtain ⟨-, -, -, state, -⟩ := allowed
    exact accounts.advance .uncertain (by rcases state with h | h | h <;> rw [h] <;> decide) rfl
      (by decide) rfl rfl rfl
  | requestStop => exact accounts.advance .cancelRequested allowed.2.2.1 rfl (by decide) rfl rfl rfl
  | finish =>
    obtain ⟨-, -, -, -, attempt, before, -⟩ := allowed
    exact accounts.conclude before rfl rfl rfl _ rfl (by rw [attempt]; rfl)
  | recover =>
    obtain ⟨-, -, -, -, -, attempt, state, -⟩ := allowed
    exact accounts.conclude (by rcases state with h | h <;> rw [h] <;> decide) rfl rfl rfl _ rfl
      (by rw [attempt]; rfl)
  | retry =>
    obtain ⟨-, -, -, -, state, -⟩ := allowed
    exact accounts.advance .waiting (by rw [state]; decide) rfl (by decide) rfl rfl rfl
  | _ => exact accounts.congr rfl rfl rfl rfl

end Life.ResultAccounts

/-! ## Announcements -/

/-- Each version was announced once, and the newest announcement still holds,
but for the reason why a request waits. -/
structure Life.AnnouncementAccounts (life : Life) : Prop where
  versions :
    life.announcements.map DispatchProjection.version =
      List.range' 1 life.version
  rows : life.announcedVersions = List.range' 1 life.version
  newest : ∃ reason, life.announcements.getLast? =
    some { life.shown with reason := reason }

namespace Life.AnnouncementAccounts

theorem congr (accounts : life.AnnouncementAccounts)
    (announcements : life'.announcements = life.announcements)
    (rows : life'.announcedVersions = life.announcedVersions) (shown : ∀ reason,
      { life'.shown with reason := reason } = { life.shown with reason := reason }) :
    life'.AnnouncementAccounts where
  versions := by
    have version := congrArg DispatchProjection.version (shown "")
    rw [announcements, accounts.versions]
    exact congrArg (List.range' 1) version.symm
  rows := by
    have version := congrArg DispatchProjection.version (shown "")
    rw [rows, accounts.rows]
    exact congrArg (List.range' 1) version.symm
  newest := by
    obtain ⟨reason, newest⟩ := accounts.newest
    exact ⟨reason, by rw [announcements, newest, shown]⟩

/-- A new version is announced as the request shows itself under it. -/
theorem announced (accounts : life.AnnouncementAccounts) (announcements : life'.announcements =
      life.announcements ++ [life'.shown]) (rows : life'.announcedVersions =
      life.announcedVersions ++ [life.version + 1]) (version : life'.version = life.version + 1) :
    life'.AnnouncementAccounts where
  versions := by
    rw [announcements, List.map_append, accounts.versions, version, List.range'_concat]
    simp [Life.shown, version, Nat.add_comm]
  rows := by
    rw [rows, accounts.rows, version, List.range'_concat]
    simp [Nat.add_comm]
  newest := ⟨life'.shown.reason, by rw [announcements, List.getLast?_concat]⟩

end Life.AnnouncementAccounts

/-- A change that writes a new version. -/
def Change.Announces : Change → Prop
  | .stop _ _ => False
  | .recordCancel _ _ => False
  | .preparePublication _ _ _ => False
  | .sendPublication _ => False
  | .settlePublication _ _ => False
  | .explain _ => False
  | _ => True

instance (change : Change) : Decidable change.Announces := by
  cases change <;> first
    | exact isTrue trivial
    | exact isFalse not_false

/-- Closing an execution is not shown. -/
theorem Change.shown_closeExecution (x : Execution) (outcome : Outcome) (life : Life) :
    (closeExecution x outcome life).shown = life.shown := by
  have route : ((updateWhere (fun row => row.id = x.candidate.id)
          (fun row : CandidateLife => { row with state := .finished })
          life.candidates).find? fun candidate =>
            candidate.generation = life.generation).map CandidateLife.route =
        (life.candidates.find? fun candidate =>
          candidate.generation = life.generation).map CandidateLife.route :=
    find?_updateWhere (by intro row; rfl) (by intro row; rfl) life.candidates
  exact congrArg (fun route => { life.shown with route := route }) route

/-- A new version is announced as the request shows itself under it. -/
theorem Change.announces {change : Change} (announces : change.Announces) (life : Life) :
    (change.apply life).announcements = life.announcements ++ [(change.apply life).shown] ∧
      (change.apply life).announcedVersions = life.announcedVersions ++ [life.version + 1] ∧
      (change.apply life).version = life.version + 1 := by
  cases change with
  | stop => exact announces.elim
  | recordCancel => exact announces.elim
  | preparePublication => exact announces.elim
  | sendPublication => exact announces.elim
  | settlePublication => exact announces.elim
  | explain => exact announces.elim
  | abandon candidate => cases candidate <;> exact ⟨rfl, rfl, rfl⟩
  | finish x result submitted =>
    exact ⟨congrArg (life.announcements ++ [·])
      (shown_closeExecution x result.outcome _).symm, rfl, rfl⟩
  | recover x result submitted =>
    exact ⟨congrArg (life.announcements ++ [·])
      (shown_closeExecution x result.outcome _).symm, rfl, rfl⟩
  | _ => exact ⟨rfl, rfl, rfl⟩

/-- Any other change shows the same request, but for its waiting reason. -/
theorem Change.silent {change : Change} (silent : ¬ change.Announces) (life : Life) :
    (change.apply life).announcements = life.announcements ∧
      (change.apply life).announcedVersions = life.announcedVersions ∧
      ∀ reason, { (change.apply life).shown with reason := reason } =
        { life.shown with reason := reason } := by
  cases change with
  | stop => exact ⟨rfl, rfl, fun _ => rfl⟩
  | recordCancel => exact ⟨rfl, rfl, fun _ => rfl⟩
  | preparePublication => exact ⟨rfl, rfl, fun _ => rfl⟩
  | sendPublication => exact ⟨rfl, rfl, fun _ => rfl⟩
  | settlePublication => exact ⟨rfl, rfl, fun _ => rfl⟩
  | explain => exact ⟨rfl, rfl, fun _ => rfl⟩
  | _ => exact (silent trivial).elim

/-- Every change that a request shows is announced. -/
theorem Life.AnnouncementAccounts.apply (accounts : life.AnnouncementAccounts) (change : Change) :
    (change.apply life).AnnouncementAccounts := by
  by_cases announces : change.Announces
  · obtain ⟨announcements, rows, version⟩ := Change.announces announces life
    exact accounts.announced announcements rows version
  · obtain ⟨announcements, rows, shown⟩ := Change.silent announces life
    exact accounts.congr announcements rows shown

end Dispatch
end Scrum4Me
