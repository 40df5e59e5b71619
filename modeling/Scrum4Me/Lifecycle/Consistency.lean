import Scrum4Me.Lifecycle.Scopes
import Scrum4Me.Lifecycle.Monotone
import Scrum4Me.Lifecycle.Progress

/-!
# Consistent lives

The invariant of a request: its tables are a history of episodes, and its books
balance. Every change keeps it. A request is `Settled` when moreover its end is
the end of its last execution; every change but a stale finish keeps that too.
-/

namespace Scrum4Me
namespace Dispatch

open Foundation

variable {life life' : Life} {past past' : List Episode}
  {current current' : Option Episode} {x : Execution} {free : Uuid → Prop}

/-! ## Publications -/

/-- The request runs an attempt of its own generation that has stopped. -/
def Life.StoppedRun (life : Life) : Prop :=
  ∃ a ∈ life.attempts, a.stopped = true ∧
    ∃ c ∈ life.candidates, c.id = a.candidateId ∧
      c.generation = life.generation

/-- Publications are of stopped attempts, and only the newest one may be
unresolved, while its request still waits for it. -/
structure Life.PublicationAccounts (life : Life) : Prop where
  distinct : (life.publications.map PublicationLife.id).Nodup
  newest : ∀ p ∈ life.publications.dropLast, ¬ p.state.Unresolved
  stopped : ∀ p ∈ life.publications, ∃ a ∈ life.attempts,
    a.id = p.attemptId ∧ a.stopped = true
  busy : life.Unresolved → (life.state = .running ∨ life.state = .cancelRequested) ∧ life.StoppedRun

theorem Life.Later.stoppedRun
    (later : life.Later life') (generation : life'.generation = life.generation)
    (run : life.StoppedRun) :
    life'.StoppedRun := by
  obtain ⟨a, member, stopped, c, candidate, own, current⟩ := run
  obtain ⟨a', inside, laterAttempt⟩ := later.attempts a member
  obtain ⟨c', found, laterCandidate⟩ := later.candidates c candidate
  exact ⟨a', inside, laterAttempt.stopped stopped, c', found,
    by rw [laterCandidate.id, own, laterAttempt.candidateId],
    by rw [laterCandidate.generation, current, generation]⟩

namespace Life.PublicationAccounts

/-- No publication changed, and an unresolved one is still waited for. -/
theorem congr (accounts : life.PublicationAccounts) (later : life.Later life')
    (publications : life'.publications = life.publications)
    (busy : life.Unresolved → (life'.state = .running ∨ life'.state = .cancelRequested) ∧
        life'.StoppedRun) :
    life'.PublicationAccounts where
  distinct := by rw [publications]; exact accounts.distinct
  newest := by rw [publications]; exact accounts.newest
  stopped := by
    rw [publications]
    intro p member
    obtain ⟨a, own, sameId, stopped⟩ := accounts.stopped p member
    obtain ⟨a', inside, laterAttempt⟩ := later.attempts a own
    exact ⟨a', inside, laterAttempt.id.trans sameId, laterAttempt.stopped stopped⟩
  busy := by
    rintro ⟨p, member, unresolved⟩
    exact busy ⟨p, publications ▸ member, unresolved⟩

/-- A change that no unresolved publication allows. -/
theorem resolved (accounts : life.PublicationAccounts) (later : life.Later life')
    (publications : life'.publications = life.publications) (settled : ¬ life.Unresolved) :
    life'.PublicationAccounts :=
  accounts.congr later publications fun unresolved => (settled unresolved).elim

/-- A request outside of `RUNNING` and `CANCEL_REQUESTED` has settled its
publications. -/
theorem not_unresolved (accounts : life.PublicationAccounts) (notRunning : life.state ≠ .running)
    (notCancelled : life.state ≠ .cancelRequested) :
    ¬ life.Unresolved := fun unresolved =>
  (accounts.busy unresolved).1.elim notRunning notCancelled

/-- One publication's state changed, to a settled one or from an unresolved one.
-/
theorem setPublication (accounts : life.PublicationAccounts) (id : Uuid)
    (change : PublicationLife → PublicationLife) (sameId : ∀ p, (change p).id = p.id)
    (sameAttempt : ∀ p, (change p).attemptId = p.attemptId)
    (settled : ∀ p, (change p).state.Unresolved → p.state.Unresolved) :
    (life.setPublication id change).PublicationAccounts where
  distinct := by
    show ((updateWhere _ change life.publications).map _).Nodup
    rw [map_updateWhere_of_unchanged sameId]
    exact accounts.distinct
  newest := by
    intro p member
    have member : p ∈ updateWhere (fun row => row.id = id) change life.publications.dropLast := by
      rw [updateWhere, List.map_dropLast] at *
      exact member
    rcases mem_updateWhere.mp member with ⟨old, own, -, rfl⟩ | ⟨own, -⟩
    · exact fun unresolved => accounts.newest old own (settled old unresolved)
    · exact accounts.newest p own
  stopped := by
    intro p member
    rcases mem_updateWhere.mp member with ⟨old, own, -, rfl⟩ | ⟨own, -⟩
    · rw [sameAttempt]
      exact accounts.stopped old own
    · exact accounts.stopped p own
  busy := by
    rintro ⟨p, member, unresolved⟩
    rcases mem_updateWhere.mp member with ⟨old, own, -, rfl⟩ | ⟨own, -⟩
    · exact accounts.busy ⟨old, own, settled old unresolved⟩
    · exact accounts.busy ⟨p, own, unresolved⟩

theorem prepare (accounts : life.PublicationAccounts) {id : Uuid} {headSha : String}
    (allowed : (Change.preparePublication x id headSha).Allowed free life) :
    ((Change.preparePublication x id headSha).apply life).PublicationAccounts
    where
  distinct := by
    obtain ⟨-, -, -, -, fresh, -⟩ := allowed
    show ((life.publications ++ [_]).map _).Nodup
    rw [List.map_append]
    refine List.nodup_append.mpr ⟨accounts.distinct, by simp, ?_⟩
    intro old member other new same
    obtain rfl := List.mem_singleton.mp new
    exact fresh (same ▸ member)
  newest := by
    intro p member
    have member : p ∈ life.publications := by simpa [Change.apply] using member
    obtain ⟨-, -, -, -, -, settled⟩ := allowed
    rcases List.eq_nil_or_concat life.publications with none' | ⟨init, last, split⟩
    · rw [none'] at member
      cases member
    · rw [split, List.concat_eq_append] at member
      rcases List.mem_append.mp member with old | new
      · apply accounts.newest p
        rw [split, List.concat_eq_append, List.dropLast_concat]
        exact old
      · rw [List.mem_singleton.mp new]
        apply settled last
        rw [split, List.concat_eq_append, List.getLast?_concat]
        rfl
  stopped := by
    intro p member
    rcases mem_inserted.mp member with old | rfl
    · exact accounts.stopped p old
    · exact ⟨x.attempt, allowed.1.attempt, rfl, allowed.2.2.1⟩
  busy := by
    intro _
    obtain ⟨inLife, generation, stopped, running, -⟩ := allowed
    exact ⟨.inl running, x.attempt, inLife.attempt, stopped, x.candidate,
      inLife.candidate, inLife.linked.symm, generation⟩

end Life.PublicationAccounts

/-- The attempt of the request's generation is unique. -/
theorem Life.Flat.execution_unique
    {episodes : List Episode} (flat : life.Flat episodes) (inLife : x.In life)
    (generation : x.candidate.generation = life.generation) {a : AttemptLife}
    (member : a ∈ life.attempts) {c : CandidateLife} (candidate : c ∈ life.candidates)
    (own : c.id = a.candidateId) (current : c.generation = life.generation) :
    a = x.attempt := by
  obtain ⟨first, firstMember, firstCandidate, firstAttempt⟩ := flat.execution inLife
  obtain ⟨second, secondMember, secondCandidate, secondAttempt⟩ :=
    flat.execution (Execution.In.mk (x := ⟨c, a⟩) member candidate own.symm)
  obtain ⟨earlier, split⟩ := flat.newest firstMember (by rw [firstCandidate, generation])
  obtain ⟨earlier', split'⟩ := flat.newest secondMember (by rw [secondCandidate, current])
  have last := congrArg List.getLast? (split.symm.trans split')
  simp only [List.getLast?_concat, Option.some.injEq] at last
  rw [last, secondAttempt] at firstAttempt
  exact Option.some.inj firstAttempt

/-- A publication is only waited for while the attempt that it is of is the open
execution. -/
theorem Life.History.current_of_stoppedRun
    (history : life.History past current) (notWaiting : life.state ≠ .waiting)
    (notTerminal : ¬ life.state.Terminal) :
    ∃ e, current = some e := by
  cases current with
  | none => exact (history.agrees.elim notWaiting notTerminal).elim
  | some e => exact ⟨e, rfl⟩

/-- Every change keeps the publications in order. -/
theorem Life.PublicationAccounts.apply
    (accounts : life.PublicationAccounts) (history : life.History past current)
    (stops : life.StopAccounts) (change : Change) (allowed : change.Allowed free life) :
    (change.apply life).PublicationAccounts := by
  have later := change.later life
  cases change with
  | reserve =>
    exact accounts.resolved later rfl (accounts.not_unresolved
      (by rw [allowed.1]; decide) (by rw [allowed.1]; decide))
  | retire =>
    exact accounts.resolved later rfl (accounts.not_unresolved
      (by rw [allowed.2.1]; decide) (by rw [allowed.2.1]; decide))
  | abandon candidate result =>
    have idle : ¬ life.Unresolved := by
      intro unresolved
      obtain ⟨state, -⟩ := accounts.busy unresolved
      obtain ⟨notTerminal, -, -, -, -, about⟩ := allowed
      obtain ⟨e, rfl⟩ := history.current_of_stoppedRun
        (by rcases state with h | h <;> rw [h] <;> decide) notTerminal
      rcases history.agrees with ⟨-, reserved⟩ | ⟨s, executing, -⟩
      · rcases state with h | h <;> rw [h] at reserved <;> cases reserved
      · cases candidate with
        | none =>
          apply about e.candidate (history.flat.mem_candidates.mpr ⟨e, by simp, rfl⟩)
            history.generation_current
          rw [executing.2.1]
          cases s <;> decide
        | some row =>
          obtain ⟨member, -, isOpen, unclaimed⟩ := about
          obtain ⟨e', same, -, own, -⟩ := history.unclaimed_current member isOpen unclaimed
          obtain rfl := Option.some.inj same
          obtain ⟨-, -, a, attempt, -⟩ := executing
          rw [own.2.2.1] at attempt
          cases attempt
    cases candidate <;> exact accounts.resolved later rfl idle
  | claim =>
    exact accounts.resolved later rfl (accounts.not_unresolved
      (by rw [allowed.2.1]; decide) (by rw [allowed.2.1]; decide))
  | start x =>
    exact accounts.congr later rfl fun unresolved =>
      ⟨.inl rfl, later.stoppedRun rfl (accounts.busy unresolved).2⟩
  | resume x =>
    obtain ⟨-, -, -, -, -, state⟩ := allowed
    exact accounts.resolved later rfl (accounts.not_unresolved
      (by rw [state]; decide) (by rw [state]; decide))
  | lapse x =>
    obtain ⟨inLife, generation, -, -, notStopped⟩ := allowed
    refine accounts.resolved later rfl fun unresolved => ?_
    obtain ⟨-, a, member, stopped, c, candidate, own, newest⟩ := accounts.busy unresolved
    obtain rfl := history.flat.execution_unique inLife generation member candidate own newest
    have recorded := stops.recorded _ member
    exact notStopped (recorded.revoked stopped) stopped (recorded.stopOf_iff.mpr stopped)
  | requestStop =>
    exact accounts.congr later rfl fun unresolved =>
      ⟨.inr rfl, later.stoppedRun rfl (accounts.busy unresolved).2⟩
  | finish => exact accounts.resolved later rfl allowed.2.2.1
  | recover => exact accounts.resolved later rfl allowed.2.2.2.1
  | retry => exact accounts.resolved later rfl allowed.2.2.2.1
  | preparePublication => exact accounts.prepare allowed
  | sendPublication id =>
    apply accounts.setPublication
    · intro p
      split <;> rfl
    · intro p
      split <;> rfl
    · intro p
      split
      · rename_i prepared
        exact fun _ => .inl prepared
      · exact fun unresolved => unresolved
  | settlePublication id state =>
    apply accounts.setPublication
    · intro p
      split <;> rfl
    · intro p
      split <;> rfl
    · intro p
      split
      · rename_i unresolved
        exact fun _ => unresolved
      · exact fun unresolved => unresolved
  | _ =>
    exact accounts.congr later rfl fun unresolved =>
      ⟨(accounts.busy unresolved).1, later.stoppedRun rfl (accounts.busy unresolved).2⟩

/-! ## Consistency -/

/-- The invariant of a request, under a history of it. -/
structure Life.ConsistentWith
    (life : Life) (past : List Episode) (current : Option Episode) : Prop where
  history : life.History past current
  stops : life.StopAccounts
  scopes : life.ScopeAccounts
  retries : life.RetryAccounts
  results : life.ResultAccounts
  announcements : life.AnnouncementAccounts
  publications : life.PublicationAccounts

/-- The last episode is what the canonical result says. -/
structure Life.SettledWith
    (life : Life) (past : List Episode) (current : Option Episode) : Prop where
  closed : life.state.Terminal → current = none
  ended : ∀ result ∈ life.results, ∀ id ∈ result.attemptId,
    ∃ e, past.getLast? = some e ∧ Life.History.Ended e id result.outcome

theorem Life.SettledWith.pending
    (state : DispatchState) (own : life.state = state) (notTerminal : ¬ state.Terminal)
    (noResult : life.results = []) :
    life.SettledWith past current where
  closed := fun ended => (notTerminal (own ▸ ended)).elim
  ended := by
    rw [noResult]
    intro result member
    cases member

theorem Life.SettledWith.congr
    (settled : life.SettledWith past current) (state : life'.state = life.state)
    (results : life'.results = life.results) :
    life'.SettledWith past current where
  closed := by rw [state]; exact settled.closed
  ended := by rw [results]; exact settled.ended

/-- An execution that is the last one settles the request it ends. -/
theorem Life.SettledWith.concluded {e : Episode} {result : ResultRow} {submitted : ResultHash}
    (attempt : result.attemptId = some x.attempt.id)
    (ended : Life.History.Ended e x.attempt.id result.outcome) (noResult : life.results = []) :
    (Change.conclude x result submitted life).SettledWith (past ++ [e]) none where
  closed := fun _ => rfl
  ended := by
    intro other member id named
    have member : other ∈ life.results ++ [result] := member
    rw [noResult, List.nil_append] at member
    obtain rfl := List.mem_singleton.mp member
    rw [attempt] at named
    obtain rfl := Option.some.inj named
    exact ⟨e, by rw [List.getLast?_concat], ended⟩

theorem Life.ResultAccounts.pending_of
    (accounts : life.ResultAccounts) {state : DispatchState} (own : life.state = state)
    (notTerminal : ¬ state.Terminal) :
    life.results = [] :=
  (accounts.pending (own ▸ notTerminal)).1

/-- Every change carries the history on. -/
theorem Life.ConsistentWith.continues
    (consistent : life.ConsistentWith past current) (change : Change)
    (allowed : change.Allowed free life) :
    ∃ past' current', (change.apply life).History past' current' ∧
      (¬ change.Stale life → life.SettledWith past current →
        (change.apply life).SettledWith past' current') := by
  have history := consistent.history
  have results := consistent.results
  cases change with
  | reserve =>
    obtain ⟨e, next⟩ := history.reserve allowed
    exact ⟨_, _, next, fun _ _ =>
      .pending .reserved rfl (by decide) (results.pending_of allowed.1 (by decide))⟩
  | retire =>
    obtain ⟨e, next⟩ := history.retire allowed
    exact ⟨_, _, next, fun _ _ =>
      .pending .waiting rfl (by decide) (results.pending_of allowed.2.1 (by decide))⟩
  | abandon candidate result =>
    obtain ⟨past', next⟩ := history.abandon allowed
    obtain ⟨-, -, noResult, noAttempt, -⟩ := allowed
    refine ⟨_, _, next, fun _ _ => ⟨fun _ => rfl, ?_⟩⟩
    intro other member id named
    have member : other ∈ life.results ++ [result] := by cases candidate <;> exact member
    rw [noResult, List.nil_append] at member
    rw [List.mem_singleton.mp member, noAttempt] at named
    cases named
  | claim =>
    obtain ⟨e, next⟩ := history.claim allowed
    exact ⟨_, _, next, fun _ _ =>
      .pending .claimed rfl (by decide) (results.pending_of allowed.2.1 (by decide))⟩
  | start =>
    obtain ⟨e, next⟩ := history.start allowed
    obtain ⟨-, -, -, -, state⟩ := allowed
    refine ⟨_, _, next, fun _ _ => .pending .running rfl (by decide) ?_⟩
    rcases state with h | h <;> exact results.pending_of h (by decide)
  | resume =>
    obtain ⟨e, next⟩ := history.resume allowed
    obtain ⟨-, -, -, -, -, state⟩ := allowed
    exact ⟨_, _, next, fun _ _ =>
      .pending .running rfl (by decide) (results.pending_of state (by decide))⟩
  | lapse =>
    obtain ⟨e, next⟩ := history.lapse allowed
    obtain ⟨-, -, -, state, -⟩ := allowed
    refine ⟨_, _, next, fun _ _ => .pending .uncertain rfl (by decide) ?_⟩
    rcases state with h | h | h <;> exact results.pending_of h (by decide)
  | requestStop =>
    obtain ⟨e, next⟩ := history.requestStop allowed
    exact ⟨_, _, next, fun _ _ =>
      .pending .cancelRequested rfl (by decide) (results.pending allowed.2.2.1).1⟩
  | stop x mark =>
    obtain ⟨inLife, fresh, -⟩ := allowed
    have running : x.attempt.stopped = false := by
      have recorded := consistent.stops.recorded _ inLife.attempt
      simpa [recorded.stopOf_iff] using fresh
    obtain ⟨e, rfl, e', next⟩ := history.stop mark inLife running
    refine ⟨_, _, next, fun _ settled => ?_⟩
    have notTerminal : ¬ life.state.Terminal := fun ended =>
      Option.some_ne_none _ (settled.closed ended)
    exact .pending life.state rfl notTerminal (results.pending notTerminal).1
  | finish x result submitted =>
    by_cases stale : (Change.finish x result submitted).Stale life
    · obtain ⟨past', next⟩ := history.finishStale allowed stale
      exact ⟨_, _, next, fun fresh => (fresh stale).elim⟩
    · obtain ⟨inLife, stopped, -, noResult, named, notTerminal, notWaiting, -⟩ := allowed
      obtain ⟨e, ended, next⟩ := history.conclude inLife
        (not_not.mp stale) stopped notWaiting notTerminal
      exact ⟨_, _, next, fun _ _ => .concluded named ended noResult⟩
  | recover x result submitted =>
    obtain ⟨inLife, generation, stopped, -, noResult, named, state, -⟩ := allowed
    obtain ⟨e, ended, next⟩ := history.conclude inLife generation stopped
      (by rcases state with h | h <;> rw [h] <;> decide)
      (by rcases state with h | h <;> rw [h] <;> decide)
    exact ⟨_, _, next, fun _ _ => .concluded named ended noResult⟩
  | retry =>
    obtain ⟨e, next⟩ := history.retry allowed
    obtain ⟨-, -, -, -, state, -⟩ := allowed
    exact ⟨_, _, next, fun _ _ =>
      .pending .waiting rfl (by decide) (results.pending_of state (by decide))⟩
  | _ =>
    exact ⟨_, _, history.congr rfl rfl rfl rfl rfl history.agrees,
      fun _ settled => settled.congr rfl rfl⟩

theorem Life.History.attemptsDistinct (history : life.History past current) :
    life.AttemptsDistinct := by
  unfold Life.AttemptsDistinct
  rw [history.flat.attempts]
  exact history.flat.attemptIds

/-- The invariant of a request. -/
def Life.Consistent (life : Life) : Prop :=
  ∃ past current, life.ConsistentWith past current

/-- The invariant of a request that no stale finish has touched. -/
def Life.Settled (life : Life) : Prop :=
  ∃ past current, life.ConsistentWith past current ∧
    life.SettledWith past current

theorem Life.ConsistentWith.apply (consistent : life.ConsistentWith past current) (change : Change)
    (allowed : change.Allowed free life) :
    ∃ past' current', (change.apply life).ConsistentWith past' current' ∧
      (¬ change.Stale life → life.SettledWith past current →
        (change.apply life).SettledWith past' current') := by
  obtain ⟨past', current', history, settled⟩ := consistent.continues change allowed
  have distinct := consistent.history.attemptsDistinct
  exact ⟨past', current',
    { history := history
      stops := consistent.stops.apply distinct change allowed
      scopes := consistent.scopes.apply consistent.stops distinct change allowed
      retries := consistent.retries.apply change allowed
      results := consistent.results.apply change allowed
      announcements := consistent.announcements.apply change
      publications := consistent.publications.apply consistent.history
        consistent.stops change allowed },
    settled⟩

/-- Every change keeps a request consistent. -/
theorem Life.Consistent.apply (consistent : life.Consistent) (change : Change)
    (allowed : change.Allowed free life) :
    (change.apply life).Consistent := by
  obtain ⟨past, current, consistent⟩ := consistent
  obtain ⟨past', current', next, -⟩ := consistent.apply change allowed
  exact ⟨past', current', next⟩

theorem Life.Settled.apply
    (settled : life.Settled) (change : Change) (allowed : change.Allowed free life)
    (fresh : ¬ change.Stale life) :
    (change.apply life).Settled := by
  obtain ⟨past, current, consistent, ended⟩ := settled
  obtain ⟨past', current', next, later⟩ := consistent.apply change allowed
  exact ⟨past', current', next, later fresh ended⟩

theorem Life.Settled.consistent (settled : life.Settled) : life.Consistent := by
  obtain ⟨past, current, consistent, -⟩ := settled
  exact ⟨past, current, consistent⟩

variable {changes : List Change}

/-- A path keeps a request consistent. -/
theorem Life.Consistent.applyAll (consistent : life.Consistent) (path : life.Path free changes) :
    (life.applyAll changes).Consistent :=
  run_invariant (fun _ change earlier allowed => earlier.apply change allowed) consistent path

/-- A path without a stale finish keeps a request settled. -/
theorem Life.Settled.applyAll (settled : life.Settled) (path : life.Path free changes)
    (fresh : life.Fresh changes) :
    (life.applyAll changes).Settled :=
  run_invariant (fun _ change earlier admitted =>
      earlier.apply change admitted.1 admitted.2)
    settled (everyStep_and.mpr ⟨path, fresh⟩)

end Dispatch
end Scrum4Me
