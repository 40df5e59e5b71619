import Scrum4Me.Lifecycle.Accounts

/-!
# The scope of an attempt

A started attempt has one scope: its events record it once, and its column names
it. An attempt that never started has none.
-/

namespace Scrum4Me
namespace Dispatch

open Foundation

variable {life life' : Life} {x : Execution} {free : Uuid → Prop}

/-- The scopes recorded for an attempt. -/
def Life.scopesOf (life : Life) (attemptId : Uuid) : List RuntimeScope :=
  (life.scopes.filter fun entry => entry.1 = attemptId).map Prod.snd

theorem Life.mem_scopesOf {attemptId : Uuid} {scope : RuntimeScope} :
    scope ∈ life.scopesOf attemptId ↔ (attemptId, scope) ∈ life.scopes := by
  simp [Life.scopesOf]

/-- The scope column of an attempt agrees with its events. -/
inductive AttemptLife.Scoped (a : AttemptLife) (life : Life) : Prop
  | unstarted (notStarted : a.started = false) (column : a.scopeId = none)
      (events : life.scopesOf a.id = [])
  | started (scope : RuntimeScope) (started : a.started = true)
      (column : a.scopeId = some scope.scopeId)
      (events : life.scopesOf a.id = [scope])

/-- Every attempt is scoped, and every scope is of an attempt. -/
structure Life.ScopeAccounts (life : Life) : Prop where
  recorded : ∀ a ∈ life.attempts, a.Scoped life
  known : ∀ entry ∈ life.scopes, entry.1 ∈ life.attempts.map AttemptLife.id

theorem AttemptLife.Scoped.congr
    {a a' : AttemptLife} (agrees : a.Scoped life) (sameId : a'.id = a.id)
    (sameStart : a'.started = a.started) (sameScope : a'.scopeId = a.scopeId)
    (scopes : life'.scopesOf a.id = life.scopesOf a.id) :
    a'.Scoped life' := by
  cases agrees with
  | unstarted notStarted column events =>
    refine .unstarted (sameStart.trans notStarted) (sameScope.trans column) ?_
    rw [sameId, scopes, events]
  | started scope started column events =>
    refine .started scope (sameStart.trans started) (sameScope.trans column) ?_
    rw [sameId, scopes, events]

namespace Life.ScopeAccounts

/-- Nothing about scopes and attempts changed. -/
theorem congr (accounts : life.ScopeAccounts) (attempts : life'.attempts = life.attempts)
    (scopes : life'.scopes = life.scopes) :
    life'.ScopeAccounts where
  recorded := by
    intro a member
    rw [attempts] at member
    exact (accounts.recorded a member).congr rfl rfl rfl
      (by rw [Life.scopesOf, Life.scopesOf, scopes])
  known := by
    rw [attempts, scopes]
    exact accounts.known

/-- One attempt changed, but neither its start nor its scope. -/
theorem setAttempt (accounts : life.ScopeAccounts) (id : Uuid) (change : AttemptLife → AttemptLife)
    (attempts : life'.attempts = (life.setAttempt id change).attempts)
    (scopes : life'.scopes = life.scopes) (sameId : ∀ a, (change a).id = a.id)
    (sameStart : ∀ a, (change a).started = a.started)
    (sameScope : ∀ a, (change a).scopeId = a.scopeId) :
    life'.ScopeAccounts where
  recorded := by
    intro a inside
    rw [attempts] at inside
    have recordedSame : ∀ attemptId, life'.scopesOf attemptId = life.scopesOf attemptId := by
      intro attemptId
      rw [Life.scopesOf, Life.scopesOf, scopes]
    rcases mem_updateWhere.mp inside with
      ⟨old, member, -, rfl⟩ | ⟨member, -⟩
    · exact (accounts.recorded old member).congr (sameId old) (sameStart old)
        (sameScope old) (recordedSame _)
    · exact (accounts.recorded a member).congr rfl rfl rfl (recordedSame _)
  known := by
    intro entry recorded
    rw [scopes] at recorded
    have ids : life'.attempts.map AttemptLife.id = life.attempts.map AttemptLife.id := by
      rw [attempts]
      exact map_updateWhere_of_unchanged sameId life.attempts
    rw [ids]
    exact accounts.known entry recorded

/-- A new attempt has no scope. -/
theorem claim (accounts : life.ScopeAccounts) {candidate : CandidateLife} {slotId attemptId : Uuid}
    {key : ClaimKey} (fresh : attemptId ∉ life.attempts.map AttemptLife.id) :
    ((Change.claim candidate slotId attemptId key).apply life).ScopeAccounts where
  recorded := by
    intro a member
    rcases mem_inserted.mp member with old | rfl
    · exact (accounts.recorded a old).congr rfl rfl rfl rfl
    · refine .unstarted rfl rfl ?_
      rw [List.eq_nil_iff_forall_not_mem]
      intro scope recorded
      exact fresh (accounts.known _ (Life.mem_scopesOf.mp recorded))
  known := by
    intro entry recorded
    exact List.mem_map.mpr (by
      obtain ⟨a, member, same⟩ := List.mem_map.mp (accounts.known entry recorded)
      exact ⟨a, List.mem_append_left _ member, same⟩)

/-- Starting records the scope of the attempt, and of no other. -/
theorem start (accounts : life.ScopeAccounts) (distinct : life.AttemptsDistinct)
    {scope : RuntimeScope} (member : x.attempt ∈ life.attempts)
    (notStarted : x.attempt.started = false) :
    ((Change.start x scope).apply life).ScopeAccounts where
  recorded := by
    intro a inside
    have appended : ∀ attemptId, ((Change.start x scope).apply life).scopesOf attemptId =
          life.scopesOf attemptId ++
            if x.attempt.id = attemptId then [scope] else [] := by
      intro attemptId
      show ((life.scopes ++ [(x.attempt.id, scope)]).filter _).map _ = _
      rw [List.filter_append, List.map_append]
      by_cases same : x.attempt.id = attemptId <;>
        simp [Life.scopesOf, same]
    rcases mem_updateWhere.mp inside with
      ⟨old, oldMember, found, rfl⟩ | ⟨oldMember, missed⟩
    · obtain rfl : old = x.attempt := distinct.eq oldMember member (of_decide_eq_true found)
      refine .started scope rfl rfl ?_
      cases accounts.recorded _ member with
      | unstarted _ _ events => rw [appended, events, if_pos rfl, List.nil_append]
      | started _ started =>
        rw [notStarted] at started
        cases started
    · have other : x.attempt.id ≠ a.id := fun same => of_decide_eq_false missed same.symm
      refine (accounts.recorded a oldMember).congr rfl rfl rfl ?_
      rw [appended, if_neg other, List.append_nil]
  known := by
    intro entry recorded
    have ids : ((Change.start x scope).apply life).attempts.map
        AttemptLife.id = life.attempts.map AttemptLife.id :=
      map_updateWhere_of_unchanged (by intro row; rfl) life.attempts
    rw [ids]
    rcases mem_inserted.mp recorded with old | rfl
    · exact accounts.known entry old
    · exact List.mem_map_of_mem member

/-- Every change keeps the scopes and their attempts in agreement. -/
theorem apply (accounts : life.ScopeAccounts) (stops : life.StopAccounts)
    (distinct : life.AttemptsDistinct) (change : Change) (allowed : change.Allowed free life) :
    (change.apply life).ScopeAccounts := by
  cases change with
  | claim => exact accounts.claim allowed.2.2.2.2.2.2.1
  | start x scope =>
    obtain ⟨inLife, -, claimed, -⟩ := allowed
    exact accounts.start distinct inLife.attempt ((stops.recorded _ inLife.attempt).claimed claimed)
  | abandon candidate => cases candidate <;> exact accounts.congr rfl rfl
  | resume x =>
    exact accounts.setAttempt x.attempt.id (fun row => { row with state := .running })
      rfl rfl (fun _ => rfl) (fun _ => rfl) fun _ => rfl
  | lapse x =>
    exact accounts.setAttempt x.attempt.id (fun row => { row with state := .uncertain })
      rfl rfl (fun _ => rfl) (fun _ => rfl) fun _ => rfl
  | requestStop x =>
    exact accounts.setAttempt x.attempt.id
      (fun row => { row with state := .cancelRequested, revoked := true })
      rfl rfl (fun _ => rfl) (fun _ => rfl) fun _ => rfl
  | stop x =>
    exact accounts.setAttempt x.attempt.id
      (fun row => { row with stopped := true, revoked := true })
      rfl rfl (fun _ => rfl) (fun _ => rfl) fun _ => rfl
  | finish x result =>
    exact accounts.setAttempt x.attempt.id (fun row =>
        { row with state := result.outcome.attemptState, revoked := true })
      rfl rfl (fun _ => rfl) (fun _ => rfl) fun _ => rfl
  | recover x result =>
    exact accounts.setAttempt x.attempt.id (fun row =>
        { row with state := result.outcome.attemptState, revoked := true })
      rfl rfl (fun _ => rfl) (fun _ => rfl) fun _ => rfl
  | retry x =>
    exact accounts.setAttempt x.attempt.id
      (fun row => { row with state := .failed, revoked := true })
      rfl rfl (fun _ => rfl) (fun _ => rfl) fun _ => rfl
  | _ => exact accounts.congr rfl rfl

end Life.ScopeAccounts

end Dispatch
end Scrum4Me
