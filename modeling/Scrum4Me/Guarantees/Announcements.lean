import Scrum4Me.Guarantees.Retries

/-!
# Announcements

Every version of a request has one outbox row, and the newest row shows the
request as it is. A transaction announces each state it moves the request
through: none, one, or two where it withdraws a lease that has just run out or
finishes a cancellation that it has just requested.
-/

namespace Scrum4Me
namespace Dispatch

open Foundation

section Lives

variable {free : Uuid → Prop} {life : Life}

/-- A change that is not shown at all. -/
def Change.Hidden : Change → Prop
  | .stop _ _ => True
  | .recordCancel _ _ => True
  | .preparePublication _ _ _ => True
  | .sendPublication _ => True
  | .settlePublication _ _ => True
  | _ => False

/-- A change that a transaction may announce on its way. -/
def Change.Passes : Change → Prop
  | .lapse _ => True
  | .requestStop _ => True
  | _ => False

variable {change : Change}

theorem Change.hidden_apply (hidden : change.Hidden) (life : Life) :
    (change.apply life).announcements = life.announcements ∧
      (change.apply life).shown = life.shown ∧ (change.apply life).resultId = life.resultId := by
  cases change with
  | stop => exact ⟨rfl, rfl, rfl⟩
  | recordCancel => exact ⟨rfl, rfl, rfl⟩
  | preparePublication => exact ⟨rfl, rfl, rfl⟩
  | sendPublication => exact ⟨rfl, rfl, rfl⟩
  | settlePublication => exact ⟨rfl, rfl, rfl⟩
  | _ => exact hidden.elim

theorem Life.hidden_applyAll
    {changes : List Change} (hidden : ∀ change ∈ changes, change.Hidden) (life : Life) :
    (life.applyAll changes).announcements = life.announcements ∧
      (life.applyAll changes).shown = life.shown ∧
      (life.applyAll changes).resultId = life.resultId := by
  induction changes generalizing life with
  | nil => exact ⟨rfl, rfl, rfl⟩
  | cons change rest ih =>
    obtain ⟨announcements, shown, resultId⟩ :=
      Change.hidden_apply (hidden change List.mem_cons_self) life
    obtain ⟨later, laterShown, laterId⟩ := ih
      (fun other member => hidden other (List.mem_cons_of_mem _ member))
      (change.apply life)
    exact ⟨later.trans announcements, laterShown.trans shown, laterId.trans resultId⟩

/-- What a transaction announces of a life. -/
inductive Life.Announces (life life' : Life) : Prop
  | silent (announcements : life'.announcements = life.announcements)
      (state : life'.state = life.state)
      (resultId : life'.resultId = life.resultId)
      (version : life'.version = life.version)
  | once (announcements : life'.announcements = life.announcements ++ [life'.shown])
      (version : life'.version = life.version + 1)
  | twice (passing : DispatchProjection) (announcements : life'.announcements =
        life.announcements ++ [passing, life'.shown])
      (version : life'.version = life.version + 2)
      (next : passing.version = life.version + 1)
      (state : passing.state = .uncertain ∨ passing.state = .cancelRequested)
      (reason : passing.reason = passing.state.text)
      (route : passing.route = life.shown.route)
      (result : passing.result = life.shown.result)

theorem Life.announces_hidden {changes : List Change} (hidden : ∀ change ∈ changes, change.Hidden) :
    life.Announces (life.applyAll changes) := by
  obtain ⟨announcements, shown, resultId⟩ := life.hidden_applyAll hidden
  exact .silent announcements (congrArg DispatchProjection.state shown) resultId
    (congrArg DispatchProjection.version shown)

/-- One announced change between hidden ones. -/
theorem Life.announces_once (before later : List Change)
    (first : ∀ other ∈ before, other.Hidden) (announces : change.Announces)
    (last : ∀ other ∈ later, other.Hidden) :
    life.Announces (life.applyAll (before ++ change :: later)) := by
  rw [Life.applyAll_append, Life.applyAll_cons]
  obtain ⟨early, earlyShown, -⟩ := life.hidden_applyAll first
  obtain ⟨announced, -, version⟩ := Change.announces announces (life.applyAll before)
  obtain ⟨late, lateShown, -⟩ := Life.hidden_applyAll last (change.apply (life.applyAll before))
  have earlyVersion := congrArg DispatchProjection.version earlyShown
  have lateVersion := congrArg DispatchProjection.version lateShown
  refine .once ?_ ?_
  · rw [late, announced, early, lateShown]
  · exact lateVersion.trans (version.trans (congrArg (· + 1) earlyVersion))

/-- The route does not follow the execution of the candidate. -/
theorem Change.shown_passes (passes : change.Passes) (life : Life) :
    (change.apply life).shown.route = life.shown.route ∧
      (change.apply life).shown.result = life.shown.result ∧
      (change.apply life).shown.reason = (change.apply life).state.text ∧
      ((change.apply life).state = .uncertain ∨ (change.apply life).state = .cancelRequested) := by
  have route : ∀ (x : Execution) (state : CandidateState),
      ((updateWhere (fun row => row.id = x.candidate.id)
          (fun row : CandidateLife => { row with state := state })
          life.candidates).find? fun candidate =>
            candidate.generation = life.generation).map CandidateLife.route =
        (life.candidates.find? fun candidate =>
          candidate.generation = life.generation).map CandidateLife.route :=
    fun x state => find?_updateWhere (by intro row; rfl) (by intro row; rfl) life.candidates
  cases change with
  | lapse x => exact ⟨route x .uncertain, rfl, rfl, .inl rfl⟩
  | requestStop x => exact ⟨route x .cancelRequested, rfl, rfl, .inr rfl⟩
  | _ => exact passes.elim

theorem Change.Passes.announces (passes : change.Passes) : change.Announces := by
  cases change <;> first
    | exact passes.elim
    | trivial

/-- An announced change right after one that is passed through. -/
theorem Life.announces_twice {first second : Change} (later : List Change) (passes : first.Passes)
    (announces : second.Announces) (last : ∀ other ∈ later, other.Hidden) :
    life.Announces (life.applyAll (first :: second :: later)) := by
  rw [Life.applyAll_cons, Life.applyAll_cons]
  obtain ⟨announced, -, version⟩ := Change.announces passes.announces life
  obtain ⟨announced', -, version'⟩ := Change.announces announces (first.apply life)
  obtain ⟨late, lateShown, -⟩ := Life.hidden_applyAll last (second.apply (first.apply life))
  obtain ⟨route, result, reason, state⟩ := Change.shown_passes passes life
  have lateVersion := congrArg DispatchProjection.version lateShown
  refine .twice (first.apply life).shown ?_ ?_ version state reason route result
  · rw [late, announced', announced, lateShown, List.append_assoc]
    rfl
  · refine lateVersion.trans ?_
    show (second.apply (first.apply life)).version = _
    rw [version', version]

end Lives

/-! ## What each action announces -/

variable {changes : List Change}

theorem StopPath.announces (path : StopPath changes) (life : Life) :
    life.Announces (life.applyAll changes) := by
  cases path with
  | replayed => exact Life.announces_hidden (by simp)
  | stopped => exact Life.announces_hidden (by simp [Change.Hidden])
  | finished => exact Life.announces_once [] [] (by simp) (by trivial) (by simp)
  | stoppedAndFinished x y mark =>
    exact Life.announces_once [.stop x mark] [] (by simp [Change.Hidden]) (by trivial) (by simp)

theorem RecoveryPath.announces
    {mode : RecoveryMode} (path : RecoveryPath mode changes) (life : Life) :
    life.Announces (life.applyAll changes) := by
  have ends : ∀ {change}, RecoveryEnd mode change → change.Announces := by
    intro change ends
    cases ends <;> trivial
  cases path with
  | replayed => exact Life.announces_hidden (by simp)
  | decided change last => exact Life.announces_once [] [] (by simp) (ends last) (by simp)
  | stoppedAndDecided x mark change last =>
    exact Life.announces_once [.stop x mark] [] (by simp [Change.Hidden]) (ends last) (by simp)

theorem CancelPath.announces (path : CancelPath changes) (key : OperationKey)
    (digest : CancelDigest) (life : Life) :
    life.Announces (life.applyAll (changes ++ [.recordCancel key digest])) := by
  have recorded : ∀ other ∈ [Change.recordCancel key digest], other.Hidden := by
    simp [Change.Hidden]
  cases path with
  | unchanged => exact Life.announces_hidden recorded
  | requestedAndFinished => exact Life.announces_twice _ (by trivial) (by trivial) recorded
  | _ => exact Life.announces_once [] _ (by simp) (by trivial) recorded

/-- Explaining why a request waits is not announced. -/
theorem Life.announces_explain (life : Life) (reason : Option String) :
    life.Announces (life.applyAll [.explain reason]) :=
  .silent rfl rfl rfl rfl

/-- A transaction announces each state it moves its request through. -/
theorem Action.Makes.announced {action : Action} (makes : action.Makes changes) (life : Life) :
    life.Announces (life.applyAll changes) := by
  have none' : life.Announces (life.applyAll []) := Life.announces_hidden (by simp)
  have one : ∀ change : Change, change.Announces →
      life.Announces (life.applyAll [change]) := fun change announces =>
    Life.announces_once [] [] (by simp) announces (by simp)
  cases action with
  | recover => exact RecoveryPath.announces makes life
  | cancel =>
    rcases makes with rfl | ⟨earlier, key, digest, path, rfl⟩
    · exact none'
    · exact path.announces key digest life
  | submitStop => exact StopPath.announces makes life
  | submitHistoricalStop => exact StopPath.announces makes life
  | submitClaimBoundStop => exact StopPath.announces makes life
  | closeSignedOff => exact StopPath.announces makes life
  | recordSourceRetry =>
    rcases makes with rfl | ⟨reason, rfl⟩
    · exact none'
    · exact life.announces_explain reason
  | rejectUnstarted =>
    rcases makes with rfl | ⟨candidate, result, rfl⟩
    · exact none'
    · exact one _ (by trivial)
  | reserve =>
    rcases makes with rfl | ⟨candidate, result, rfl⟩ | ⟨reason, rfl⟩ |
      ⟨candidateId, slotId, route, jobId, rfl⟩
    · exact none'
    · exact one _ (by trivial)
    · exact life.announces_explain reason
    · exact one _ (by trivial)
  | retire =>
    rcases makes with rfl | ⟨candidate, rfl⟩
    · exact none'
    · exact one _ (by trivial)
  | claim =>
    obtain ⟨candidate, slotId, attemptId, rfl⟩ := makes
    exact one _ (by trivial)
  | start =>
    rcases makes with rfl | ⟨x, rfl⟩
    · exact none'
    · exact one _ (by trivial)
  | renew =>
    rcases makes with rfl | ⟨x, rfl⟩ | ⟨x, rfl⟩ | ⟨x, y, rfl⟩
    · exact none'
    · exact one _ (by trivial)
    · exact one _ (by trivial)
    · exact Life.announces_twice [] (by trivial) (by trivial) (by simp)
  | reconcile =>
    obtain ⟨x, rfl⟩ := makes
    exact one _ (by trivial)
  | markExpired =>
    rcases makes with rfl | ⟨x, rfl⟩ | ⟨x, rfl⟩
    · exact none'
    · exact one _ (by trivial)
    · exact one _ (by trivial)
  | acceptFinish =>
    rcases makes with rfl | ⟨x, result, rfl⟩
    · exact none'
    · exact one _ (by trivial)
  | preparePublication =>
    rcases makes with rfl | ⟨x, id, headSha, rfl⟩
    · exact none'
    · exact Life.announces_hidden (by simp [Change.Hidden])
  | sendPublication =>
    obtain rfl := makes
    exact Life.announces_hidden (by simp [Change.Hidden])
  | storeReceipt =>
    obtain rfl := makes
    exact Life.announces_hidden (by simp [Change.Hidden])
  | resolvePublication =>
    rcases makes with rfl | rfl
    · exact none'
    · exact Life.announces_hidden (by simp [Change.Hidden])
  | _ =>
    obtain rfl := makes
    exact none'

/-! ## Requests -/

/-- What the transactions of a request announce: nothing, where its state and its
result stay; the request as it is, under the next version; or a state it was
passing through, and then the request as it is. -/
inductive RequestRows.Announces (rows rows' : RequestRows) : Prop
  | silent (payloads : rows'.outbox.map OutboxRow.payload =
        rows.outbox.map OutboxRow.payload)
      (state : rows'.request.state = rows.request.state)
      (resultId : rows'.request.resultId = rows.request.resultId)
      (version : rows'.request.version = rows.request.version)
  | once (payloads : rows'.outbox.map OutboxRow.payload =
        rows.outbox.map OutboxRow.payload ++ [rows'.projection])
      (version : rows'.request.version = rows.request.version + 1)
  | twice (passing : DispatchProjection) (payloads : rows'.outbox.map OutboxRow.payload =
        rows.outbox.map OutboxRow.payload ++ [passing, rows'.projection])
      (version : rows'.request.version = rows.request.version + 2)
      (next : passing.version = rows.request.version + 1)
      (state : passing.state = .uncertain ∨ passing.state = .cancelRequested)
      (reason : passing.reason = passing.state.text)
      (route : passing.route = rows.projection.route)
      (result : passing.result = rows.projection.result)

theorem Life.Announces.rows
    {rows rows' : RequestRows} (announces : (lifeOf rows).Announces (lifeOf rows')) :
    rows.Announces rows' := by
  cases announces with
  | silent announcements state resultId version =>
    exact .silent announcements state resultId version
  | once announcements version =>
    rw [shown_lifeOf] at announcements
    exact .once announcements version
  | twice passing announcements version next state reason route result =>
    rw [shown_lifeOf] at announcements route result
    exact .twice passing announcements version next state reason route result

/-! ## Runs -/

end Dispatch
end Scrum4Me
