import Scrum4Me.Refinement.Attempts
import Scrum4Me.Refinement.Completion
import Scrum4Me.Refinement.Publication
import Scrum4Me.Refinement.Recovery
import Scrum4Me.Dispatch.Machine

/-!
# The abstract protocol

Which changes each action may make to the request it works on, and the theorem
that the machine makes no others: one step of the store is one such path in the
life of one request.
-/

namespace Scrum4Me
namespace Dispatch

open Foundation

/-- The paths of changes that an action may take the life of a request along. -/
def Action.Makes : Action → List Change → Prop
  | .recordSourceRetry .., changes =>
      changes = [] ∨ ∃ reason, changes = [.explain reason]
  | .rejectUnstarted .., changes =>
      changes = [] ∨ ∃ candidate result, changes = [.abandon candidate result]
  | .reserve _, changes =>
      changes = [] ∨ (∃ candidate result, changes = [.abandon candidate result]) ∨
        (∃ reason, changes = [.explain reason]) ∨
        ∃ candidateId slotId route jobId,
          changes = [.reserve candidateId slotId route jobId]
  | .retire _, changes => changes = [] ∨ ∃ candidate, changes = [.retire candidate]
  | .claim _ incarnationId claimKey _, changes =>
      ∃ candidate slotId attemptId,
        changes = [.claim candidate slotId attemptId
          { incarnationId := incarnationId, key := claimKey }]
  | .start _ _ scope, changes => changes = [] ∨ ∃ x, changes = [.start x scope]
  | .renew .., changes =>
      changes = [] ∨ (∃ x, changes = [.lapse x]) ∨ (∃ x, changes = [.requestStop x]) ∨
        ∃ x y, changes = [.lapse x, .requestStop y]
  | .reconcile .., changes => ∃ x, changes = [.resume x]
  | .markExpired .., changes =>
      changes = [] ∨ (∃ x, changes = [.lapse x]) ∨
        ∃ x, changes = [.requestStop x]
  | .cancel .., changes =>
      changes = [] ∨ ∃ earlier key digest, CancelPath earlier ∧
        changes = earlier ++ [.recordCancel key digest]
  | .submitStop .., changes => StopPath changes
  | .submitHistoricalStop .., changes => StopPath changes
  | .submitClaimBoundStop .., changes => StopPath changes
  | .closeSignedOff _, changes => StopPath changes
  | .recover _ _ _ _ _ mode, changes => RecoveryPath mode changes
  | .acceptFinish _ _ submission _, changes =>
      changes = [] ∨ ∃ x result, changes = [.finish x result submission.hash]
  | .preparePublication .., changes =>
      changes = [] ∨ ∃ x id headSha, changes = [.preparePublication x id headSha]
  | .sendPublication _ _ id, changes => changes = [.sendPublication id]
  | .storeReceipt value, changes =>
      changes = [.settlePublication value.operationId value.status.state]
  | .resolvePublication _ id _ _, changes =>
      changes = [] ∨ changes = [.settlePublication id .failed]
  | _, changes => changes = []

/-- A stop is resent for an attempt of an earlier generation while its request
waits to be cancelled. -/
def Action.StaleStop (env : Env) (registry : Registry) (rows : RequestRows) : Action → Prop
  | .submitStop _ proof _ =>
      ∃ x, lockArtifactAttempt env registry rows proof.attemptId = .ok x ∧
        x.StaleIn rows
  | .submitHistoricalStop _ binding _ =>
      ∃ x, lockArtifactAttempt env registry rows binding.attemptId = .ok x ∧
        x.StaleIn rows
  | _ => False

/-- What an action does to the life of the request it works on. -/
structure Evolves
    (env : Env) (store : Store) (action : Action)
    (rows rows' : RequestRows) (changes : List Change) : Prop where
  makes : action.Makes changes
  refines : Refines store.Free rows rows' changes
  fresh : (lifeOf rows).Fresh changes ∨
    action.StaleStop env store.registry rows

section Rows

variable {env : Env} {store : Store} {rows rows' : RequestRows}
  {action : Action} {answer : Answer}

theorem answering_eq_ok {result : Except Failure (RequestRows × α)} {answerOf : α → Answer} :
    answering result answerOf = .ok (rows', answer) ↔
      ∃ value, result = .ok (rows', value) ∧ answerOf value = answer := by
  simp only [answering, bind_eq_ok, pure_eq_ok, Prod.mk.injEq]
  constructor
  · rintro ⟨value, computed, rfl, same⟩
    exact ⟨value.2, computed, same⟩
  · rintro ⟨value, computed, same⟩
    exact ⟨(rows', value), computed, rfl, same⟩

theorem silently_eq_ok {result : Except Failure RequestRows} :
    silently result = .ok (rows', answer) ↔ result = .ok rows' ∧ Answer.none = answer := by
  simp only [silently, bind_eq_ok, pure_eq_ok, Prod.mk.injEq]
  constructor
  · rintro ⟨value, computed, rfl, same⟩
    exact ⟨computed, same⟩
  · rintro ⟨computed, same⟩
    exact ⟨rows', computed, rfl, same⟩

theorem Evolves.quiet (makes : action.Makes []) (life : lifeOf rows' = lifeOf rows) :
    Evolves env store action rows rows' [] :=
  ⟨makes, .quiet life, .inl trivial⟩

/-- The outbox is seen by its payloads and versions only. -/
theorem lifeOf_updateOutbox {matching : OutboxRow → Bool} {change : OutboxRow → OutboxRow}
    (payload : ∀ row, (change row).payload = row.payload)
    (version : ∀ row, (change row).version = row.version) :
    lifeOf { rows with outbox := updateWhere matching change rows.outbox } = lifeOf rows := by
  simp only [lifeOf, map_updateWhere_of_unchanged payload, map_updateWhere_of_unchanged version]
  rfl

/-- Every transaction on the rows of a request takes its life along a path that
its action may make. -/
theorem transactRows_evolves (consistent : (lifeOf rows).Consistent) (keys : rows.KeepsKeys rows')
    (committed : transactRows env store rows action = .ok (rows', answer)) :
    ∃ changes, Evolves env store action rows rows' changes := by
  cases action with
  | prepareSources =>
    obtain ⟨written, -⟩ := silently_eq_ok.mp committed
    exact ⟨[], .quiet rfl (prepareSources_quiet written)⟩
  | recordSourceRetry id attempt reason nextAttemptAt =>
    obtain ⟨written, -⟩ := silently_eq_ok.mp committed
    obtain rfl := Except.ok.inj written
    rcases recordSourceRetry_refines store.Free attempt reason nextAttemptAt
      with refines | ⟨explained, refines⟩
    · exact ⟨_, .inl rfl, refines, .inl trivial⟩
    · exact ⟨_, .inr ⟨_, rfl⟩, refines, .inl ⟨not_false, trivial⟩⟩
  | rejectUnstarted =>
    obtain ⟨written, -⟩ := silently_eq_ok.mp committed
    rcases rejectUnstarted_refines consistent written with
      refines | ⟨c, row, -, refines⟩
    · exact ⟨_, .inl rfl, refines, .inl trivial⟩
    · exact ⟨_, .inr ⟨c, row, rfl⟩, refines, .inl ⟨not_false, trivial⟩⟩
  | reserve =>
    obtain ⟨written, -⟩ := silently_eq_ok.mp committed
    rcases reserve_refines keys consistent written with
      refines | ⟨c, row, -, refines⟩ | ⟨reason, refines⟩ |
        ⟨c, s, route, j, refines⟩
    · exact ⟨_, .inl rfl, refines, .inl trivial⟩
    · exact ⟨_, .inr (.inl ⟨c, row, rfl⟩), refines, .inl ⟨not_false, trivial⟩⟩
    · exact ⟨_, .inr (.inr (.inl ⟨reason, rfl⟩)), refines, .inl ⟨not_false, trivial⟩⟩
    · exact ⟨_, .inr (.inr (.inr ⟨c, s, route, j, rfl⟩)), refines, .inl ⟨not_false, trivial⟩⟩
  | retire =>
    obtain ⟨value, written, -⟩ := answering_eq_ok.mp committed
    have same : (retireExpiredCandidate env rows).1 = rows' :=
      congrArg Prod.fst (Except.ok.inj written)
    rcases retire_refines store.Free env rows with refines | ⟨c, refines⟩
    · exact ⟨_, .inl rfl, same ▸ refines, .inl trivial⟩
    · exact ⟨_, .inr ⟨c, rfl⟩, same ▸ refines, .inl ⟨not_false, trivial⟩⟩
  | start =>
    obtain ⟨permit, written, -⟩ := answering_eq_ok.mp committed
    rcases start_refines written with refines | ⟨x, refines⟩
    · exact ⟨_, .inl rfl, refines, .inl trivial⟩
    · exact ⟨_, .inr ⟨x, rfl⟩, refines, .inl ⟨not_false, trivial⟩⟩
  | renew =>
    obtain ⟨stopRequired, written, -⟩ := answering_eq_ok.mp committed
    rcases renew_refines written with
      refines | ⟨x, refines⟩ | ⟨x, refines⟩ | ⟨x, y, refines⟩
    · exact ⟨_, .inl rfl, refines, .inl trivial⟩
    · exact ⟨_, .inr (.inl ⟨x, rfl⟩), refines, .inl ⟨not_false, trivial⟩⟩
    · exact ⟨_, .inr (.inr (.inl ⟨x, rfl⟩)), refines, .inl ⟨not_false, trivial⟩⟩
    · exact ⟨_, .inr (.inr (.inr ⟨x, y, rfl⟩)), refines, .inl ⟨not_false, not_false, trivial⟩⟩
  | reconcile =>
    simp only [transactRows, answering_eq_ok, map_eq_ok, Prod.mk.injEq]
      at committed
    obtain ⟨-, ⟨moved, written, rfl, -⟩, -⟩ := committed
    obtain ⟨x, refines⟩ := reconcile_refines store.Free written
    exact ⟨_, ⟨x, rfl⟩, refines, .inl ⟨not_false, trivial⟩⟩
  | markExpired =>
    obtain ⟨marked, written, -⟩ := answering_eq_ok.mp committed
    rcases markExpired_refines written with
      refines | ⟨x, refines⟩ | ⟨x, refines⟩
    · exact ⟨_, .inl rfl, refines, .inl trivial⟩
    · exact ⟨_, .inr (.inl ⟨x, rfl⟩), refines, .inl ⟨not_false, trivial⟩⟩
    · exact ⟨_, .inr (.inr ⟨x, rfl⟩), refines, .inl ⟨not_false, trivial⟩⟩
  | cancel =>
    obtain ⟨written, -⟩ := silently_eq_ok.mp committed
    rcases cancel_refines consistent written with
      rfl | ⟨changes, key, digest, path, refines, fresh⟩
    · exact ⟨[], .quiet (.inl rfl) rfl⟩
    · exact ⟨_, .inr ⟨changes, key, digest, path, rfl⟩, refines, .inl fresh⟩
  | storeArtifact =>
    obtain ⟨id, written, -⟩ := answering_eq_ok.mp committed
    exact ⟨[], .quiet rfl (storeAttemptArtifact_quiet written)⟩
  | collectArtifact =>
    obtain ⟨id, written, -⟩ := answering_eq_ok.mp committed
    exact ⟨[], .quiet rfl (stageCollectedArtifact_quiet written)⟩
  | loadSource =>
    obtain ⟨id, written, -⟩ := answering_eq_ok.mp committed
    exact ⟨[], .quiet rfl (loadBoundSourceArtifact_quiet written)⟩
  | stageStop =>
    obtain ⟨id, written, -⟩ := answering_eq_ok.mp committed
    exact ⟨[], .quiet rfl (stageSupervisorStop_quiet written)⟩
  | submitStop =>
    obtain ⟨id, written, -⟩ := answering_eq_ok.mp committed
    obtain ⟨changes, path, refines, fresh⟩ := submitStop_refines written
    exact ⟨changes, path, refines, fresh⟩
  | submitHistoricalStop =>
    obtain ⟨id, written, -⟩ := answering_eq_ok.mp committed
    obtain ⟨changes, path, refines, fresh⟩ := submitHistoricalStop_refines written
    exact ⟨changes, path, refines, fresh⟩
  | submitClaimBoundStop =>
    obtain ⟨id, written, -⟩ := answering_eq_ok.mp committed
    obtain ⟨changes, path, refines, fresh⟩ := submitClaimBoundStop_refines written
    exact ⟨changes, path, refines, .inl fresh⟩
  | closeSignedOff =>
    obtain ⟨closed, written, -⟩ := answering_eq_ok.mp committed
    obtain ⟨changes, path, refines, fresh⟩ := closeSignedOff_refines written
    exact ⟨changes, path, refines, .inl fresh⟩
  | stageRecovery =>
    obtain ⟨evidence, written, -⟩ := answering_eq_ok.mp committed
    exact ⟨[], .quiet rfl (stageRecoveryEvidence_quiet written)⟩
  | recover =>
    obtain ⟨written, -⟩ := silently_eq_ok.mp committed
    obtain ⟨changes, path, refines⟩ := recover_refines consistent keys written
    exact ⟨changes, path, refines, .inl (path.fresh _)⟩
  | acceptPrepare =>
    obtain ⟨preparation, written, -⟩ := answering_eq_ok.mp committed
    exact ⟨[], .quiet rfl (acceptPrepare_quiet written)⟩
  | recordVerification =>
    obtain ⟨written, -⟩ := silently_eq_ok.mp committed
    exact ⟨[], .quiet rfl (recordVerification_quiet written)⟩
  | acceptFinish =>
    obtain ⟨receipt, written, -⟩ := answering_eq_ok.mp committed
    rcases acceptFinish_refines written with
      refines | ⟨x, row, refines, fresh⟩
    · exact ⟨_, .inl rfl, refines, .inl trivial⟩
    · exact ⟨_, .inr ⟨x, row, rfl⟩, refines, .inl fresh⟩
  | preparePublication =>
    obtain ⟨start, written, -⟩ := answering_eq_ok.mp committed
    rcases preparePublication_refines keys written with
      refines | ⟨x, id, headSha, refines⟩
    · exact ⟨_, .inl rfl, refines, .inl trivial⟩
    · exact ⟨_, .inr ⟨x, id, headSha, rfl⟩, refines, .inl ⟨not_false, trivial⟩⟩
  | sendPublication =>
    obtain ⟨written, -⟩ := silently_eq_ok.mp committed
    exact ⟨_, rfl, sendPublication_refines written, .inl ⟨not_false, trivial⟩⟩
  | storeReceipt value =>
    obtain ⟨written, -⟩ := silently_eq_ok.mp committed
    obtain rfl := Except.ok.inj written
    exact ⟨_, rfl, storeReceipt_refines value, .inl ⟨not_false, trivial⟩⟩
  | resolvePublication =>
    obtain ⟨receipt, written, -⟩ := answering_eq_ok.mp committed
    rcases resolvePublication_refines consistent written with
      refines | refines
    · exact ⟨_, .inl rfl, refines, .inl trivial⟩
    · exact ⟨_, .inr rfl, refines, .inl ⟨not_false, trivial⟩⟩
  | markPublished =>
    obtain ⟨rfl, -⟩ := Prod.mk.inj (Except.ok.inj committed)
    exact ⟨[], .quiet rfl (lifeOf_updateOutbox (fun _ => rfl) fun _ => rfl)⟩
  | backOff =>
    obtain ⟨rfl, -⟩ := Prod.mk.inj (Except.ok.inj committed)
    exact ⟨[], .quiet rfl (lifeOf_updateOutbox (fun _ => rfl) fun _ => rfl)⟩
  | _ => cases committed

end Rows

end Dispatch
end Scrum4Me
