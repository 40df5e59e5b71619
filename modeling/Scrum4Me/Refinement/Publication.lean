import Scrum4Me.Refinement.Basic
import Scrum4Me.Dispatch.Publication

/-!
# Refinement of publications and artifacts

Publications move on their own; artifacts are not seen at all.
-/

namespace Scrum4Me
namespace Dispatch

open Foundation

section Publication

variable {free : Uuid → Prop} {env : Env} {store : Store}
  {registry : Registry} {rows rows' : RequestRows}

/-! ## Publishing -/

variable {actor : Actor} {evidence : StopEvidence} {authority : Authority} {id operationId : Uuid}
  {proof : AttemptProof}

theorem preparePublication_refines {artifactId : Uuid} {baseBranch : String}
    {start : PublicationStart} (keys : rows.KeepsKeys rows')
    (prepared : preparePublication env registry rows actor authority artifactId
      baseBranch = .ok (rows', start)) :
    Refines free rows rows' [] ∨
      ∃ x id headSha, Refines free rows rows' [.preparePublication x id headSha] := by
  simp only [preparePublication, bind_eq_ok] at prepared
  obtain ⟨x, locked, prepared⟩ := prepared
  obtain ⟨lockedIn, -⟩ := lockAuthorized_spec locked
  split at prepared
  · simp only [pure_eq_ok, Prod.mk.injEq] at prepared
    obtain ⟨rfl, -⟩ := prepared
    exact .inl (.quiet rfl)
  · rename_i none'
    simp only [bind_eq_ok, ensure_eq_ok, require_eq_ok, pure_eq_ok, Prod.mk.injEq] at prepared
    obtain ⟨-, ⟨running, generation, stopped, -⟩, -, -, -, -, a, -, base, -,
      code, -, repo, -, -, -, rfl, -⟩ := prepared
    rw [lockedIn.r] at running generation
    have publications := (keys rfl).publications
    simp only [writePrepared, RequestRows.insertEvent, List.map_append,
      List.map_cons, List.map_nil] at publications
    refine .inr ⟨x.execution, env.uuid .publication rows.publications.length,
      code.headSha, .one ⟨lockedIn.inLife, generation.symm,
        Option.isSome_iff_ne_none.mpr stopped, running, ?_, ?_⟩ ?_⟩
    · intro member
      obtain ⟨p, inside, sameId⟩ := List.mem_map.mp member
      obtain ⟨row, own, rfl⟩ := List.mem_map.mp inside
      exact (List.nodup_append.mp publications).2.2 row.id
        (List.mem_map_of_mem own) _ List.mem_cons_self sameId
    · intro newest last
      rw [lifeOf, List.getLast?_map] at last
      obtain ⟨row, own, rfl⟩ := Option.map_eq_some_iff.mp last
      have newestRow : rows.newestPublication? = some row := own
      rw [existingPublication?, newestRow] at none'
      simp only [Option.filter_some, ite_eq_right_iff, reduceCtorEq, imp_false,
        Bool.or_eq_true, decide_eq_true_eq, not_or] at none'
      have settled := none'.2
      show ¬ row.state.Unresolved
      revert settled
      cases row.state <;> decide
    · refine (lifeOf_insertEvent _ _ _ _ (by trivial)).trans ?_
      have confirmed : (lifeOf rows).confirmedHead = rows.newestPublication?.bind fun old =>
            if old.state = .confirmed then some old.headSha else none := by
        simp only [Life.confirmedHead, lifeOf, List.getLast?_map, RequestRows.newestPublication?]
        cases rows.publications.getLast? <;> rfl
      rw [Change.apply, confirmed]
      simp only [lifeOf, List.map_append, List.map_cons, List.map_nil]
      cases rows.newestPublication? <;> rfl

theorem sendPublication_refines
    (sent : sendPublication env registry rows actor authority operationId = .ok rows') :
    Refines free rows rows' [.sendPublication operationId] := by
  simp only [sendPublication, bind_eq_ok, ensure_eq_ok, pure_eq_ok] at sent
  obtain ⟨x, locked, -, -, -, -, -, running, rfl⟩ := sent
  obtain ⟨lockedIn, -⟩ := lockArtifactAttempt_spec locked
  rw [lockedIn.r] at running
  refine .one running (lifeOf_updatePublication _ _ _ fun row => ?_)
  cases state : row.state <;> simp [PublicationRow.life, state]

theorem storeReceipt_refines (value : PublicationReceipt) :
    Refines free rows (storeReceipt env rows value)
      [.settlePublication value.operationId value.status.state] := by
  refine .one ?_ (lifeOf_updatePublication _ _ _ fun row => ?_)
  · cases value.status <;> exact ⟨(fun same => by cases same), fun same => by cases same⟩
  · cases state : row.state <;>
      simp [PublicationRow.life, state, PublicationState.Unresolved]

theorem resolvePublication_refines {actionId : String}
    {attestation : PublicationResolution} {receipt : Option PublicationReceipt}
    (consistent : (lifeOf rows).Consistent)
    (resolved : resolvePublication env registry rows actor operationId actionId
      attestation = .ok (rows', receipt)) :
    Refines free rows rows' [] ∨
      Refines free rows rows' [.settlePublication operationId .failed] := by
  simp only [resolvePublication, bind_eq_ok, ensure_eq_ok, require_eq_ok]
    at resolved
  obtain ⟨-, -, p, found, x, -, -, -, resolved⟩ := resolved
  have member := List.mem_of_find?_eq_some found
  have matched := List.find?_some found
  have own : p.id = operationId := of_decide_eq_true matched
  split at resolved
  · simp only [bind_eq_ok, ensure_eq_ok, pure_eq_ok, Prod.mk.injEq] at resolved
    obtain ⟨-, -, rfl, -⟩ := resolved
    exact .inl (.quiet rfl)
  · simp only [bind_eq_ok, ensure_eq_ok, pure_eq_ok, Prod.mk.injEq] at resolved
    obtain ⟨-, ⟨unknown, -⟩, stored, storing, rfl, -⟩ := resolved
    have kept := lifeOf_insertArtifact storing
    refine .inr (.one ⟨(fun same => by cases same), fun same => by cases same⟩
      ((lifeOf_insertEvent _ _ _ _ (by trivial)).trans ?_))
    rw [lifeOf_updatePublication _ _ (fun row => { row with state := .failed })
      fun _ => rfl, kept, own]
    obtain ⟨past, current, consistent⟩ := consistent
    have distinct := consistent.publications.distinct
    simp only [Change.apply, Life.setPublication]
    have same : updateWhere (fun row => row.id = operationId)
        (fun row : PublicationLife => { row with state := .failed })
        (lifeOf rows).publications =
      updateWhere (fun row => row.id = operationId) (fun row =>
          if row.state.Unresolved then { row with state := .failed } else row)
        (lifeOf rows).publications := by
      apply List.map_congr_left
      intro row inside
      by_cases chosen : row.id = operationId
      · have unresolved : row.state.Unresolved := by
          have same : row = p.life :=
            List.inj_on_of_nodup_map distinct inside
              (List.mem_map_of_mem member) (chosen.trans own.symm)
          rw [same]
          exact .inr (.inr unknown)
        simp [chosen, unresolved]
      · simp [chosen]
    rw [same]

/-! ## Artifacts -/

variable {bytes : Document} {sha256 : Sha256}

theorem storeAttemptArtifact_quiet {key : String}
    (stored : storeAttemptArtifact env registry rows actor proof key bytes
      sha256 = .ok (rows', id)) :
    lifeOf rows' = lifeOf rows := by
  simp only [storeAttemptArtifact, bind_eq_ok, ensure_eq_ok] at stored
  obtain ⟨-, -, -, -, x, -, -, -, -, -, -, -, stored⟩ := stored
  exact lifeOf_insertArtifact stored

theorem stageCollectedArtifact_quiet {binding : StartBinding} {key : String}
    (staged : stageCollectedArtifact env registry rows actor binding key bytes
      sha256 = .ok (rows', id)) :
    lifeOf rows' = lifeOf rows := by
  simp only [stageCollectedArtifact, bind_eq_ok, ensure_eq_ok] at staged
  obtain ⟨-, -, x, -, -, -, -, -, -, -, -, -, -, -, staged⟩ := staged
  exact lifeOf_insertArtifact staged

theorem loadBoundSourceArtifact_quiet
    (loaded : loadBoundSourceArtifact env registry rows actor proof id = .ok (rows', bytes)) :
    lifeOf rows' = lifeOf rows := by
  simp only [loadBoundSourceArtifact, bind_eq_ok, ensure_eq_ok, require_eq_ok]
    at loaded
  obtain ⟨x, -, -, -, -, -, -, -, row, -, -, -, loaded⟩ := loaded
  split at loaded
  · simp only [pure_eq_ok, Prod.mk.injEq] at loaded
    obtain ⟨rfl, -⟩ := loaded
    exact lifeOf_insertEvent _ _ _ _ trivial
  · simp only [pure_eq_ok, Prod.mk.injEq] at loaded
    obtain ⟨rfl, -⟩ := loaded
    rfl

theorem stageSupervisorStop_quiet {body : StopObservation}
    (staged : stageSupervisorStop env registry rows actor body sha256 = .ok (rows', evidence)) :
    lifeOf rows' = lifeOf rows := by
  simp only [stageSupervisorStop, bind_eq_ok, ensure_eq_ok, pure_eq_ok, Prod.mk.injEq] at staged
  obtain ⟨-, -, -, -, x, -, -, -, -, -, -, -, stored, storing, rfl, -⟩ := staged
  exact lifeOf_insertArtifact storing

theorem stageRecoveryEvidence_quiet {attestation : RecoveryAttestation}
    (staged : stageRecoveryEvidence env registry rows actor attestation = .ok (rows', evidence)) :
    lifeOf rows' = lifeOf rows := by
  simp only [stageRecoveryEvidence, bind_eq_ok, ensure_eq_ok, pure_eq_ok, Prod.mk.injEq] at staged
  obtain ⟨-, -, x, -, -, -, -, -, stored, storing, rfl, -⟩ := staged
  exact lifeOf_insertArtifact storing

end Publication

end Dispatch
end Scrum4Me
