import Scrum4Me.Refinement.Runs

/-!
# Administration happens once

An operation key answers once and for all, whatever is retried in between, and of the
incarnations of a slot only the newest is open.
-/

namespace Scrum4Me
namespace Dispatch

open Foundation

/-- The key and the input under which an action is recorded. -/
def Action.operation? : Action → Option (OperationKey × OperationInput)
  | .register actor input =>
      some (⟨actor.principalKey, .register, input.registrationKey⟩,
        .register input.slotId input.bootId input.runtime input.imageDigest input.profileSha256)
  | .createSlot actor input =>
      some (⟨actor.principalKey, .slot, input.actionId⟩,
        .slot input.tokenId input.productId input.kind input.capacityKey input.profileRevisionIds)
  | .disableSlot actor id actionId expectedVersion =>
      some (⟨actor.principalKey, .disableSlot, actionId⟩, .disableSlot id expectedVersion)
  | .createProfile actor key productId actionId _ config =>
      some (⟨actor.principalKey, .profile, actionId⟩, .profile key productId config)
  | .revokeProfile actor id actionId reason =>
      some (⟨actor.principalKey, .revokeProfile, actionId⟩, .revokeProfile id reason)
  | _ => none

/-- An action without a key records nothing; one with a key is replayed, or carried
out and recorded. -/
inductive Records (registry : Registry) (action : Action) (registry' : Registry) : Answer → Prop
  | unnamed {answer : Answer} (unnamed : action.operation? = none)
      (kept : registry'.operations = registry.operations) :
      Records registry action registry' answer
  | replayed (old : OperationRow) (known : old ∈ registry.operations)
      (same : action.operation? = some (old.operationKey, old.input)) (kept : registry' = registry) :
      Records registry action registry' (.operation old.response)
  | recorded (new : OperationRow) (fresh : new.operationKey ∉
        registry.operations.map OperationRow.operationKey)
      (named : action.operation? = some (new.operationKey, new.input))
      (grown : registry'.operations = registry.operations ++ [new]) :
      Records registry action registry' (.operation new.response)

/-- Operation keys are unique, and of a slot only the newest incarnation is open. -/
structure Registry.Orderly (registry : Registry) : Prop where
  keys : (registry.operations.map OperationRow.operationKey).Nodup
  newest : registry.incarnations.Pairwise fun earlier later =>
    earlier.slotId = later.slotId → earlier.signedOffAt ≠ none

section Registries

variable {env : Env} {store store' : Store} {registry registry' : Registry} {action : Action}
  {answer : Answer}

theorem withDispatchOperation_records {key : OperationKey} {input : OperationInput}
    {mutate : Except Failure (Registry × OperationResponse)} {response : OperationResponse}
    (committed : withDispatchOperation registry key input mutate = .ok (registry', response))
    (named : action.operation? = some (key, input))
    (mutates : ∀ mutated, mutate = .ok mutated → mutated.1.operations = registry.operations ∧
      (registry.Orderly → mutated.1.Orderly)) :
    Records registry action registry' (.operation response) ∧
      (registry.Orderly → registry'.Orderly) := by
  simp only [withDispatchOperation, bind_eq_ok, ensure_eq_ok] at committed
  obtain ⟨-, -, committed⟩ := committed
  split at committed
  · rename_i old found
    simp only [bind_eq_ok, ensure_eq_ok, pure_eq_ok, Prod.mk.injEq] at committed
    obtain ⟨-, rfl, rfl, rfl⟩ := committed
    have own := List.find?_some found
    obtain rfl := of_decide_eq_true own
    exact ⟨.replayed old (List.mem_of_find?_eq_some found) named rfl, fun orderly => orderly⟩
  · rename_i missed
    simp only [bind_eq_ok, pure_eq_ok, Prod.mk.injEq] at committed
    obtain ⟨mutated, done, rfl, rfl⟩ := committed
    obtain ⟨kept, orderly⟩ := mutates mutated done
    have fresh : key ∉ registry.operations.map OperationRow.operationKey := by
      simpa [Registry.operation?] using missed
    refine ⟨.recorded ⟨key, input, mutated.2⟩ fresh named (by rw [kept]),
      fun before => ⟨?_, (orderly before).newest⟩⟩
    simpa [kept, List.nodup_append, before.keys] using fresh

/-- A fresh incarnation closes the others of its slot. -/
theorem Registry.Orderly.register {row : IncarnationRow} {slotId : Uuid}
    (orderly : registry.Orderly) (own : row.slotId = slotId) :
    Orderly { registry.signOff env slotId with
      incarnations := (registry.signOff env slotId).incarnations ++ [row] } where
  keys := orderly.keys
  newest := by
    refine List.pairwise_append.mpr
      ⟨List.pairwise_map.mpr (orderly.newest.imp ?_), List.pairwise_singleton _ _, ?_⟩
    · grind
    · intro earlier member later new
      obtain rfl := List.mem_singleton.mp new
      rcases mem_updateWhere.mp member with ⟨old, -, -, rfl⟩ | ⟨-, missed⟩
      · exact fun _ => Option.some_ne_none _
      · exact fun same isOpen => of_decide_eq_false missed ⟨same.trans own, isOpen⟩

theorem records_of_transact (committed : transact env store action = .ok (store', answer)) :
    Records store.registry action store'.registry answer ∧
      (store.registry.Orderly → store'.registry.Orderly) := by
  cases action with
  | register =>
    simp only [transact, onRegistry, registerDispatchExecutor, bind_eq_ok, pure_eq_ok,
      Prod.mk.injEq] at committed
    obtain ⟨value, ⟨_, -, -, -, -, -, done⟩, rfl, rfl⟩ := committed
    refine withDispatchOperation_records done rfl fun mutated same => ?_
    obtain rfl := Except.ok.inj same
    exact ⟨rfl, fun orderly => orderly.register rfl⟩
  | createSlot =>
    simp only [transact, onRegistry, createSlot, bind_eq_ok, pure_eq_ok, Prod.mk.injEq] at committed
    obtain ⟨value, ⟨-, -, -, -, -, -, -, -, done⟩, rfl, rfl⟩ := committed
    refine withDispatchOperation_records done rfl fun mutated same => ?_
    simp only [bind_eq_ok, pure_eq_ok] at same
    obtain ⟨-, -, -, -, -, -, -, -, rfl⟩ := same
    exact ⟨rfl, fun orderly => ⟨orderly.keys, orderly.newest⟩⟩
  | disableSlot =>
    simp only [transact, onRegistry, disableSlot, bind_eq_ok, pure_eq_ok, Prod.mk.injEq] at committed
    obtain ⟨value, done, rfl, rfl⟩ := committed
    refine withDispatchOperation_records done rfl fun mutated same => ?_
    simp only [bind_eq_ok, pure_eq_ok] at same
    obtain ⟨-, -, -, -, -, -, -, -, rfl⟩ := same
    exact ⟨rfl, fun orderly => ⟨orderly.keys, orderly.newest⟩⟩
  | createProfile | revokeProfile =>
    simp only [transact, onRegistry, createProfile, revokeProfile, bind_eq_ok, pure_eq_ok,
      Prod.mk.injEq] at committed
    obtain ⟨value, ⟨-, -, done⟩, rfl, rfl⟩ := committed
    refine withDispatchOperation_records done rfl fun mutated same => ?_
    simp only [bind_eq_ok, pure_eq_ok] at same
    obtain ⟨-, -, -, -, rfl⟩ := same
    exact ⟨rfl, fun orderly => ⟨orderly.keys, orderly.newest⟩⟩
  | submit =>
    simp only [transact, bind_eq_ok, pure_eq_ok, Prod.mk.injEq] at committed
    obtain ⟨⟨written, id⟩, submitted, rfl, -⟩ := committed
    simp only [submitDispatch, bind_eq_ok] at submitted
    obtain ⟨-, -, -, -, -, -, submitted⟩ := submitted
    split at submitted <;> simp only [bind_eq_ok, pure_eq_ok, Prod.mk.injEq] at submitted <;>
      obtain ⟨-, -, rfl, -⟩ := submitted <;> exact ⟨.unnamed rfl rfl, fun orderly => orderly⟩
  | claim =>
    simp only [transact, bind_eq_ok] at committed
    obtain ⟨⟨rows, receipt⟩, -, committed⟩ := committed
    cases rows <;> cases committed <;> exact ⟨.unnamed rfl rfl, fun orderly => orderly⟩
  | republish =>
    cases committed
    exact ⟨.unnamed rfl rfl, fun orderly => orderly⟩
  | heartbeat =>
    simp only [transact, onRegistry, heartbeatExecutor, bind_eq_ok, pure_eq_ok,
      Prod.mk.injEq] at committed
    obtain ⟨-, ⟨-, -, -, -, -, -, rfl⟩, rfl, -⟩ := committed
    refine ⟨.unnamed rfl rfl, fun orderly => ⟨orderly.keys, ?_⟩⟩
    refine List.pairwise_map.mpr (orderly.newest.imp ?_)
    grind
  | _ =>
    simp only [transact, onRows, bind_eq_ok, pure_eq_ok, Prod.mk.injEq] at committed
    obtain ⟨-, -, -, -, rfl, -⟩ := committed
    exact ⟨.unnamed rfl rfl, fun orderly => orderly⟩

theorem records_of_perform {input : Input}
    (committed : perform store input = .ok (store', answer)) :
    Records store.registry input.action store'.registry answer ∧
      (store.registry.Orderly → store'.registry.Orderly) := by
  obtain ⟨changed, transacted, -, -, rfl⟩ := perform_eq_ok committed
  exact (records_of_transact transacted :)

end Registries

/-- The registry is orderly, and what commits is recorded once. -/
structure Store.AdministersOnce (store : Store) (input : Input) : Prop where
  orderly : store.registry.Orderly
  records : ∀ store' answer, perform store input = .ok (store', answer) →
    Records store.registry input.action store'.registry answer

end Dispatch
end Scrum4Me
