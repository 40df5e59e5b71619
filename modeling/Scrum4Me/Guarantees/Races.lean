import Scrum4Me.Guarantees.CanonicalResult

/-!
# Cancellation, results and publications

A request that was asked to stop only ends as cancelled, unless an operator
closes it as failed. Nothing is sent for it any more, and all its cancellations
together write two versions at most.
-/

namespace Scrum4Me
namespace Dispatch

open Foundation

/-! ## Requests that are being cancelled -/

/-- A cancellation was taken, or would change nothing. -/
def DispatchState.Closing (state : DispatchState) : Prop :=
  state = .cancelRequested ∨ state.Terminal

/-- The ways in which a request that was asked to stop goes on; the last one is
an operator's. -/
def DispatchState.Cancelling (failing : Prop) (state : DispatchState) : Prop :=
  state = .cancelRequested ∨ state = .cancelled ∨ failing ∧ state = .failed

/-- How many versions the cancellations of a request may still write. -/
def DispatchState.cancelRank (state : DispatchState) : Nat :=
  if state.Terminal then 0 else if state = .cancelRequested then 1 else 2

/-- The operator closes the request as failed. -/
def Change.Fails : Change → Prop
  | .recover _ result _ => result.outcome = .failed
  | _ => False

section Lives

variable {free : Uuid → Prop} {life : Life} {past : List Episode} {current : Option Episode}
  {failing : Prop} {state : DispatchState}

theorem DispatchState.Cancelling.closing (cancelling : state.Cancelling failing) :
    state.Closing := by
  rcases cancelling with rfl | rfl | ⟨-, rfl⟩
  · exact .inl rfl
  · exact .inr (by decide)
  · exact .inr (by decide)

/-- A request that waits to be stopped has an attempt, so nobody abandons it. -/
theorem Life.History.not_abandoned
    (history : life.History past current) (requested : life.state = .cancelRequested)
    {candidate : Option CandidateLife} {result : ResultRow} :
    ¬ (Change.abandon candidate result).Allowed free life := by
  rintro ⟨-, -, -, -, -, about⟩
  obtain ⟨e, rfl, executing⟩ := history.executing .cancelRequested requested
  have flat := history.flat
  have inside : e ∈ past ++ (some e).toList := by simp
  have own : e.candidate ∈ life.candidates := by
    rw [flat.candidates]
    exact List.mem_map_of_mem inside
  have isOpen := history.isOpen_current.2
  obtain ⟨-, -, a, attempt, -⟩ := executing
  cases candidate with
  | none => exact about e.candidate own history.generation_current isOpen
  | some row =>
    obtain ⟨member, generation, -, unclaimed⟩ := about
    obtain ⟨e', episode, rfl⟩ := flat.mem_candidates.mp member
    have sameGeneration : e'.candidate.generation = e.candidate.generation :=
      generation.trans history.generation_current.symm
    have distinct : ((past ++ (some e).toList).map fun e =>
        e.candidate.generation).Nodup := by
      rw [flat.generations]
      exact List.nodup_range'
    obtain rfl := List.inj_on_of_nodup_map distinct episode inside sameGeneration
    rw [(flat.linked e' inside).claimed, attempt] at unclaimed
    cases unclaimed

/-- A request that was asked to stop goes on as one. -/
theorem Life.History.cancelling (history : life.History past current) (change : Change)
    (allowed : change.Allowed free life) (fails : change.Fails → failing)
    (cancelling : life.state.Cancelling failing) :
    (change.apply life).state.Cancelling failing := by
  rcases cancelling.closing with requested | ended
  · cases change with
    | reserve =>
      have waiting := requested.symm.trans allowed.1
      cases waiting
    | retire =>
      have reserved := requested.symm.trans allowed.2.1
      cases reserved
    | abandon => exact (history.not_abandoned requested allowed).elim
    | claim =>
      have reserved := requested.symm.trans allowed.2.1
      cases reserved
    | start =>
      obtain ⟨-, -, -, -, state⟩ := allowed
      rw [requested] at state
      rcases state with h | h <;> cases h
    | resume =>
      obtain ⟨-, -, -, -, -, state⟩ := allowed
      rw [requested] at state
      cases state
    | lapse =>
      obtain ⟨-, -, -, state, -⟩ := allowed
      rw [requested] at state
      rcases state with h | h | h <;> cases h
    | requestStop => exact .inl rfl
    | finish x result =>
      obtain ⟨-, -, -, -, -, -, -, -, outcome, -⟩ := allowed
      refine .inr (.inl ?_)
      show result.outcome.dispatchState = .cancelled
      rw [outcome requested]
      rfl
    | recover x result =>
      obtain ⟨-, -, -, -, -, -, -, outcome⟩ := allowed
      show result.outcome.dispatchState.Cancelling failing
      cases closed : result.outcome with
      | succeeded => exact (outcome closed).elim
      | failed => exact .inr (.inr ⟨fails closed, rfl⟩)
      | cancelled => exact .inr (.inl rfl)
    | retry =>
      obtain ⟨-, -, -, -, state, -⟩ := allowed
      rw [requested] at state
      cases state
    | _ => exact cancelling
  · rw [(Change.sameEnd ended allowed).state]
    exact cancelling

theorem Life.Consistent.cancelling_applyAll
    (consistent : life.Consistent) {changes : List Change} (path : life.Path free changes)
    (fails : ∀ change ∈ changes, change.Fails → failing)
    (cancelling : life.state.Cancelling failing) :
    (life.applyAll changes).state.Cancelling failing := by
  induction changes generalizing life with
  | nil => exact cancelling
  | cons change rest ih =>
    obtain ⟨allowed, path⟩ := path
    have next := consistent.apply change allowed
    obtain ⟨past, current, consistent⟩ := consistent
    exact ih next path (fun other member => fails other (List.mem_cons_of_mem _ member))
      (consistent.history.cancelling change allowed (fails change List.mem_cons_self) cancelling)

/-! ## Publications -/

/-- Every publication that is sent was sent before. -/
def Life.NothingSent (life life' : Life) : Prop :=
  ∀ p' ∈ life'.publications, p'.state = .sent →
    ∃ p ∈ life.publications, p.id = p'.id ∧ p.state = .sent

theorem Life.NothingSent.trans {life' life'' : Life} (first : life.NothingSent life')
    (second : life'.NothingSent life'') :
    life.NothingSent life'' := by
  intro p member sent
  obtain ⟨q, inside, sameId, sent'⟩ := second p member sent
  obtain ⟨r, found, sameId', sent''⟩ := first q inside sent'
  exact ⟨r, found, sameId'.trans sameId, sent''⟩

theorem Life.NothingSent.of_publications
    {life' : Life} (publications : life'.publications = life.publications) :
    life.NothingSent life' := by
  intro p member sent
  rw [publications] at member
  exact ⟨p, member, rfl, sent⟩

/-- Nothing is sent for a request that is being cancelled or has ended. -/
theorem Change.nothingSent {change : Change} (allowed : change.Allowed free life)
    (closing : life.state.Closing) :
    life.NothingSent (change.apply life) := by
  have notRunning : life.state ≠ .running := by
    intro running
    rw [running] at closing
    rcases closing with h | h
    · cases h
    · exact absurd h (by decide)
  cases change with
  | preparePublication => exact (notRunning allowed.2.2.2.1).elim
  | sendPublication => exact (notRunning allowed).elim
  | settlePublication id state =>
    intro p member sent
    rcases mem_updateWhere.mp member with ⟨q, inside, own, rfl⟩ | ⟨inside, -⟩
    · split at sent
      · exact (allowed.2 sent).elim
      · rename_i settled
        exact (settled (by rw [sent]; decide)).elim
    · exact ⟨p, inside, rfl, sent⟩
  | abandon candidate => cases candidate <;> exact .of_publications rfl
  | _ => exact .of_publications rfl

/-! ## Versions -/

/-- The changes that a cancellation makes. -/
def Change.OfCancel : Change → Prop
  | .abandon _ _ => True
  | .requestStop _ => True
  | .finish _ _ _ => True
  | .recordCancel _ _ => True
  | _ => False

theorem DispatchState.cancelRank_terminal (ended : state.Terminal) :
    state.cancelRank = 0 := if_pos ended

theorem DispatchState.cancelRank_pos (notEnded : ¬ state.Terminal) : 1 ≤ state.cancelRank := by
  unfold cancelRank
  rw [if_neg notEnded]
  split <;> omega

/-- What a cancellation writes is paid for by its rank. -/
theorem Change.cancelRank_apply
    {change : Change} (allowed : change.Allowed free life) (ofCancel : change.OfCancel) :
    (change.apply life).version + (change.apply life).state.cancelRank ≤
      life.version + life.state.cancelRank := by
  cases change with
  | abandon candidate result =>
    have before := DispatchState.cancelRank_pos allowed.1
    have ended : ((Change.abandon candidate result).apply life).state.cancelRank = 0 := by
      apply DispatchState.cancelRank_terminal
      cases candidate <;> exact result.outcome.terminal_dispatchState
    have version : ((Change.abandon candidate result).apply life).version = life.version + 1 := by
      cases candidate <;> rfl
    omega
  | requestStop x =>
    obtain ⟨-, -, notEnded, notRequested, -⟩ := allowed
    have before : life.state.cancelRank = 2 := by
      unfold DispatchState.cancelRank
      rw [if_neg notEnded, if_neg notRequested]
    have next : ((Change.requestStop x).apply life).state.cancelRank = 1 := rfl
    have version : ((Change.requestStop x).apply life).version = life.version + 1 := rfl
    omega
  | finish x result submitted =>
    obtain ⟨-, -, -, -, -, notEnded, -⟩ := allowed
    have before := DispatchState.cancelRank_pos notEnded
    have ended : ((Change.finish x result submitted).apply life).state.cancelRank = 0 :=
      DispatchState.cancelRank_terminal result.outcome.terminal_dispatchState
    have version : ((Change.finish x result submitted).apply life).version = life.version + 1 := rfl
    omega
  | recordCancel => exact Nat.le_refl _
  | _ => exact ofCancel.elim

theorem Life.cancelRank_applyAll {changes : List Change} (path : life.Path free changes)
    (ofCancel : ∀ change ∈ changes, change.OfCancel) :
    (life.applyAll changes).version + (life.applyAll changes).state.cancelRank ≤
      life.version + life.state.cancelRank := by
  induction changes generalizing life with
  | nil => exact Nat.le_refl _
  | cons change rest ih =>
    obtain ⟨allowed, path⟩ := path
    exact (ih path fun other member =>
      ofCancel other (List.mem_cons_of_mem _ member)).trans
        (Change.cancelRank_apply allowed (ofCancel change List.mem_cons_self))

end Lives

/-! ## Requests along a run -/

/-- The operator's decision to close a request as failed. -/
def Action.ClosesFailed : Action → Prop
  | .recover _ _ _ _ _ mode => mode = .closeFailed
  | _ => False

/-- The request that an action cancels. -/
def Action.cancels? : Action → Option Uuid
  | .cancel _ id _ _ => some id
  | _ => none

variable {changes : List Change}

theorem StopPath.not_fails (path : StopPath changes) : ∀ change ∈ changes, ¬ change.Fails := by
  cases path <;> simp [Change.Fails]

theorem RecoveryPath.fails {mode : RecoveryMode} (path : RecoveryPath mode changes) :
    ∀ change ∈ changes, change.Fails → mode = .closeFailed := by
  have ends : ∀ {change}, RecoveryEnd mode change → change.Fails → mode = .closeFailed := by
    intro change ends fails
    cases ends with
    | closed x result submitted outcome => exact outcome fails
    | retried => exact fails.elim
  cases path with
  | replayed => simp
  | decided change last =>
    intro other member
    obtain rfl := List.mem_singleton.mp member
    exact ends last
  | stoppedAndDecided x mark change last =>
    intro other member fails
    rcases List.mem_cons.mp member with rfl | member
    · exact fails.elim
    · obtain rfl := List.mem_singleton.mp member
      exact ends last fails

theorem CancelPath.ofCancel (path : CancelPath changes) : ∀ change ∈ changes, change.OfCancel := by
  cases path <;> simp [Change.OfCancel]

theorem Change.OfCancel.not_fails {change : Change} (ofCancel : change.OfCancel) :
    ¬ change.Fails := by
  cases change <;> first
    | exact ofCancel.elim
    | exact not_false

theorem Action.Makes.ofCancel {action : Action} {id : Uuid} (makes : action.Makes changes)
    (cancels : action.cancels? = some id) :
    ∀ change ∈ changes, change.OfCancel := by
  cases action with
  | cancel =>
    rcases makes with rfl | ⟨earlier, key, digest, path, rfl⟩
    · simp
    · intro change member
      rcases mem_inserted.mp member with early | rfl
      · exact path.ofCancel change early
      · trivial
  | _ => cases cancels

/-- Only the operator closes a request as failed. -/
theorem Action.Makes.fails {action : Action} (makes : action.Makes changes) :
    ∀ change ∈ changes, change.Fails → action.ClosesFailed := by
  intro change member fails
  cases action with
  | recover => exact RecoveryPath.fails makes change member fails
  | cancel => exact (makes.ofCancel rfl change member).not_fails fails |>.elim
  | submitStop => exact (StopPath.not_fails makes change member fails).elim
  | submitHistoricalStop => exact (StopPath.not_fails makes change member fails).elim
  | submitClaimBoundStop => exact (StopPath.not_fails makes change member fails).elim
  | closeSignedOff => exact (StopPath.not_fails makes change member fails).elim
  | _ =>
    simp only [Action.Makes] at makes
    grind [Change.Fails]

section Runs

variable {store : Store} {input : Input} {rows rows' : RequestRows} {inputs : List Input}

/-- A request that was asked to stop goes on as one, or ends cancelled, or failed
by decision of an operator. -/
theorem Store.Sound.cancelling {failing : Prop} (sound : store.Sound)
    (operator : ∀ input ∈ inputs, input.action.ClosesFailed → failing)
    (member : rows ∈ store.requests) (member' : rows' ∈ (run execute store inputs).requests)
    (sameId : rows'.request.id = rows.request.id)
    (cancelling : rows.request.state.Cancelling failing) :
    rows'.request.state.Cancelling failing := by
  refine sound.along (fun _ input => input.action.ClosesFailed → failing)
    (fun rows rows' => rows.request.state.Cancelling failing →
      rows'.request.state.Cancelling failing)
    (fun _ kept => kept) (fun first second kept => second (first kept)) ?_
    (everyStep_of_forall (fun _ => operator) store) member member' sameId
    cancelling
  intro store input rows rows' sound operator member member' sameId cancelling
  cases sound.successor member member' sameId with
  | kept life =>
    have state : rows'.request.state = rows.request.state := congrArg Life.state life
    rw [state]
    exact cancelling
  | changed changes evolves =>
    have state : rows'.request.state = ((lifeOf rows).applyAll changes).state :=
      congrArg Life.state evolves.refines.life
    rw [state]
    exact (sound.consistent rows member).cancelling_applyAll evolves.refines.path
      (fun change inside fails => operator (evolves.makes.fails change inside fails)) cancelling

/-- A request that is being cancelled or has ended stays so. -/
theorem Store.Sound.closing
    (sound : store.Sound) (inputs : List Input) (member : rows ∈ store.requests)
    (member' : rows' ∈ (run execute store inputs).requests)
    (sameId : rows'.request.id = rows.request.id) (closing : rows.request.state.Closing) :
    rows'.request.state.Closing := by
  rcases closing with requested | ended
  · have kept : rows'.request.state.Cancelling True :=
      sound.cancelling (fun _ _ _ => trivial) member member' sameId (.inl requested)
    exact kept.closing
  · have same : rows'.request.state = rows.request.state :=
      (sound.sameEnd inputs member member' sameId ended).state
    rw [same]
    exact .inr ended

theorem Life.Consistent.closing_applyAll {free : Uuid → Prop} {life : Life}
    (consistent : life.Consistent) (path : life.Path free changes) (closing : life.state.Closing) :
    (life.applyAll changes).state.Closing := by
  rcases closing with requested | ended
  · have kept : (life.applyAll changes).state.Cancelling True :=
      consistent.cancelling_applyAll path (fun _ _ _ => trivial) (.inl requested)
    exact kept.closing
  · rw [(Life.sameEnd_applyAll ended path).state]
    exact .inr ended

theorem Life.Consistent.nothingSent_applyAll {free : Uuid → Prop} {life : Life}
    (consistent : life.Consistent) (path : life.Path free changes) (closing : life.state.Closing) :
    life.NothingSent (life.applyAll changes) := by
  induction changes generalizing life with
  | nil => exact .of_publications rfl
  | cons change rest ih =>
    have first : life.Path free [change] := ⟨path.1, trivial⟩
    have next : (life.applyAll [change]).state.Closing := consistent.closing_applyAll first closing
    exact (Change.nothingSent path.1 closing).trans
      (ih (consistent.apply change path.1) path.2 next)

/-- Nothing is sent for a request that is being cancelled or has ended. -/
theorem Store.Sound.nothingSent
    (sound : store.Sound) (inputs : List Input) (member : rows ∈ store.requests)
    (member' : rows' ∈ (run execute store inputs).requests)
    (sameId : rows'.request.id = rows.request.id) (closing : rows.request.state.Closing) :
    (lifeOf rows).NothingSent (lifeOf rows') := by
  have both := sound.along (fun _ _ => True) (fun rows rows' => rows.request.state.Closing →
      rows'.request.state.Closing ∧ (lifeOf rows).NothingSent (lifeOf rows'))
    (fun _ kept => ⟨kept, .of_publications rfl⟩)
    (fun first second kept =>
      ⟨(second (first kept).1).1, (first kept).2.trans (second (first kept).1).2⟩)
    (fun store input rows rows' sound _ member member' sameId closing => by
      refine ⟨sound.closing [input] member member' sameId closing, ?_⟩
      cases sound.successor member member' sameId with
      | kept life =>
        rw [life]
        exact .of_publications rfl
      | changed changes evolves =>
        rw [evolves.refines.life]
        exact (sound.consistent rows member).nothingSent_applyAll evolves.refines.path closing)
    (everyStep_of_forall (fun _ _ _ => trivial) store) member member' sameId
    closing
  exact both.2

end Runs

/-! ## Recorded cancellations -/

/-- The key under which an action cancels. -/
def Action.cancelKey? : Action → Option OperationKey
  | .cancel actor _ actionId _ =>
      some
        { principalKey := actor.principalKey
          purpose := .cancel
          actionId := actionId }
  | _ => none

section Recorded

variable {free : Uuid → Prop} {env : Env} {store store' : Store}
  {registry : Registry} {input : Input} {answer : Answer}
  {rows rows' : RequestRows} {key : OperationKey} {id : Uuid}

/-- Only a request that is being cancelled or has ended has a cancellation. -/
def Life.CancelAccounts (life : Life) : Prop :=
  life.cancellations ≠ [] → life.state.Closing

theorem Change.cancellations_apply
    {change : Change} {life : Life} (allowed : change.Allowed free life) :
    (change.apply life).cancellations = life.cancellations ∨ life.state.Closing := by
  cases change with
  | recordCancel => exact .inr allowed
  | abandon candidate => cases candidate <;> exact .inl rfl
  | _ => exact .inl rfl

theorem Life.Consistent.cancelAccounts_applyAll {life : Life} (consistent : life.Consistent)
    (path : life.Path free changes) (accounts : life.CancelAccounts) :
    (life.applyAll changes).CancelAccounts := by
  induction changes generalizing life with
  | nil => exact accounts
  | cons change rest ih =>
    have first : life.Path free [change] := ⟨path.1, trivial⟩
    refine ih (consistent.apply change path.1) path.2 ?_
    intro recorded
    refine consistent.closing_applyAll first ?_
    rcases Change.cancellations_apply path.1 with same | closing
    · exact accounts (by rw [← same]; exact recorded)
    · exact closing

theorem cancelAccounts_after (inputs : List Input) :
    ∀ rows ∈ (after inputs).requests, (lifeOf rows).CancelAccounts := by
  have kept := run_invariant_always (fun (store : Store) (input : Input) (earlier : store.Sound ∧
          ∀ rows ∈ store.requests, (lifeOf rows).CancelAccounts) =>
      (⟨earlier.1.next input, fun rows' member => by
        obtain ⟨sound, accounts⟩ := earlier
        cases sound.origin member with
        | submitted life =>
          rw [life]
          exact fun recorded => (recorded rfl).elim
        | kept rows own life =>
          rw [life]
          exact accounts rows own
        | changed rows changes own evolves =>
          rw [evolves.refines.life]
          exact (sound.consistent rows own).cancelAccounts_applyAll
            evolves.refines.path (accounts rows own)⟩ :
        (execute store input).Sound ∧ ∀ rows ∈ (execute store input).requests,
            (lifeOf rows).CancelAccounts))
    (⟨Store.sound_empty, fun rows member => by cases member⟩ : Store.empty.Sound ∧
        ∀ rows ∈ Store.empty.requests, (lifeOf rows).CancelAccounts) inputs
  exact kept.2

/-- The key was answered with a cancellation. -/
def Life.CancelledUnder (life : Life) (key : OperationKey) : Prop :=
  ∃ digest, (key, digest) ∈ life.cancellations

theorem cancelAction?_lifeOf (rows : RequestRows) (key : OperationKey) :
    (lifeOf rows).CancelledUnder key ↔ rows.cancelAction? key ≠ none := by
  simp only [Life.CancelledUnder, lifeOf, RequestRows.cancelAction?,
    List.mem_filterMap, ne_eq, List.findSome?_eq_none_iff, not_forall,
    EventRow.cancelAction?]
  constructor
  · rintro ⟨digest, event, member, read⟩
    refine ⟨event, member, ?_⟩
    split at read
    · obtain ⟨rfl, rfl⟩ := Prod.mk.inj (Option.some.inj read)
      simp_all
    · cases read
  · rintro ⟨event, member, read⟩
    split at read
    · rename_i recorded digest body
      split at read
      · rename_i own
        exact ⟨digest, event, member, by rw [body, own]⟩
      · exact (read rfl).elim
    · exact (read rfl).elim

/-- A cancellation leaves its key on record, and does nothing where the key was
on record before. -/
theorem cancelDispatch_records {actor : Actor} {actionId : String} {expectedVersion : Nat}
    (cancelled : cancelDispatch env registry rows actor actionId expectedVersion = .ok rows') :
    let key : OperationKey :=
      { principalKey := actor.principalKey
        purpose := .cancel
        actionId := actionId }
    (lifeOf rows').CancelledUnder key ∧ ((lifeOf rows).CancelledUnder key → rows' = rows) := by
  simp only [cancelDispatch, bind_eq_ok, ensure_eq_ok] at cancelled
  obtain ⟨-, -, -, -, -, -, cancelled⟩ := cancelled
  split at cancelled
  · rename_i recorded found
    simp only [bind_eq_ok, ensure_eq_ok, pure_eq_ok] at cancelled
    obtain ⟨-, -, rfl⟩ := cancelled
    refine ⟨(cancelAction?_lifeOf _ _).mpr ?_, fun _ => rfl⟩
    rw [found]
    exact Option.some_ne_none _
  · rename_i missing
    simp only [bind_eq_ok, ensure_eq_ok, pure_eq_ok] at cancelled
    obtain ⟨-, -, -, -, moved, progress, rfl⟩ := cancelled
    refine ⟨?_, fun recorded => ((cancelAction?_lifeOf _ _).mp recorded missing).elim⟩
    rw [lifeOf_insertCancelAction]
    exact ⟨_, List.mem_append_right _ (List.mem_singleton_self _)⟩

/-- A committed cancellation, on the rows of its request. -/
theorem Store.Sound.cancel
    (sound : store.Sound) (committed : perform store input = .ok (store', answer))
    (cancels : input.action.cancels? = some id) (keyed : input.action.cancelKey? = some key) :
    ∃ before rows rows' later, store.requests = before ++ rows :: later ∧
      store'.requests = before ++ rows' :: later ∧
      store' = { store.put rows' with clock := input.env.clock } ∧
      rows.request.id = id ∧ rows'.request.id = id ∧ (lifeOf rows').CancelledUnder key ∧
      ((lifeOf rows).CancelledUnder key → rows' = rows) := by
  obtain ⟨env, action⟩ := input
  cases action with
  | cancel actor target actionId expectedVersion =>
    obtain rfl := Option.some.inj cancels
    obtain rfl := Option.some.inj keyed
    obtain ⟨changed, transacted, -, keys, rfl⟩ := perform_eq_ok committed
    obtain ⟨rows, rows', found, written, rfl⟩ := onRows_eq_ok transacted
    have member := target?_mem found
    obtain ⟨-, named⟩ := store.request?_eq_some found
    obtain ⟨changes, evolves⟩ := transactRows_evolves
      (sound.consistent rows member) (keepsKeys sound.keys keys member)
      written
    obtain ⟨before, later, split⟩ := List.append_of_mem member
    obtain ⟨recorded, replayed⟩ := cancelDispatch_records (silently_eq_ok.mp written).1
    exact ⟨before, rows, rows', later, split,
      put_split sound.keys.requests split evolves.refines.sameId, rfl, named,
      evolves.refines.sameId.trans named, recorded, replayed⟩
  | _ => cases cancels

/-- After a committed cancellation, its request is being cancelled or has
ended. -/
theorem closing_of_cancel {inputs : List Input}
    (committed : perform (after inputs) input = .ok (store', answer))
    (cancels : input.action.cancels? = some id) (member : rows ∈ store'.requests)
    (named : rows.request.id = id) :
    rows.request.state.Closing := by
  obtain ⟨key, keyed⟩ : ∃ key, input.action.cancelKey? = some key := by
    obtain ⟨env, action⟩ := input
    cases action with
    | cancel => exact ⟨_, rfl⟩
    | _ => cases cancels
  obtain ⟨before, old, own, later, -, split', -, -, ownId, ⟨digest, recorded⟩,
    -⟩ := (sound_after inputs).cancel committed cancels keyed
  rw [← after_next committed] at member split'
  have sound := sound_after (inputs ++ [input])
  obtain rfl := sound.request_unique (by rw [split']; simp) member (named.trans ownId.symm)
  exact cancelAccounts_after (inputs ++ [input]) rows member (List.ne_nil_of_mem recorded)

end Recorded

/-! ## What cancellations write -/

/-- The version of a request, and how far it may still be cancelled. -/
def Store.versionOf (store : Store) (id : Uuid) : Nat :=
  (store.request? id).elim 0 fun rows => rows.request.version

/-- By how much the cancellations of a request raise its version in a run. -/
def raisedByCancels (id : Uuid) : Store → List Input → Nat
  | _, [] => 0
  | store, input :: rest =>
      (if input.action.cancels? = some id then
        (execute store input).versionOf id - store.versionOf id
      else
        0) + raisedByCancels id (execute store input) rest

section Raised

variable {store store' : Store} {input : Input} {answer : Answer}
  {rows rows' : RequestRows}

theorem Store.Sound.versionOf (sound : store.Sound) (member : rows ∈ store.requests) :
    store.versionOf rows.request.id = rows.request.version := by
  rw [Store.versionOf, sound.request?_of_mem member]
  rfl

theorem DispatchState.Closing.cancelRank_le {state : DispatchState} (closing : state.Closing) :
    state.cancelRank ≤ 1 := by
  rcases closing with rfl | ended
  · decide
  · rw [DispatchState.cancelRank_terminal ended]
    exact Nat.zero_le 1

theorem DispatchState.cancelRank_cases (state : DispatchState) :
    state.cancelRank = 0 ∧ state.Terminal ∨ state.cancelRank = 1 ∧ state = .cancelRequested ∨
      state.cancelRank = 2 := by
  unfold cancelRank
  split
  · rename_i ended
    exact .inl ⟨rfl, ended⟩
  · split
    · rename_i requested
      exact .inr (.inl ⟨rfl, requested⟩)
    · exact .inr (.inr rfl)

/-- No step gives a cancellation back. -/
theorem Store.Sound.cancelRank_le (sound : store.Sound) (member : rows ∈ store.requests)
    (member' : rows' ∈ (execute store input).requests)
    (sameId : rows'.request.id = rows.request.id) :
    rows'.request.state.cancelRank ≤ rows.request.state.cancelRank := by
  rcases rows.request.state.cancelRank_cases with
    ⟨-, ended⟩ | ⟨rank, requested⟩ | rank
  · have same : rows'.request.state = rows.request.state :=
      (sound.sameEnd [input] member member' sameId ended).state
    rw [same]
  · have closing := sound.closing [input] member member' sameId (.inl requested)
    rw [rank]
    exact closing.cancelRank_le
  · rcases rows'.request.state.cancelRank_cases with ⟨h, -⟩ | ⟨h, -⟩ | h <;>
      omega

/-- What a cancellation writes is paid for by its rank. -/
theorem Store.Sound.cancelRank_cancel
    (sound : store.Sound) (cancels : input.action.cancels? = some rows.request.id)
    (member : rows ∈ store.requests) (member' : rows' ∈ (execute store input).requests)
    (sameId : rows'.request.id = rows.request.id) :
    rows'.request.version + rows'.request.state.cancelRank ≤
      rows.request.version + rows.request.state.cancelRank := by
  cases sound.successor member member' sameId with
  | kept life =>
    have state : rows'.request.state = rows.request.state := congrArg Life.state life
    have version : rows'.request.version = rows.request.version := congrArg Life.version life
    rw [state, version]
  | changed changes evolves =>
    have state : rows'.request.state = ((lifeOf rows).applyAll changes).state :=
      congrArg Life.state evolves.refines.life
    have version : rows'.request.version = ((lifeOf rows).applyAll changes).version :=
      congrArg Life.version evolves.refines.life
    rw [state, version]
    exact Life.cancelRank_applyAll evolves.refines.path (evolves.makes.ofCancel cancels)

/-- All cancellations of a request together raise its version by one for the
request to stop, and by one for the end. -/
theorem Store.Sound.raisedByCancels_le
    (sound : store.Sound) (rest : List Input) (member : rows ∈ store.requests) :
    raisedByCancels rows.request.id store rest ≤ rows.request.state.cancelRank := by
  induction rest generalizing store rows with
  | nil => exact Nat.zero_le _
  | cons input rest ih =>
    obtain ⟨next, own, sameId⟩ := sound.exists_successor member input
    have later := ih (sound.next input) own
    rw [sameId] at later
    have rank := sound.cancelRank_le member own sameId
    have version := (sound.next input).versionOf own
    rw [sameId] at version
    rw [raisedByCancels, version, sound.versionOf member]
    split
    · rename_i cancels
      have paid := sound.cancelRank_cancel cancels member own sameId
      omega
    · omega

end Raised

/-! ## Runs -/

/-- Cancellation, results and publications, in every interleaving. -/
theorem cancellation_races (inputs : List Input) :
    (∀ earlier rest, inputs = earlier ++ rest →
        ∀ rows ∈ (after earlier).requests,
          rows.request.state = .cancelRequested →
          ∀ rows' ∈ (after inputs).requests,
            rows'.request.id = rows.request.id →
            rows'.request.state ≠ .succeeded ∧ ((∀ input ∈ rest, ¬ input.action.ClosesFailed) →
                rows'.request.state.Terminal →
                ∃ result ∈ rows'.results, result.outcome = .cancelled)) ∧
      (∀ rows ∈ (after inputs).requests, rows.request.state.Terminal →
        ∀ input, ∀ rows' ∈ (execute (after inputs) input).requests,
          rows'.request.id = rows.request.id →
            rows'.request.state = rows.request.state ∧
              rows'.request.version = rows.request.version ∧
              rows'.request.resultId = rows.request.resultId ∧
              rows'.results = rows.results) ∧
      (∀ earlier input store answer id, earlier ++ [input] <+: inputs →
        perform (after earlier) input = .ok (store, answer) →
        input.action.cancels? = some id →
        ∀ rows ∈ store.requests, rows.request.id = id →
          ∀ rows' ∈ (after inputs).requests, rows'.request.id = id →
            ∀ p' ∈ rows'.publications, p'.state = .sent →
              ∃ p ∈ rows.publications, p.id = p'.id ∧ p.state = .sent) ∧
      (∀ rows ∈ (after inputs).requests, rows.request.state.Terminal →
        ¬ rows.UnresolvedPublication) ∧
      (∀ rows ∈ (after inputs).requests, ∀ rest,
        raisedByCancels rows.request.id (after inputs) rest ≤
          rows.request.state.cancelRank) ∧
      ∀ earlier input store answer id, earlier ++ [input] <+: inputs →
        perform (after earlier) input = .ok (store, answer) →
        input.action.cancels? = some id →
        ∀ again store' answer', again.action = input.action →
          perform (after inputs) again = .ok (store', answer') →
          store' = { after inputs with clock := again.env.clock } := by
  have sound := sound_after inputs
  refine ⟨?_, ?_, ?_, ?_, ?_, ?_⟩
  · rintro earlier rest rfl rows member requested rows' member' sameId
    have split : after (earlier ++ rest) = run execute (after earlier) rest :=
      run_append _ _ _
    have canonical := (sound.consistent rows' member').canonical
    rw [split] at member'
    have earlierSound := sound_after earlier
    have kept : rows'.request.state.Cancelling True :=
      earlierSound.cancelling (fun _ _ _ => trivial) member member' sameId (.inl requested)
    refine ⟨?_, ?_⟩
    · rcases kept with h | h | ⟨-, h⟩ <;> rw [h] <;> decide
    · intro operator ended
      have strict : rows'.request.state.Cancelling False :=
        earlierSound.cancelling operator member member' sameId (.inl requested)
      obtain ⟨result, inResults, -, outcome⟩ := canonical.outcome ended
      refine ⟨result, inResults, ?_⟩
      rcases strict with h | h | ⟨h, -⟩
      · rw [h] at ended
        exact absurd ended (by decide)
      · rw [h] at outcome
        cases own : result.outcome <;> rw [own] at outcome <;> first
          | rfl
          | cases outcome
      · exact h.elim
  · intro rows member ended input rows' member' sameId
    have kept := sound.sameEnd [input] member member' sameId ended
    exact ⟨kept.state, kept.version, kept.resultId, kept.results⟩
  · intro earlier input store answer id isPrefix committed cancels rows member
      named rows' member' named' p' inside sent
    have closing := closing_of_cancel committed cancels member named
    rw [← after_next committed] at member
    obtain ⟨rest, same⟩ := run_of_prefix isPrefix
    rw [same] at member'
    obtain ⟨p, found, sameId, sentBefore⟩ :=
      (sound_after (earlier ++ [input])).nothingSent rest member member'
        (named'.trans named.symm) closing p'.life (List.mem_map_of_mem inside)
        sent
    obtain ⟨row, own, rfl⟩ := List.mem_map.mp found
    exact ⟨row, own, sameId, sentBefore⟩
  · intro rows member ended unresolved
    obtain ⟨past, current, consistent⟩ := sound.consistent rows member
    obtain ⟨state, -⟩ := consistent.publications.busy ((unresolved_lifeOf rows).mpr unresolved)
    have ended : (lifeOf rows).state.Terminal := ended
    rcases state with h | h <;> rw [h] at ended <;>
      exact absurd ended (by decide)
  · exact fun rows member rest => sound.raisedByCancels_le rest member
  · intro earlier input store answer id isPrefix committed cancels again store'
      answer' sameAction committed'
    obtain ⟨key, keyed⟩ : ∃ key, input.action.cancelKey? = some key := by
      obtain ⟨env, action⟩ := input
      cases action with
      | cancel => exact ⟨_, rfl⟩
      | _ => cases cancels
    obtain ⟨_, rows, rows', _, -, split, -, -, named, ⟨digest, recorded⟩, -⟩ :=
      (sound_after earlier).cancel committed cancels keyed
    rw [← sameAction] at cancels keyed
    obtain ⟨before, old, old', later, split', -, put, oldNamed, -, -, replayed⟩ :=
      sound.cancel committed' cancels keyed
    have member : rows' ∈ (after (earlier ++ [input])).requests := by
      rw [after_next committed, split]
      simp
    have inStore : old ∈ (after inputs).requests := by rw [split']; simp
    obtain ⟨rest, same⟩ := run_of_prefix isPrefix
    have later' := (sound_after (earlier ++ [input])).later rest member
      (same ▸ inStore) (oldNamed.trans named.symm)
    obtain rfl := replayed ⟨digest, later'.cancellations.subset recorded⟩
    rw [(after inputs).put_self sound.keys.requests inStore] at put
    exact put

/-- A cancellation of the running first attempt, and its stop. -/
theorem races_deployment :
    (∀ rows ∈ (after (Deployment.finished ++ [Deployment.cancel 11 4,
        Deployment.sendStop 12 1002])).requests,
      rows.request.state.Terminal ∧
        ∃ result ∈ rows.results, result.outcome = .cancelled) ∧
      ∀ rows ∈ (after Deployment.finished).requests,
        raisedByCancels rows.request.id (after Deployment.finished)
          [Deployment.cancel 11 4, Deployment.sendStop 12 1002,
            Deployment.cancel 13 4] ≤ 2 := by
  obtain ⟨cancelled, -⟩ := cancellation_races (Deployment.finished ++ [Deployment.cancel 11 4,
      Deployment.sendStop 12 1002])
  obtain ⟨-, -, -, -, raised, -⟩ := cancellation_races Deployment.finished
  constructor
  · have requested : ∃ rows ∈ (after (Deployment.finished ++ [Deployment.cancel 11 4])).requests,
        rows.request.id = 400 ∧ rows.request.state = .cancelRequested := by
      decide +kernel
    have ended : ∀ rows ∈ (after (Deployment.finished ++
        [Deployment.cancel 11 4, Deployment.sendStop 12 1002])).requests,
        rows.request.id = 400 ∧ rows.request.state.Terminal := by
      decide +kernel
    obtain ⟨rows, member, named, state⟩ := requested
    intro rows' member'
    obtain ⟨named', terminal⟩ := ended rows' member'
    refine ⟨terminal, (cancelled (Deployment.finished ++ [Deployment.cancel 11 4])
      [Deployment.sendStop 12 1002] (by simp) rows member state rows' member'
      (named'.trans named.symm)).2 ?_ terminal⟩
    intro input own
    obtain rfl := List.mem_singleton.mp own
    exact not_false
  · intro rows member
    refine (raised rows member _).trans ?_
    rcases rows.request.state.cancelRank_cases with ⟨h, -⟩ | ⟨h, -⟩ | h <;>
      omega

end Dispatch
end Scrum4Me
