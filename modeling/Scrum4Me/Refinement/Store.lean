import Scrum4Me.Refinement.Machine

/-!
# Steps of the store

A step of the machine leaves every life as it is, adds a submitted request, or
takes the life of one request along a path that its action may make. From this
follow the invariants of every reachable store: all requests are consistent, and
no two of them hold one slot.
-/

namespace Scrum4Me
namespace Dispatch

open Foundation

/-! ## A submitted request -/

/-- The life that a submission begins. -/
def Life.submitted (identity : RequestIdentity) : Life :=
  let unannounced : Life :=
    { identity := identity
      state := .waiting
      version := 1
      generation := 0
      claimed := false
      authority := none
      resultId := none
      waitingReason := none
      candidates := []
      reservations := []
      attempts := []
      jobs := []
      scopes := []
      stops := []
      cancellations := []
      authorizations := []
      consumptions := []
      results := []
      acceptances := []
      publications := []
      announcements := []
      announcedVersions := [] }
  { unannounced with
    announcements := [unannounced.shown]
    announcedVersions := [1] }

theorem Life.settled_submitted (identity : RequestIdentity) :
    (Life.submitted identity).Settled := by
  refine ⟨[], none,
    { history := ⟨⟨rfl, rfl, rfl, rfl, ?_, ?_, ?_, ?_, rfl⟩, ?_, .inl rfl⟩
      stops := ⟨?_, ?_⟩
      scopes := ⟨?_, ?_⟩
      retries := ⟨rfl, fun _ => rfl, ?_, ?_, ?_, ?_⟩
      results := ⟨fun _ => ⟨rfl, rfl, rfl⟩, ?_⟩
      announcements := ⟨rfl, rfl, _, rfl⟩
      publications := ⟨?_, ?_, ?_, ?_⟩ },
    ⟨fun _ => rfl, ?_⟩⟩
  all_goals simp [Life.submitted, DispatchState.Terminal, Life.Unresolved]

/-! ## Steps -/

/-- What one committed input does to the requests of a store. -/
inductive StoreStep
    (store : Store) (input : Input) (requests' : List RequestRows) : Prop
  | kept (lives : requests'.map lifeOf = store.requests.map lifeOf)
  | submitted (rows : RequestRows) (life : lifeOf rows = Life.submitted rows.request.identity)
      (appended : requests' = store.requests ++ [rows])
  | changed (before later : List RequestRows) (rows rows' : RequestRows) (changes : List Change)
      (split : store.requests = before ++ rows :: later)
      (split' : requests' = before ++ rows' :: later)
      (sameId : rows'.request.id = rows.request.id)
      (evolves : Evolves input.env store input.action rows rows' changes)

section Steps

variable {env : Env} {store store' : Store} {action : Action}
  {answer : Answer} {input : Input} {rows rows' : RequestRows}

theorem onRows_eq_ok {rows? : Option RequestRows} {missing : Failure} {body : RowsTransaction}
    (committed : onRows store rows? missing body = .ok (store', answer)) :
    ∃ rows rows', rows? = some rows ∧ body rows = .ok (rows', answer) ∧
      store' = store.put rows' := by
  simp only [onRows, bind_eq_ok, require_eq_ok, pure_eq_ok, Prod.mk.injEq] at committed
  obtain ⟨rows, found, ⟨rows', _⟩, written, rfl, rfl⟩ := committed
  exact ⟨rows, rows', found, written, rfl⟩

variable {result : Except Failure (Registry × α)} {answerOf : α → Answer} {changes : List Change}

theorem onRegistry_requests (committed : onRegistry store result answerOf = .ok (store', answer)) :
    store'.requests = store.requests := by
  simp only [onRegistry, bind_eq_ok, pure_eq_ok, Prod.mk.injEq] at committed
  obtain ⟨changed, -, rfl, -⟩ := committed
  rfl

theorem StoreStep.of_registry
    (committed : onRegistry store result answerOf = .ok (store', answer)) :
    StoreStep store input store'.requests := by
  rw [onRegistry_requests committed]
  exact .kept rfl

/-- The rows that an action works on are rows of the store. -/
theorem target?_mem (found : action.target? store = some rows) : rows ∈ store.requests := by
  cases action <;> first
    | cases found
    | exact List.mem_of_find?_eq_some found
    | exact List.mem_of_find?_eq_some (Option.filter_eq_some_iff.mp found).1

theorem RequestRows.KeysUnique.of_store (keys : store.KeysUnique) (member : rows ∈ store.requests) :
    rows.KeysUnique := by
  have sublist : ∀ {β : Type} (column : RequestRows → List β),
      (column rows).Sublist (store.requests.flatMap column) := by
    intro β column
    rw [List.flatMap_def]
    exact List.sublist_flatten_of_mem (List.mem_map_of_mem member)
  exact
    { candidates :=
        keys.candidates.sublist ((sublist RequestRows.candidates).map _)
      attempts := keys.attempts.sublist ((sublist RequestRows.attempts).map _)
      jobs := keys.jobs.sublist ((sublist RequestRows.jobs).map _)
      events := keys.events.sublist (sublist fun rows => rows.events.map EventRow.id)
      publications := keys.publications.sublist
        (sublist fun rows => rows.publications.map PublicationRow.id) }

theorem identity_apply (change : Change) (life : Life) :
    (change.apply life).identity = life.identity := by
  cases change with
  | abandon candidate => cases candidate <;> rfl
  | _ => rfl

theorem identity_applyAll (changes : List Change) (life : Life) :
    (life.applyAll changes).identity = life.identity := by
  induction changes generalizing life with
  | nil => rfl
  | cons change rest ih => exact (ih _).trans (identity_apply change life)

theorem Refines.sameId {free : Uuid → Prop} (refines : Refines free rows rows' changes) :
    rows'.request.id = rows.request.id := by
  have identity := identity_applyAll changes (lifeOf rows)
  rw [← refines.life] at identity
  exact congrArg RequestIdentity.requestId identity

/-- Replacing the rows of one request. -/
theorem put_split (keys : (store.requests.map fun rows => rows.request.id).Nodup)
    {before later : List RequestRows} (split : store.requests = before ++ rows :: later)
    (sameId : rows'.request.id = rows.request.id) :
    (store.put rows').requests = before ++ rows' :: later := by
  rw [split] at keys
  rw [Store.put, split]
  exact updateWhere_key (fun rows => rows.request.id) keys (by simp [sameId]) (fun other found => by
      rw [of_decide_eq_true found, sameId])

/-- The rows of the store after a step that changed the rows of one request. -/
theorem StoreStep.of_put (keys : store.KeysUnique) (member : rows ∈ store.requests)
    (evolves : Evolves input.env store input.action rows rows' changes) :
    StoreStep store input (store.put rows').requests := by
  obtain ⟨before, later, split⟩ := List.append_of_mem member
  have sameId := evolves.refines.sameId
  exact .changed before later rows rows' changes split
    (put_split keys.requests split sameId) sameId evolves

theorem keepsKeys (keys : store.KeysUnique) (keys' : (store.put rows').KeysUnique)
    (member : rows ∈ store.requests) :
    rows.KeepsKeys rows' := by
  intro sameId
  obtain ⟨before, later, split⟩ := List.append_of_mem member
  apply RequestRows.KeysUnique.of_store keys'
  rw [put_split keys.requests split sameId]
  simp

theorem submit_step {actor : Actor} {dispatchInput : DispatchInput} {key : String} {id : Uuid}
    (submitted : submitDispatch env store actor dispatchInput key = .ok (store', id)) :
    StoreStep store input store'.requests := by
  simp only [submitDispatch, bind_eq_ok, ensure_eq_ok] at submitted
  obtain ⟨-, -, -, -, -, -, submitted⟩ := submitted
  split at submitted
  · simp only [bind_eq_ok, ensure_eq_ok, pure_eq_ok, Prod.mk.injEq] at submitted
    obtain ⟨-, -, rfl, -⟩ := submitted
    exact .kept rfl
  · simp only [bind_eq_ok, pure_eq_ok, Prod.mk.injEq] at submitted
    obtain ⟨-, -, rfl, -⟩ := submitted
    exact .submitted _ rfl rfl

theorem claim_step {actor : Actor} {incarnationId : Uuid} {claimKey : String}
    {sessionCredential : Credential} (keys : store.KeysUnique) (keys' : store'.KeysUnique)
    (committed : transact input.env store (.claim actor incarnationId claimKey sessionCredential) =
        .ok (store', answer)) (action : input.action =
      .claim actor incarnationId claimKey sessionCredential) :
    StoreStep store input store'.requests := by
  simp only [transact, bind_eq_ok] at committed
  obtain ⟨⟨rows?, receipt⟩, claimed, committed⟩ := committed
  cases rows? with
  | none =>
    obtain ⟨rfl, -⟩ := Prod.mk.inj (Except.ok.inj committed)
    exact .kept rfl
  | some rows' =>
    obtain ⟨rfl, -⟩ := Prod.mk.inj (Except.ok.inj committed)
    obtain ⟨rows, member, c, slotId, attemptId, refines⟩ :=
      claim_refines claimed fun rows => keepsKeys keys keys'
    exact .of_put keys member ⟨by rw [action]; exact ⟨c, slotId, attemptId, rfl⟩, refines,
        .inl ⟨not_false, trivial⟩⟩

/-- Putting back published messages is not seen by any life. -/
theorem republish_lives (env : Env) (ids : List Uuid) :
    (store.requests.map fun rows =>
      { rows with outbox := republish env rows.outbox ids }).map lifeOf =
        store.requests.map lifeOf := by
  rw [List.map_map]
  apply List.map_congr_left
  intro rows _
  have payloads : (republish env rows.outbox ids).map OutboxRow.payload =
      rows.outbox.map OutboxRow.payload :=
    map_updateWhere_of_unchanged (by intro row; rfl) rows.outbox
  have versions : (republish env rows.outbox ids).map OutboxRow.version =
      rows.outbox.map OutboxRow.version :=
    map_updateWhere_of_unchanged (by intro row; rfl) rows.outbox
  simp only [Function.comp_def, lifeOf, payloads, versions]
  rfl

theorem rows_step (input : Input) (consistent : ∀ rows ∈ store.requests, (lifeOf rows).Consistent)
    (keys : store.KeysUnique) (keys' : store'.KeysUnique) (committed :
      onRows store (input.action.target? store) notFound (fun rows =>
        transactRows input.env store rows input.action) = .ok (store', answer)) :
    StoreStep store input store'.requests := by
  obtain ⟨rows, rows', found, written, rfl⟩ := onRows_eq_ok committed
  have member := target?_mem found
  obtain ⟨changes, evolves⟩ :=
    transactRows_evolves (consistent rows member) (keepsKeys keys keys' member) written
  exact .of_put keys member evolves

/-- Every transaction is a step of the store. -/
theorem transact_step (consistent : ∀ rows ∈ store.requests, (lifeOf rows).Consistent)
    (keys : store.KeysUnique) (keys' : store'.KeysUnique)
    (committed : transact input.env store input.action = .ok (store', answer)) :
    StoreStep store input store'.requests := by
  obtain ⟨env, action⟩ := input
  cases action with
  | submit actor dispatchInput key =>
    simp only [transact, bind_eq_ok, pure_eq_ok, Prod.mk.injEq] at committed
    obtain ⟨⟨_, id⟩, submitted, rfl, -⟩ := committed
    exact submit_step submitted
  | claim => exact claim_step keys keys' committed rfl
  | republish =>
    obtain ⟨rfl, -⟩ := Prod.mk.inj (Except.ok.inj committed)
    exact .kept (republish_lives env _)
  | register => exact .of_registry committed
  | heartbeat => exact .of_registry committed
  | createSlot => exact .of_registry committed
  | disableSlot => exact .of_registry committed
  | createProfile => exact .of_registry committed
  | revokeProfile => exact .of_registry committed
  | _ => exact rows_step ⟨env, _⟩ consistent keys keys' committed

/-- What a transaction that commits guarantees. -/
structure Performs (store : Store) (input : Input) (store' : Store) : Prop where
  clock : store.clock ≤ store'.clock
  keys : store'.KeysUnique
  step : StoreStep store input store'.requests

theorem perform_eq_ok (committed : perform store input = .ok (store', answer)) :
    ∃ changed : Store, transact input.env store input.action = .ok (changed, answer) ∧
      store.clock ≤ input.env.clock ∧ changed.KeysUnique ∧
      store' = { changed with clock := input.env.clock } := by
  simp only [perform, bind_eq_ok, ensure_eq_ok, pure_eq_ok, Prod.mk.injEq]
    at committed
  obtain ⟨-, onTime, ⟨changed, _⟩, transacted, -, keys, rfl, rfl⟩ := committed
  exact ⟨changed, transacted, onTime, keys, rfl⟩

theorem perform_performs (consistent : ∀ rows ∈ store.requests, (lifeOf rows).Consistent)
    (keys : store.KeysUnique) (committed : perform store input = .ok (store', answer)) :
    Performs store input store' := by
  obtain ⟨changed, transacted, onTime, unique, rfl⟩ := perform_eq_ok committed
  have step := transact_step consistent keys unique transacted
  exact { clock := onTime, keys := { unique with }, step := step }

end Steps

end Dispatch
end Scrum4Me
