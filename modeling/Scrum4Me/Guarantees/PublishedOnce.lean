import Scrum4Me.Guarantees.Rotation

/-!
# Publications are sent once

What one transaction does to the operations of a request, and from it what the
calls of the publisher do: they send an operation at most once, and only after it
was recorded as `SENT`.
-/

namespace Scrum4Me
namespace Dispatch

open Foundation

/-! ## Changes of publications -/

/-- The operation that an action is about. -/
def Action.publication? : Action → Option Uuid
  | .sendPublication _ _ id => some id
  | .storeReceipt value => some value.operationId
  | .resolvePublication _ id _ _ => some id
  | _ => none

/-- The changes to the publications of a request. -/
def Change.OnPublication : Change → Prop
  | .preparePublication .. | .sendPublication _ | .settlePublication .. => True
  | _ => False

/-- The changes to one publication. -/
def Change.Moves (id : Uuid) : Change → Prop
  | .sendPublication moved | .settlePublication moved _ => moved = id
  | _ => False

/-- A transaction changes at most one publication, the one it is about. -/
theorem Action.Makes.publication
    {action : Action} {changes : List Change} (makes : action.Makes changes) :
    (∀ change ∈ changes, ¬ change.OnPublication) ∨
      ∃ change, changes = [change] ∧ ∀ id, change.Moves id → action.publication? = some id := by
  cases action with
  | recover =>
    left
    cases makes with
    | replayed => simp
    | decided change ends => cases ends <;> simp [Change.OnPublication]
    | stoppedAndDecided x mark change ends => cases ends <;> simp [Change.OnPublication]
  | submitStop => left; cases makes <;> simp [Change.OnPublication]
  | submitHistoricalStop => left; cases makes <;> simp [Change.OnPublication]
  | submitClaimBoundStop => left; cases makes <;> simp [Change.OnPublication]
  | closeSignedOff => left; cases makes <;> simp [Change.OnPublication]
  | cancel =>
    left
    rcases makes with rfl | ⟨earlier, key, digest, path, rfl⟩
    · simp
    · cases path <;> simp [Change.OnPublication]
  | preparePublication =>
    rcases makes with rfl | ⟨x, id, headSha, rfl⟩
    · exact .inl (by simp)
    · exact .inr ⟨_, rfl, fun _ => False.elim⟩
  | sendPublication => exact .inr ⟨_, makes, fun _ => congrArg some⟩
  | storeReceipt => exact .inr ⟨_, makes, fun _ => congrArg some⟩
  | resolvePublication =>
    rcases makes with rfl | rfl
    · exact .inl (by simp)
    · exact .inr ⟨_, rfl, fun _ => congrArg some⟩
  | _ =>
    left
    simp only [Action.Makes] at makes
    grind [Change.OnPublication]

/-! ## Lives -/

/-- An operation after a transaction, which may move these operations, on its request,
which was in this state. -/
structure PublicationLife.Advances (moves : Uuid → Prop) (state : DispatchState)
    (p p' : PublicationLife) : Prop where
  id : p'.id = p.id
  attemptId : p'.attemptId = p.attemptId
  headSha : p'.headSha = p.headSha
  expectedRemoteHead : p'.expectedRemoteHead = p.expectedRemoteHead
  apart : ¬ moves p.id → p'.state = p.state
  settled : ¬ p.state.Unresolved → p'.state = p.state
  prepared : p'.state = .prepared → p.state = .prepared
  sent : p'.state = .sent → p.state = .sent ∨ p.state = .prepared ∧ state = .running

/-- An operation that is new to the life of its request. -/
structure PublicationLife.Begins (life : Life) (p : PublicationLife) : Prop where
  prepared : p.state = .prepared
  running : life.state = .running
  settled : ∀ newest ∈ life.publications.getLast?, ¬ newest.state.Unresolved
  expected : p.expectedRemoteHead = life.confirmedHead

/-- The operations of a request before and after a transaction. -/
structure Life.PublishesNext (moves : Uuid → Prop) (life : Life)
    (publications : List PublicationLife) : Prop where
  kept : ∀ p ∈ life.publications, ∃ p' ∈ publications, p.Advances moves life.state p'
  begun : ∀ p' ∈ publications,
    (∃ p ∈ life.publications, p.Advances moves life.state p') ∨ p'.Begins life

section Lives

variable {free : Uuid → Prop} {moves : Uuid → Prop} {life : Life} {state : DispatchState}
  {p : PublicationLife} {changes : List Change}

theorem PublicationLife.Advances.refl : p.Advances moves state p :=
  ⟨rfl, rfl, rfl, rfl, fun _ => rfl, fun _ => rfl, fun same => same, .inl⟩

theorem Life.PublishesNext.refl : life.PublishesNext moves life.publications :=
  ⟨fun p member => ⟨p, member, .refl⟩, fun p member => .inl ⟨p, member, .refl⟩⟩

theorem Life.PublishesNext.setPublication {id : Uuid} {next : PublicationState}
    {condition : PublicationLife → Prop} [DecidablePred condition]
    (advances : ∀ p : PublicationLife, p.id = id → condition p → moves p.id ∧ p.state.Unresolved ∧
      next ≠ .prepared ∧ (next = .sent → p.state = .prepared ∧ life.state = .running)) :
    life.PublishesNext moves (life.setPublication id fun row =>
      if condition row then { row with state := next } else row).publications := by
  have advance : ∀ p : PublicationLife, p.id = id →
      p.Advances moves life.state (if condition p then { p with state := next } else p) := by
    intro p own
    split
    · rename_i holds
      obtain ⟨moving, unresolved, crossed, sent⟩ := advances p own holds
      exact ⟨rfl, rfl, rfl, rfl, fun still => absurd moving still,
        fun settled => absurd unresolved settled, fun same => absurd same crossed,
        fun same => .inr (sent same)⟩
    · exact .refl
  refine ⟨fun p member => ?_, fun p' member => ?_⟩
  · by_cases own : p.id = id
    · exact ⟨_, mem_updateWhere.mpr (.inl ⟨p, member, decide_eq_true own, rfl⟩), advance p own⟩
    · exact ⟨p, mem_updateWhere.mpr (.inr ⟨member, decide_eq_false own⟩), .refl⟩
  · rcases mem_updateWhere.mp member with ⟨p, inside, own, rfl⟩ | ⟨inside, -⟩
    · exact .inl ⟨p, inside, advance p (of_decide_eq_true own)⟩
    · exact .inl ⟨p', inside, .refl⟩

theorem Change.publications_apply {change : Change} (silent : ¬ change.OnPublication) (life : Life) :
    (change.apply life).publications = life.publications := by
  cases change with
  | abandon candidate => cases candidate <;> rfl
  | preparePublication => exact absurd trivial silent
  | sendPublication => exact absurd trivial silent
  | settlePublication => exact absurd trivial silent
  | _ => rfl

theorem Life.publications_applyAll (silent : ∀ change ∈ changes, ¬ change.OnPublication)
    (life : Life) :
    (life.applyAll changes).publications = life.publications := by
  induction changes generalizing life with
  | nil => rfl
  | cons change rest ih =>
    exact (ih (fun other member => silent other (List.mem_cons_of_mem _ member)) _).trans
      (Change.publications_apply (silent change List.mem_cons_self) life)

/-- What a change does to the publications of a life. -/
theorem Change.publishesNext {change : Change} (allowed : change.Allowed free life)
    (moved : ∀ id, change.Moves id → moves id) :
    life.PublishesNext moves (change.apply life).publications := by
  by_cases publishes : change.OnPublication
  · cases change with
    | preparePublication =>
      refine ⟨fun p member => ⟨p, List.mem_append_left _ member, .refl⟩, fun p' member => ?_⟩
      rcases mem_inserted.mp member with old | rfl
      · exact .inl ⟨p', old, .refl⟩
      · exact .inr ⟨rfl, allowed.2.2.2.1, allowed.2.2.2.2.2, rfl⟩
    | sendPublication id =>
      exact .setPublication fun p own prepared =>
        ⟨moved _ own.symm, .inl prepared, by decide, fun _ => ⟨prepared, allowed⟩⟩
    | settlePublication id state =>
      exact .setPublication fun p own unresolved =>
        ⟨moved _ own.symm, unresolved, allowed.1, fun same => absurd same allowed.2⟩
    | _ => exact publishes.elim
  · rw [Change.publications_apply publishes]
    exact .refl

end Lives

/-! ## Transactions -/

/-- The operations that an input is about. -/
def Input.Moves (input : Input) (id : Uuid) : Prop := input.action.publication? = some id

theorem Store.Successor.publishesNext {store : Store} {input : Input} {rows rows' : RequestRows}
    (successor : store.Successor input rows rows') :
    (lifeOf rows).PublishesNext input.Moves (lifeOf rows').publications := by
  cases successor with
  | kept life => exact life ▸ .refl
  | changed changes evolves =>
    rw [evolves.refines.life]
    rcases evolves.makes.publication with silent | ⟨change, rfl, moved⟩
    · rw [Life.publications_applyAll silent]
      exact .refl
    · exact change.publishesNext evolves.refines.path.1 moved

/-- Before a transaction the publications of every request are in order, and it
changes them as it may. -/
def Store.PublishesInOrder (store : Store) (input : Input) : Prop :=
  ∀ rows ∈ store.requests, (lifeOf rows).PublicationAccounts ∧
    ∀ rows' ∈ (execute store input).requests, rows'.request.id = rows.request.id →
      (lifeOf rows).PublishesNext input.Moves (lifeOf rows').publications

theorem publications_in_order (inputs : List Input) (input : Input) :
    (after inputs).PublishesInOrder input := by
  intro rows member
  have sound := sound_after inputs
  obtain ⟨past, current, consistent⟩ := sound.consistent rows member
  exact ⟨consistent.publications,
    fun rows' member' sameId => (sound.successor member member' sameId).publishesNext⟩

/-! ## Operations in the store -/

namespace Publisher

/-- The request has this operation, in this state. -/
def HasOperation (store : Store) (requestId id : Uuid) (state : PublicationState) : Prop :=
  ∃ rows ∈ store.requests, rows.request.id = requestId ∧
    ∃ p ∈ rows.publications, p.id = id ∧ p.state = state

/-- A later store, in which all operations but these are as they were. -/
structure Follows (moves : Uuid → Prop) (store store' : Store) : Prop where
  sound : store'.Sound
  operation : ∀ {requestId id state}, HasOperation store requestId id state →
    ∃ state', HasOperation store' requestId id state' ∧ (¬ moves id → state' = state) ∧
      (state ≠ .prepared → state' ≠ .prepared)

section Stores

variable {store store' : Store} {answer : Answer} {requestId requestId' id : Uuid}
  {state state' : PublicationState} {env : Env} {actor : Actor} {authority : Authority}

theorem Follows.refl (sound : store.Sound) (moves : Uuid → Prop) : Follows moves store store :=
  ⟨sound, fun has => ⟨_, has, fun _ => rfl, fun crossed => crossed⟩⟩

theorem follows_execute (sound : store.Sound) (input : Input) :
    Follows input.Moves store (execute store input) := by
  refine ⟨sound.next input, fun {_ id state} has => ?_⟩
  obtain ⟨rows, member, rfl, p, own, rfl, rfl⟩ := has
  obtain ⟨rows', member', sameId⟩ := sound.exists_successor member input
  obtain ⟨q, inside, advances⟩ := (sound.successor member member' sameId).publishesNext.kept p.life
    (List.mem_map_of_mem own)
  obtain ⟨p', own', rfl⟩ := List.mem_map.mp inside
  exact ⟨p'.state, ⟨rows', member', sameId, p', own', advances.id, rfl⟩, advances.apart,
    fun crossed prepared => crossed (advances.prepared prepared)⟩

theorem hasOperation_unique (sound : store.Sound) (first : HasOperation store requestId id state)
    (second : HasOperation store requestId' id state') :
    requestId' = requestId ∧ state' = state := by
  obtain ⟨rows, member, rfl, p, own, rfl, rfl⟩ := first
  obtain ⟨rows', member', rfl, p', own', same, rfl⟩ := second
  obtain rfl : rows' = rows :=
    group_of_key sound.keys.publications member' member
      (List.mem_map_of_mem own') (same ▸ List.mem_map_of_mem own)
  have distinct := (RequestRows.KeysUnique.of_store sound.keys member).publications
  exact ⟨rfl, congrArg _ (List.inj_on_of_nodup_map distinct own' own same)⟩

variable {rows : RequestRows}

theorem hasOperation_of_publication? {p : PublicationRow}
    (member : rows ∈ store.requests) (found : rows.publication? id = some p) :
    HasOperation store rows.request.id id p.state := by
  obtain ⟨own, sameId⟩ := RequestRows.mem_of_publication? found
  exact ⟨rows, member, rfl, p, own, sameId, rfl⟩

theorem hasOperation_of_requestOf (found : store.requestOfPublication? id = some rows) :
    ∃ state, HasOperation store rows.request.id id state := by
  have own := List.find?_some (p := fun rows : RequestRows => (rows.publication? id).isSome) found
  obtain ⟨p, isRow⟩ := Option.isSome_iff_exists.mp own
  exact ⟨_, hasOperation_of_publication? (List.mem_of_find?_eq_some found) isRow⟩

/-- What a call loads is the operation as it is. -/
theorem loadIntent_spec {x : PublicationIntent} (sound : store.Sound)
    (has : HasOperation store requestId id state)
    (loaded : loadIntent store id = some (x, state')) :
    x.operationId = id ∧ state' = state := by
  simp only [loadIntent, Option.bind_eq_bind, Option.bind_eq_some_iff, Option.pure_def,
    Option.some.injEq, Prod.mk.injEq] at loaded
  obtain ⟨rows, found, y, intent, p, isRow, rfl, rfl⟩ := loaded
  have own := hasOperation_of_publication? (List.mem_of_find?_eq_some found) isRow
  refine ⟨?_, (hasOperation_unique sound has own).2⟩
  cases whole : publicationIntent rows id with
  | error => simp [whole, Except.toOption] at intent
  | ok value =>
    obtain rfl : value = y := by simpa [whole, Except.toOption] using intent
    exact publicationIntent_operationId whole

theorem requestOf_eq {x : ArtifactAttempt} (verified : authority.verify rows actor x = .ok ()) :
    requestOf authority = x.r.id := by
  cases authority with
  | proof => exact ((ensure_eq_ok _ _ _).mp verified).1
  | binding =>
    simp only [Authority.verify, validateHistoricalBinding, bind_eq_ok, ensure_eq_ok] at verified
    obtain ⟨-, ⟨sameId, -⟩, -⟩ := verified
    exact sameId

/-- The send gate lets the operation of its own request through. -/
theorem hasOperation_sent (sound : store.Sound)
    (has : HasOperation store (requestOf authority) id .prepared)
    (sent : perform store ⟨env, .sendPublication actor authority id⟩ = .ok (store', answer)) :
    HasOperation (execute store ⟨env, .sendPublication actor authority id⟩)
      (requestOf authority) id .sent := by
  rw [execute, sent]
  show HasOperation store' _ _ _
  obtain ⟨before, rows, rows', later, changes, split, split', written, -, evolves⟩ :=
    sound.transaction sent rfl
  have inside : rows' ∈ store'.requests := by
    rw [split']
    simp
  obtain ⟨gated, -⟩ := silently_eq_ok.mp written
  simp only [sendPublication, bind_eq_ok, ensure_eq_ok, pure_eq_ok] at gated
  obtain ⟨x, locked, ⟨⟩, verified, -, -, -, -, rfl⟩ := gated
  have own : requestOf authority = rows.request.id := by
    rw [requestOf_eq verified, (lockArtifactAttempt_spec locked).1.r]
  obtain ⟨old, member, sameId, p, its, rfl, prepared⟩ := has
  obtain rfl := sound.request_unique (by rw [split]; simp) member (sameId.trans own)
  refine ⟨_, inside, own.symm, _, mem_updateWhere.mpr (.inl ⟨p, its, decide_eq_true rfl, rfl⟩), ?_, ?_⟩
  · split <;> rfl
  · rw [if_pos prepared]

/-- A call takes up or prepares an operation of its own request. -/
theorem hasOperation_prepared (sound : store.Sound) {artifactId : Uuid} {baseBranch : String}
    {start : PublicationStart}
    (prepared : perform store ⟨env, .preparePublication actor authority artifactId baseBranch⟩ =
      .ok (store', .publication start)) :
    (∀ old, start = .existing old →
        HasOperation (execute store ⟨env, .preparePublication actor authority artifactId baseBranch⟩)
          (requestOf authority) old.id old.state) ∧ ∀ id, start = .prepared id →
        HasOperation (execute store ⟨env, .preparePublication actor authority artifactId baseBranch⟩)
          (requestOf authority) id .prepared := by
  rw [execute, prepared]
  show (∀ _, _ → HasOperation store' _ _ _) ∧ ∀ _, _ → HasOperation store' _ _ _
  obtain ⟨before, rows, rows', later, changes, split, split', written, -, evolves⟩ :=
    sound.transaction prepared rfl
  obtain ⟨value, started, same⟩ := answering_eq_ok.mp written
  obtain rfl := Answer.publication.inj same
  simp only [preparePublication, lockAuthorized, bind_eq_ok, pure_eq_ok] at started
  obtain ⟨y, ⟨x, locked, ⟨⟩, verified, -, -, rfl⟩, started⟩ := started
  have own : requestOf authority = rows.request.id := by
    rw [requestOf_eq verified, (lockArtifactAttempt_spec locked).1.r]
  have member : rows' ∈ store'.requests := by
    rw [split']
    simp
  split at started
  · rename_i old found
    obtain ⟨rfl, rfl⟩ := Prod.mk.inj ((pure_eq_ok _ _).mp started)
    refine ⟨fun other same => ?_, fun _ same => by cases same⟩
    obtain rfl := PublicationStart.existing.inj same
    exact ⟨rows, member, own.symm, _,
      List.mem_of_getLast? (Option.filter_eq_some_iff.mp found).1, rfl, rfl⟩
  · simp only [bind_eq_ok, pure_eq_ok, Prod.mk.injEq] at started
    obtain ⟨-, -, -, -, -, -, a, -, base, -, code, -, repo, -, -, -, rfl, rfl⟩ := started
    refine ⟨fun _ same => (by cases same), fun id same => ?_⟩
    obtain rfl := PublicationStart.prepared.inj same
    exact ⟨_, member, own.symm, _, List.mem_append_right _ List.mem_cons_self, rfl, rfl⟩

end Stores

/-! ## Runs -/

/-- What a call knows of its operation. -/
def Holds (world : World) (publisher : Publisher) : Prop :=
  match publisher.stage with
  | .prepare _ authority _ _ => requestOf authority = publisher.requestId
  | .load _ authority id =>
      requestOf authority = publisher.requestId ∧
        HasOperation world.store publisher.requestId id .prepared
  | .send _ authority x =>
      requestOf authority = publisher.requestId ∧
        HasOperation world.store publisher.requestId x.operationId .prepared
  | .publish x =>
      HasOperation world.store publisher.requestId x.operationId .sent ∧
        x.operationId ∉ world.published
  | .ask x =>
      ∃ state ≠ .prepared, HasOperation world.store publisher.requestId x.operationId state
  | .reconcile id | .resolve _ id _ _ =>
      ∃ state, HasOperation world.store publisher.requestId id state
  | .store value =>
      ∃ state, HasOperation world.store publisher.requestId value.operationId state ∧
        (state = .prepared → value.status = .failed)

/-- One call at a time holds the lock of a request; `port.publish` was called at most
once for an operation, and only for those past the send gate. -/
structure World.PublishesOnce (world : World) : Prop where
  exclusive : (world.publishers.map Publisher.requestId).Nodup
  holds : ∀ publisher ∈ world.publishers, publisher.Holds world
  once : world.published.Nodup
  durable : ∀ id ∈ world.published, ∃ requestId, ∃ state ≠ .prepared,
    HasOperation world.store requestId id state

section Worlds

variable {world world' : World} {publisher other : Publisher} {moves : Uuid → Prop}

/-- A step that neither moves nor publishes the operation of a call. -/
theorem Holds.congr (holds : publisher.Holds world)
    (follows : Follows moves world.store world'.store)
    (apart : ∀ {id state}, HasOperation world.store publisher.requestId id state →
      ¬ moves id ∧ (id ∉ world.published → id ∉ world'.published)) :
    publisher.Holds world' := by
  have kept : ∀ {id state}, HasOperation world.store publisher.requestId id state →
      HasOperation world'.store publisher.requestId id state := by
    intro id state has
    obtain ⟨state', later, same, -⟩ := follows.operation has
    exact same (apart has).1 ▸ later
  obtain ⟨requestId, stage⟩ := publisher
  cases stage with
  | prepare => exact holds
  | load => exact ⟨holds.1, kept holds.2⟩
  | send => exact ⟨holds.1, kept holds.2⟩
  | publish => exact ⟨kept holds.1, (apart holds.1).2 holds.2⟩
  | ask => exact holds.imp fun _ known => ⟨known.1, kept known.2⟩
  | store => exact holds.imp fun _ known => ⟨kept known.1, known.2⟩
  | reconcile => exact holds.imp fun _ => kept
  | resolve => exact holds.imp fun _ => kept

/-- The operations that a statement of a call may move. -/
def Moves (publisher : Publisher) (id : Uuid) : Prop :=
  publisher.stage.action?.bind Action.publication? = some id

/-- The operation that a statement moves is one of the call's request. -/
theorem Holds.own (holds : publisher.Holds world) {id : Uuid} (moved : publisher.Moves id) :
    ∃ state, HasOperation world.store publisher.requestId id state := by
  obtain ⟨requestId, stage⟩ := publisher
  cases stage <;> cases moved
  · exact ⟨_, holds.2⟩
  · exact holds.imp fun _ has => has.1
  · exact holds

theorem follows_next (sound : world.store.Sound) (publisher : Publisher) (env : Env)
    (answer : PortAnswer) :
    Follows publisher.Moves world.store (world.next publisher env answer).store := by
  unfold World.next Moves
  cases publisher.stage.action? with
  | none => exact .refl sound _
  | some action => exact follows_execute sound ⟨env, action⟩

/-- The stage after a statement knows what its call may rely on. -/
theorem Holds.next (sound : world.store.Sound) (safe : world.PublishesOnce)
    (member : publisher ∈ world.publishers) {env : Env} {answer : PortAnswer} {stage : Stage}
    (after : publisher.stage.after world.store env answer = some stage) :
    Holds (world.next publisher env answer) ⟨publisher.requestId, stage⟩ := by
  have holds := safe.holds publisher member
  obtain ⟨requestId, now⟩ := publisher
  cases now with
  | prepare actor authority artifactId baseBranch =>
    obtain rfl : requestOf authority = requestId := holds
    simp only [Stage.after] at after
    split at after
    · rename_i store' old prepared
      have has := (hasOperation_prepared sound prepared).1 old rfl
      split at after
      · cases after
      · obtain rfl := Option.some.inj after
        exact ⟨_, has⟩
    · rename_i store' id prepared
      obtain rfl := Option.some.inj after
      exact ⟨rfl, (hasOperation_prepared sound prepared).2 id rfl⟩
    · cases after
  | load actor authority id =>
    obtain ⟨own, has⟩ := holds
    obtain ⟨loaded, found, rfl⟩ := Option.map_eq_some_iff.mp after
    obtain ⟨sameId, -⟩ := loadIntent_spec sound has found
    exact ⟨own, sameId.symm ▸ has⟩
  | send actor authority x =>
    obtain ⟨rfl, has⟩ := holds
    simp only [Stage.after] at after
    split at after
    · rename_i value sent
      obtain rfl := Option.some.inj after
      refine ⟨hasOperation_sent sound has sent, fun published => ?_⟩
      obtain ⟨_, state, crossed, already⟩ := safe.durable _ published
      exact crossed (hasOperation_unique sound has already).2
    · rename_i code refused
      obtain rfl := Option.some.inj after
      refine ⟨.prepared, ?_, fun _ => rfl⟩
      show HasOperation (execute _ _) _ _ _
      rw [execute, refused]
      exact has
    · cases after
  | publish x =>
    obtain rfl := Option.some.inj after
    exact ⟨.sent, holds.1, by rintro ⟨⟩⟩
  | reconcile id =>
    obtain ⟨state, has⟩ := holds
    obtain ⟨loaded, found, rfl⟩ := Option.map_eq_some_iff.mp after
    obtain ⟨sameId, sameState⟩ := loadIntent_spec sound has found
    split
    · exact ⟨state, sameId.symm ▸ has, fun _ => rfl⟩
    · rename_i crossed
      exact ⟨state, sameState ▸ crossed, sameId.symm ▸ has⟩
  | ask x =>
    obtain ⟨state, crossed, has⟩ := holds
    obtain ⟨receipt, -, rfl⟩ := Option.map_eq_some_iff.mp after
    exact ⟨state, has, fun prepared => absurd prepared crossed⟩
  | store => cases after
  | resolve => cases after

/-- The statements of one call leave the operations of the others alone. -/
theorem Holds.apart (sound : world.store.Sound) (holds : publisher.Holds world)
    (differ : other.requestId ≠ publisher.requestId) (env : Env) (answer : PortAnswer)
    (others : other.Holds world) :
    other.Holds (world.next publisher env answer) := by
  refine others.congr (follows_next sound publisher env answer) fun {id state} has =>
    ⟨fun moved => ?_, fun unsent => ?_⟩
  · obtain ⟨_, own⟩ := holds.own moved
    exact differ (hasOperation_unique sound own has).1
  · obtain ⟨requestId, stage⟩ := publisher
    cases stage with
    | publish x =>
      refine List.not_mem_cons_of_ne_of_not_mem (fun same => ?_) unsent
      exact differ (hasOperation_unique sound holds.1 (same ▸ has)).1
    | _ => exact unsent

/-- What was published stays past the send gate. -/
theorem World.PublishesOnce.later {store' : Store} (safe : world.PublishesOnce)
    (follows : Follows moves world.store store') :
    ∀ id ∈ world.published, ∃ requestId, ∃ state ≠ .prepared,
      HasOperation store' requestId id state := by
  intro id member
  obtain ⟨requestId, state, crossed, has⟩ := safe.durable id member
  obtain ⟨state', later, -, stays⟩ := follows.operation has
  exact ⟨requestId, state', stays crossed, later⟩

theorem World.PublishesOnce.next (sound : world.store.Sound) (safe : world.PublishesOnce)
    (member : publisher ∈ world.publishers) (env : Env) (answer : PortAnswer) :
    (world.next publisher env answer).PublishesOnce := by
  have holds := safe.holds publisher member
  have locks := ((List.perm_cons_erase member).map Publisher.requestId).nodup_iff.mp safe.exclusive
  have sent := safe.later (follows_next sound publisher env answer)
  refine ⟨?_, ?_, ?_, ?_⟩
  · cases after : publisher.stage.after world.store env answer with
    | none => simpa [World.next, after] using (List.nodup_cons.mp locks).2
    | some stage => simpa [World.next, after] using locks
  · intro other inside
    rcases List.mem_append.mp inside with new | old
    · obtain ⟨stage, after, rfl⟩ := Option.map_eq_some_iff.mp (Option.mem_toList.mp new)
      exact Holds.next sound safe member after
    · refine Holds.apart sound holds (fun same => ?_) env answer
        (safe.holds other (List.mem_of_mem_erase old))
      exact (List.nodup_cons.mp locks).1 (same ▸ List.mem_map_of_mem old)
  · obtain ⟨requestId, stage⟩ := publisher
    cases stage with
    | publish x => exact List.nodup_cons.mpr ⟨holds.2, safe.once⟩
    | _ => exact safe.once
  · obtain ⟨requestId, stage⟩ := publisher
    cases stage with
    | publish x => exact List.forall_mem_cons.mpr ⟨⟨requestId, .sent, by decide, holds.1⟩, sent⟩
    | _ => exact sent

/-- Every step of the service and of the calls keeps the books of the publisher. -/
theorem World.PublishesOnce.execute (sound : world.store.Sound) (safe : world.PublishesOnce)
    (step : Step) :
    (world.execute step).store.Sound ∧ (world.execute step).PublishesOnce := by
  have idle := Follows.refl sound fun _ => False
  cases step with
  | transact input =>
    simp only [World.execute]
    split
    · exact ⟨sound, safe⟩
    · rename_i foreign
      have follows := follows_execute sound input
      have silent : ∀ id, ¬ input.Moves id := by
        intro id moved
        unfold Input.Moves at moved
        cases own : input.action <;> simp_all [OfPublisher, Action.publication?]
      refine ⟨sound.next input, safe.exclusive, fun publisher member => ?_, safe.once,
        safe.later follows⟩
      exact (safe.holds publisher member).congr follows fun _ => ⟨silent _, fun unsent => unsent⟩
  | call call =>
    simp only [World.execute]
    split
    · rename_i publisher start
      split
      · exact ⟨sound, safe⟩
      · rename_i free
        refine ⟨sound, List.nodup_cons.mpr ⟨free, safe.exclusive⟩,
          List.forall_mem_cons.mpr ⟨?_, fun other member => ?_⟩, safe.once, safe.durable⟩
        · cases call with
          | publish =>
            obtain rfl := Option.some.inj start
            rfl
          | reconcile =>
            obtain ⟨rows, found, rfl⟩ := Option.map_eq_some_iff.mp start
            exact hasOperation_of_requestOf found
          | resolve =>
            obtain ⟨rows, found, rfl⟩ := Option.map_eq_some_iff.mp start
            exact hasOperation_of_requestOf found
        · exact (safe.holds other member).congr idle fun _ => ⟨not_false, fun unsent => unsent⟩
    · exact ⟨sound, safe⟩
  | next publisher env answer =>
    simp only [World.execute]
    split
    · rename_i member
      exact ⟨(follows_next sound publisher env answer).sound, safe.next sound member env answer⟩
    · exact ⟨sound, safe⟩
  | crash publisher =>
    refine ⟨sound, (List.erase_sublist.map _).nodup safe.exclusive, fun other member => ?_,
      safe.once, safe.durable⟩
    exact (safe.holds other (List.mem_of_mem_erase member)).congr idle
      fun _ => ⟨not_false, fun unsent => unsent⟩

end Worlds

theorem initial_publishesOnce : World.initial.PublishesOnce where
  exclusive := .nil
  holds := List.forall_mem_nil _
  once := .nil
  durable := List.forall_mem_nil _

/-- Whatever calls run, wherever they end and whatever the port answers. -/
theorem published_once (steps : List Step) :
    (run World.execute World.initial steps).PublishesOnce :=
  (@run_invariant_always _ _ World.execute (fun world => world.store.Sound ∧ world.PublishesOnce)
    (fun _ step safe => safe.2.execute safe.1 step) _
    ⟨Store.sound_empty, initial_publishesOnce⟩ steps).2

end Publisher

end Dispatch
end Scrum4Me
