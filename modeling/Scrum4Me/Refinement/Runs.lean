import Scrum4Me.Refinement.Store

/-!
# Reachable stores

The invariant of every reachable store: its keys are unique, all of its requests
are consistent, and no two of them hold one slot. From it, what a step and a run
do to one request.
-/

namespace Scrum4Me
namespace Dispatch

open Foundation

/-! ## Slots -/

/-- The slots that a request holds. -/
def Life.openSlots (life : Life) : List Uuid :=
  (life.reservations.filter ReservationLife.isOpen).map ReservationLife.slotId

theorem Life.mem_openSlots {life : Life} {slotId : Uuid} :
    slotId ∈ life.openSlots ↔
      ∃ row ∈ life.reservations, row.isOpen = true ∧ row.slotId = slotId := by
  simp [Life.openSlots, and_assoc]

/-- A request holds the slot of its open episode, and no other. -/
theorem Life.History.openSlots {life : Life} {past : List Episode} {current : Option Episode}
    (history : life.History past current) :
    life.openSlots = (current.map fun e => e.reservation.slotId).toList := by
  have released : (past.map Episode.reservation).filter ReservationLife.isOpen = [] := by
    rw [List.filter_eq_nil_iff]
    intro row member
    obtain ⟨e, own, rfl⟩ := List.mem_map.mp member
    simp [(history.closed e own).1]
  rw [Life.openSlots, history.flat.reservations, List.map_append,
    List.filter_append, released, List.nil_append]
  cases current with
  | none => rfl
  | some e =>
    have isOpen : e.reservation.isOpen = true := by
      rcases history.agrees with ⟨unclaimed, -⟩ | ⟨s, executing, -⟩
      · exact unclaimed.1
      · exact executing.1
    simp [isOpen]

section Slots

variable {free : Uuid → Prop} {life : Life} {past : List Episode}
  {current : Option Episode} {slotId : Uuid}

/-- Releasing a reservation takes no slot. -/
theorem Life.mem_openSlots_release {candidateId : Uuid} {rows : List ReservationLife}
    (member : ∃ row ∈ updateWhere (fun row : ReservationLife =>
          row.candidateId = candidateId ∧ row.isOpen = true)
        (fun row => { row with isOpen := false }) rows, row.isOpen = true ∧ row.slotId = slotId) :
    ∃ row ∈ rows, row.isOpen = true ∧ row.slotId = slotId := by
  obtain ⟨row, inside, isOpen, same⟩ := member
  rcases mem_updateWhere.mp inside with ⟨old, -, -, rfl⟩ | ⟨own, -⟩
  · cases isOpen
  · exact ⟨row, own, isOpen, same⟩

/-- A change takes no slot but a free one. -/
theorem Life.History.openSlots_apply (history : life.History past current) (change : Change)
    (allowed : change.Allowed free life) (member : slotId ∈ (change.apply life).openSlots) :
    slotId ∈ life.openSlots ∨ free slotId := by
  rw [Life.mem_openSlots] at member
  cases change with
  | reserve candidateId reserved =>
    obtain ⟨row, inside, isOpen, rfl⟩ := member
    rcases mem_inserted.mp inside with old | rfl
    · exact .inl (Life.mem_openSlots.mpr ⟨row, old, isOpen, rfl⟩)
    · exact .inr allowed.2.2.2.2
  | claim candidate claimed =>
    obtain ⟨own, -, -, -, -, -, -, held⟩ := allowed
    obtain ⟨row, inside, isOpen, rfl⟩ := member
    rcases mem_updateWhere.mp inside with ⟨old, oldMember, found, rfl⟩ | ⟨old, -⟩
    · obtain ⟨sameCandidate, oldOpen⟩ := of_decide_eq_true found
      refine held.imp (fun same => ?_) fun isFree => isFree
      obtain ⟨e, episode, rfl⟩ := history.flat.mem_candidates.mp own
      rw [history.flat.reservations] at oldMember
      obtain ⟨e', episode', rfl⟩ := List.mem_map.mp oldMember
      obtain rfl : e' = e := by
        apply List.inj_on_of_nodup_map history.flat.candidateIds episode' episode
        exact (history.flat.linked e' episode').reservation.symm.trans sameCandidate
      refine Life.mem_openSlots.mpr ⟨e'.reservation, ?_, oldOpen, ?_⟩
      · rw [history.flat.reservations]
        exact List.mem_map_of_mem episode'
      · exact (history.flat.linked e' episode').slot.trans same.symm
    · exact .inl (Life.mem_openSlots.mpr ⟨row, old, isOpen, rfl⟩)
  | retire => exact .inl (Life.mem_openSlots.mpr (Life.mem_openSlots_release member))
  | abandon candidate =>
    cases candidate with
    | none => exact .inl (Life.mem_openSlots.mpr member)
    | some row => exact .inl (Life.mem_openSlots.mpr (Life.mem_openSlots_release member))
  | finish => exact .inl (Life.mem_openSlots.mpr (Life.mem_openSlots_release member))
  | recover => exact .inl (Life.mem_openSlots.mpr (Life.mem_openSlots_release member))
  | retry => exact .inl (Life.mem_openSlots.mpr (Life.mem_openSlots_release member))
  | _ => exact .inl (Life.mem_openSlots.mpr member)

/-- A path takes no slots but free ones. -/
theorem Life.Consistent.openSlots_applyAll
    (consistent : life.Consistent) {changes : List Change} (path : life.Path free changes)
    (member : slotId ∈ (life.applyAll changes).openSlots) :
    slotId ∈ life.openSlots ∨ free slotId := by
  induction changes generalizing life with
  | nil => exact .inl member
  | cons change rest ih =>
    obtain ⟨allowed, path⟩ := path
    rcases ih (consistent.apply change allowed) path member
      with earlier | isFree
    · obtain ⟨past, current, consistent⟩ := consistent
      exact consistent.history.openSlots_apply change allowed earlier
    · exact .inr isFree

end Slots

/-! ## The invariant -/

/-- The slots with an open reservation, each as often as it has one. -/
def Store.openSlots (store : Store) : List Uuid :=
  (store.allReservations.filter fun row => row.releasedAt = none).map
    ReservationRow.slotId

theorem Store.openSlots_eq (store : Store) :
    store.openSlots = store.requests.flatMap fun rows => (lifeOf rows).openSlots := by
  have own : ∀ rows : RequestRows,
      (lifeOf rows).openSlots = (rows.reservations.filter fun row => row.releasedAt = none).map
          ReservationRow.slotId := by
    intro rows
    have unreleased : ∀ row : ReservationRow, row.life.isOpen = decide (row.releasedAt = none) := by
      intro row
      cases released : row.releasedAt <;> simp [ReservationRow.life, released]
    simp only [Life.openSlots, lifeOf, List.filter_map, List.map_map, Function.comp_def, unreleased]
    rfl
  simp only [Store.openSlots, Store.allReservations, List.filter_flatMap, List.map_flatMap, own]

theorem Store.free_iff (store : Store) (slotId : Uuid) :
    store.Free slotId ↔ slotId ∉ store.openSlots := by
  simp only [Store.Free, Store.OpenReservation, Store.openSlots, List.mem_map,
    List.mem_filter, decide_eq_true_eq]
  grind

/-- The invariant of the store. -/
structure Store.Sound (store : Store) : Prop where
  keys : store.KeysUnique
  consistent : ∀ rows ∈ store.requests, (lifeOf rows).Consistent
  exclusive : store.openSlots.Nodup

section Steps

variable {store store' : Store} {input : Input} {answer : Answer}
  {requests' : List RequestRows} {rows rows' : RequestRows}

theorem Life.Consistent.openSlots_nodup {life : Life} (consistent : life.Consistent) :
    life.openSlots.Nodup := by
  obtain ⟨past, current, consistent⟩ := consistent
  rw [consistent.history.openSlots]
  cases current <;> simp

theorem Refines.consistent {free : Uuid → Prop} {changes : List Change}
    (refines : Refines free rows rows' changes) (consistent : (lifeOf rows).Consistent) :
    (lifeOf rows').Consistent := by
  rw [refines.life]
  exact consistent.applyAll refines.path

/-- Where the rows of a request come from in one step. -/
inductive Store.Origin (store : Store) (input : Input) (rows' : RequestRows) :
    Prop
  | submitted (life : lifeOf rows' = Life.submitted rows'.request.identity)
      (fresh : ∀ rows ∈ store.requests, rows.request.id ≠ rows'.request.id)
  | kept (rows : RequestRows) (member : rows ∈ store.requests) (life : lifeOf rows' = lifeOf rows)
  | changed (rows : RequestRows) (changes : List Change) (member : rows ∈ store.requests)
      (evolves : Evolves input.env store input.action rows rows' changes)

theorem StoreStep.origin (step : StoreStep store input requests')
    (distinct : (requests'.map fun rows => rows.request.id).Nodup) (member : rows' ∈ requests') :
    store.Origin input rows' := by
  cases step with
  | kept lives =>
    have inLives : lifeOf rows' ∈ store.requests.map lifeOf := by
      rw [← lives]
      exact List.mem_map_of_mem member
    obtain ⟨rows, own, life⟩ := List.mem_map.mp inLives
    exact .kept rows own life.symm
  | submitted rows life appended =>
    subst appended
    rcases mem_inserted.mp member with old | rfl
    · exact .kept rows' old rfl
    · refine .submitted life fun other own sameId => ?_
      rw [List.map_append] at distinct
      exact (List.nodup_append.mp distinct).2.2 _ (List.mem_map_of_mem own) _
        List.mem_cons_self sameId
  | changed before later rows changed changes split split' sameId evolves =>
    rw [split'] at member
    rcases List.mem_append.mp member with old | new
    · exact .kept rows' (by rw [split]; exact List.mem_append_left _ old) rfl
    · rcases List.mem_cons.mp new with rfl | old
      · exact .changed rows changes (by rw [split]; simp) evolves
      · exact .kept rows' (by
          rw [split]
          exact List.mem_append_right _ (List.mem_cons_of_mem _ old)) rfl

/-- A step leaves all requests consistent. -/
theorem Store.Origin.consistent (consistent : ∀ rows ∈ store.requests, (lifeOf rows).Consistent)
    (origin : store.Origin input rows') :
    (lifeOf rows').Consistent := by
  cases origin with
  | submitted life =>
    rw [life]
    exact (Life.settled_submitted _).consistent
  | kept rows member life =>
    rw [life]
    exact consistent rows member
  | changed rows changes member evolves => exact evolves.refines.consistent (consistent rows member)

/-- A step lets no slot be held twice. -/
theorem StoreStep.exclusive (consistent : ∀ rows ∈ store.requests, (lifeOf rows).Consistent)
    (exclusive : store.openSlots.Nodup) (step : StoreStep store input requests') :
    (requests'.flatMap fun rows => (lifeOf rows).openSlots).Nodup := by
  have flat : ∀ requests : List RequestRows,
      (requests.flatMap fun rows => (lifeOf rows).openSlots) =
        (requests.map lifeOf).flatMap Life.openSlots := by
    intro requests
    rw [List.flatMap_map]
  rw [store.openSlots_eq] at exclusive
  cases step with
  | kept lives =>
    rw [flat, lives, ← flat]
    exact exclusive
  | submitted rows life appended =>
    rw [appended, List.flatMap_append, List.flatMap_singleton, life]
    simpa [Life.openSlots, Life.submitted] using exclusive
  | changed before later rows changed changes split split' sameId evolves =>
    have own : rows ∈ store.requests := by rw [split]; simp
    have taken : ∀ slotId ∈ (lifeOf changed).openSlots, slotId ∈ (lifeOf rows).openSlots ∨
          slotId ∉ store.requests.flatMap fun rows =>
            (lifeOf rows).openSlots := by
      intro slotId held
      rw [evolves.refines.life] at held
      refine ((consistent rows own).openSlots_applyAll evolves.refines.path
        held).imp_right fun isFree => ?_
      rw [← store.openSlots_eq]
      exact (store.free_iff slotId).mp isFree
    have next := (evolves.refines.consistent (consistent rows own)).openSlots_nodup
    rw [split] at exclusive taken
    rw [split']
    simp only [List.flatMap_append, List.flatMap_cons, List.nodup_append,
      List.mem_append] at exclusive taken ⊢
    grind

theorem Store.Sound.of_performs (sound : store.Sound) (performs : Performs store input store') :
    store'.Sound where
  keys := performs.keys
  consistent := fun _ member =>
    (performs.step.origin performs.keys.requests member).consistent sound.consistent
  exclusive := by
    rw [store'.openSlots_eq]
    exact performs.step.exclusive sound.consistent sound.exclusive

/-- An input either commits or changes nothing. -/
theorem Store.Sound.execute_cases (sound : store.Sound) (input : Input) :
    (∃ answer, perform store input = .ok (execute store input, answer)) ∧
        Performs store input (execute store input) ∨ execute store input = store := by
  unfold execute
  cases performed : perform store input with
  | error => exact .inr rfl
  | ok value => exact .inl ⟨⟨value.2, rfl⟩, perform_performs sound.consistent sound.keys performed⟩

theorem Store.Sound.next (sound : store.Sound) (input : Input) : (execute store input).Sound := by
  rcases sound.execute_cases input with ⟨-, performs⟩ | same
  · exact sound.of_performs performs
  · rw [same]
    exact sound

theorem Store.Sound.afterRun (sound : store.Sound) (inputs : List Input) :
    (run execute store inputs).Sound :=
  run_invariant_always (fun _ input earlier => earlier.next input) sound inputs

theorem Store.Sound.origin (sound : store.Sound) (member : rows' ∈ (execute store input).requests) :
    store.Origin input rows' := by
  rcases sound.execute_cases input with ⟨-, performs⟩ | same
  · exact performs.step.origin performs.keys.requests member
  · rw [same] at member
    exact .kept rows' member rfl

end Steps

theorem Store.sound_empty : Store.empty.Sound where
  keys := by decide
  consistent := by
    intro rows member
    cases member
  exclusive := List.nodup_nil

theorem sound_after (inputs : List Input) : (after inputs).Sound :=
  Store.sound_empty.afterRun inputs

theorem reachable_after (inputs : List Input) : Reachable (after inputs) :=
  ⟨inputs, rfl⟩

theorem Reachable.sound {store : Store} (reachable : Reachable store) : store.Sound := by
  obtain ⟨inputs, rfl⟩ := reachable
  exact sound_after inputs

/-! ## Transactions of one request -/

section Transactions

variable {store store' : Store} {input : Input} {answer : Answer}

/-- A committed transaction on the rows of one request. -/
theorem perform_rows (committed : perform store input = .ok (store', answer))
    (works : transact input.env store input.action =
      onRows store (input.action.target? store) notFound fun rows =>
        transactRows input.env store rows input.action) :
    ∃ rows rows', rows ∈ store.requests ∧
      transactRows input.env store rows input.action = .ok (rows', answer) ∧
      store' = { store.put rows' with clock := input.env.clock } := by
  obtain ⟨changed, transacted, -, -, rfl⟩ := perform_eq_ok committed
  rw [works] at transacted
  obtain ⟨rows, rows', found, written, rfl⟩ := onRows_eq_ok transacted
  exact ⟨rows, rows', target?_mem found, written, rfl⟩

/-- The transaction stays on its request, which stays in the store. -/
theorem Store.Sound.transaction
    (sound : store.Sound) (committed : perform store input = .ok (store', answer))
    (works : transact input.env store input.action =
      onRows store (input.action.target? store) notFound fun rows =>
        transactRows input.env store rows input.action) :
    ∃ before rows rows' later changes, store.requests = before ++ rows :: later ∧
      store'.requests = before ++ rows' :: later ∧
      transactRows input.env store rows input.action = .ok (rows', answer) ∧
      store' = { store.put rows' with clock := input.env.clock } ∧
      Evolves input.env store input.action rows rows' changes := by
  obtain ⟨changed, transacted, -, keys, rfl⟩ := perform_eq_ok committed
  rw [works] at transacted
  obtain ⟨rows, rows', found, written, rfl⟩ := onRows_eq_ok transacted
  have member := target?_mem found
  obtain ⟨changes, evolves⟩ := transactRows_evolves
    (sound.consistent rows member) (keepsKeys sound.keys keys member) written
  obtain ⟨before, later, split⟩ := List.append_of_mem member
  exact ⟨before, rows, rows', later, changes, split,
    put_split sound.keys.requests split evolves.refines.sameId, written, rfl,
    evolves⟩

end Transactions

/-! ## One request along a run -/

/-- What one input does to the rows of a request. -/
inductive Store.Successor
    (store : Store) (input : Input) (rows rows' : RequestRows) : Prop
  | kept (life : lifeOf rows' = lifeOf rows)
  | changed (changes : List Change)
      (evolves : Evolves input.env store input.action rows rows' changes)

section Requests

variable {store : Store} {input : Input} {rows rows' : RequestRows}

theorem Store.Sound.request_unique (sound : store.Sound) (member : rows ∈ store.requests)
    (member' : rows' ∈ store.requests) (sameId : rows'.request.id = rows.request.id) :
    rows' = rows :=
  List.inj_on_of_nodup_map sound.keys.requests member' member sameId

theorem Store.request?_eq_some {id : Uuid} (found : store.request? id = some rows) :
    rows ∈ store.requests ∧ rows.request.id = id := by
  have matched := List.find?_some found
  exact ⟨List.mem_of_find?_eq_some found, of_decide_eq_true matched⟩

theorem Store.Sound.request?_of_mem (sound : store.Sound) (member : rows ∈ store.requests) :
    store.request? rows.request.id = some rows := by
  cases found : store.request? rows.request.id with
  | none =>
    have missed := List.find?_eq_none.mp found rows member
    exact absurd (decide_eq_true rfl) missed
  | some other =>
    obtain ⟨known, sameId⟩ := store.request?_eq_some found
    rw [sound.request_unique member known sameId]

/-- The transaction of a request writes its rows and no others. -/
theorem Store.Sound.transaction_rows {store' : Store} {answer : Answer} (sound : store.Sound)
    (committed : perform store input = .ok (store', answer))
    (works : transact input.env store input.action =
      onRows store (input.action.target? store) notFound fun rows =>
        transactRows input.env store rows input.action)
    (member : rows ∈ store.requests) (member' : rows' ∈ store'.requests)
    (sameId : rows'.request.id = rows.request.id) :
    rows' = rows ∨ transactRows input.env store rows input.action = .ok (rows', answer) := by
  have sound' := sound.of_performs (perform_performs sound.consistent sound.keys committed)
  obtain ⟨before, own, own', later, changes, split, split', written, -,
    evolves⟩ := sound.transaction committed works
  have keptId := evolves.refines.sameId
  by_cases its : rows.request.id = own.request.id
  · obtain rfl := sound.request_unique (by rw [split]; simp) member its
    obtain rfl := sound'.request_unique (by rw [split']; simp) member' (sameId.trans keptId.symm)
    exact .inr written
  · rw [split] at member
    have elsewhere : rows ∈ store'.requests := by
      rw [split']
      rcases List.mem_append.mp member with first | rest
      · exact List.mem_append_left _ first
      · rcases List.mem_cons.mp rest with rfl | rest
        · exact (its rfl).elim
        · exact List.mem_append_right _ (List.mem_cons_of_mem _ rest)
    exact .inl (sound'.request_unique elsewhere member' sameId)

theorem sameId_of_lifeOf (life : lifeOf rows' = lifeOf rows) : rows'.request.id = rows.request.id :=
  congrArg (fun life => life.identity.requestId) life

theorem Store.Sound.successor (sound : store.Sound) (member : rows ∈ store.requests)
    (member' : rows' ∈ (execute store input).requests)
    (sameId : rows'.request.id = rows.request.id) :
    store.Successor input rows rows' := by
  cases sound.origin member' with
  | submitted life fresh => exact (fresh rows member sameId.symm).elim
  | kept old own life =>
    obtain rfl := sound.request_unique member own ((sameId_of_lifeOf life).symm.trans sameId)
    exact .kept life
  | changed old changes own evolves =>
    obtain rfl := sound.request_unique member own (evolves.refines.sameId.symm.trans sameId)
    exact .changed changes evolves

/-- No input removes a request. -/
theorem Store.Sound.exists_successor
    (sound : store.Sound) (member : rows ∈ store.requests) (input : Input) :
    ∃ rows' ∈ (execute store input).requests, rows'.request.id = rows.request.id := by
  rcases sound.execute_cases input with ⟨-, performs⟩ | same
  · cases performs.step with
    | kept lives =>
      have inLives : lifeOf rows ∈ (execute store input).requests.map lifeOf := by
        rw [lives]
        exact List.mem_map_of_mem member
      obtain ⟨rows', own, life⟩ := List.mem_map.mp inLives
      exact ⟨rows', own, sameId_of_lifeOf life⟩
    | submitted new life appended =>
      rw [appended]
      exact ⟨rows, List.mem_append_left _ member, rfl⟩
    | changed before later old new changes split split' sameId =>
      rw [split']
      rw [split] at member
      rcases List.mem_append.mp member with earlier | rest
      · exact ⟨rows, List.mem_append_left _ earlier, rfl⟩
      · rcases List.mem_cons.mp rest with rfl | rest
        · exact ⟨new, by simp, sameId⟩
        · exact ⟨rows, List.mem_append_right _ (List.mem_cons_of_mem _ rest), rfl⟩
  · rw [same]
    exact ⟨rows, member, rfl⟩

/-- The store is sound, and an input takes the requests along allowed paths of their
lives or adds a new one. -/
structure Store.RefinesLives (store : Store) (input : Input) : Prop where
  sound : store.Sound
  stays : ∀ rows ∈ store.requests, ∃ rows' ∈ (execute store input).requests,
    rows'.request.id = rows.request.id ∧ store.Successor input rows rows'
  origin : ∀ rows' ∈ (execute store input).requests, store.Origin input rows'

theorem transactions_refine (inputs : List Input) (input : Input) :
    (after inputs).RefinesLives input where
  sound := sound_after inputs
  stays _ member := by
    obtain ⟨rows', own, sameId⟩ := (sound_after inputs).exists_successor member input
    exact ⟨rows', own, sameId, (sound_after inputs).successor member own sameId⟩
  origin _ := (sound_after inputs).origin

theorem Store.Successor.later (successor : store.Successor input rows rows') :
    (lifeOf rows).Later (lifeOf rows') := by
  cases successor with
  | kept life =>
    rw [life]
    exact .refl _
  | changed changes evolves =>
    rw [evolves.refines.life]
    exact Life.later_applyAll _ changes

/-- What every admitted step does to a request, a run does to it. -/
theorem Store.Sound.along
    (condition : Store → Input → Prop) (relation : RequestRows → RequestRows → Prop)
    (reflexive : ∀ rows, relation rows rows)
    (transitive : ∀ {first second third}, relation first second →
      relation second third → relation first third)
    (related : ∀ (store : Store) (input : Input) (rows rows' : RequestRows),
      store.Sound → condition store input → rows ∈ store.requests →
      rows' ∈ (execute store input).requests →
      rows'.request.id = rows.request.id → relation rows rows')
    (sound : store.Sound) {inputs : List Input}
    (admitted : EveryStep execute condition store inputs) (member : rows ∈ store.requests)
    (member' : rows' ∈ (run execute store inputs).requests)
    (sameId : rows'.request.id = rows.request.id) :
    relation rows rows' := by
  induction inputs generalizing store rows with
  | nil =>
    obtain rfl := sound.request_unique member member' sameId
    exact reflexive rows'
  | cons input rest ih =>
    obtain ⟨next, own, nextId⟩ := sound.exists_successor member input
    exact transitive (related store input rows next sound admitted.1 member own nextId)
      (ih (sound.next input) admitted.2 own member' (sameId.trans nextId.symm))

/-- Along a run, the rows of one request lead a later life. -/
theorem Store.Sound.later
    (sound : store.Sound) (inputs : List Input) (member : rows ∈ store.requests)
    (member' : rows' ∈ (run execute store inputs).requests)
    (sameId : rows'.request.id = rows.request.id) :
    (lifeOf rows).Later (lifeOf rows') :=
  sound.along (fun _ _ => True)
    (fun rows rows' => (lifeOf rows).Later (lifeOf rows')) (fun _ => .refl _)
    .trans
    (fun _ _ _ _ sound _ member member' sameId => (sound.successor member member' sameId).later)
    (everyStep_of_forall (fun _ _ _ => trivial) store) member member' sameId

end Requests

/-! ## Settled stores -/

/-- The input commits a stop that was resent for an attempt of an earlier
generation, while its request waits to be cancelled. -/
def Input.StaleStop (store : Store) (input : Input) : Prop :=
  (∃ value, perform store input = .ok value) ∧
    ∃ rows ∈ store.requests,
      input.action.StaleStop input.env store.registry rows

def Store.Settled (store : Store) : Prop :=
  ∀ rows ∈ store.requests, (lifeOf rows).Settled

/-- A step without a stale stop leaves all requests settled. -/
theorem Store.Sound.settled_execute
    {store : Store} {input : Input} (sound : store.Sound) (settled : store.Settled)
    (admitted : ¬ input.StaleStop store) :
    (execute store input).Settled := by
  rcases sound.execute_cases input with ⟨⟨answer, performed⟩, -⟩ | same
  · intro rows' member
    cases sound.origin member with
    | submitted life =>
      rw [life]
      exact Life.settled_submitted _
    | kept rows own life =>
      rw [life]
      exact settled rows own
    | changed rows changes own evolves =>
      rw [evolves.refines.life]
      refine (settled rows own).applyAll evolves.refines.path
        (evolves.fresh.resolve_right fun stale => ?_)
      exact admitted ⟨⟨_, performed⟩, rows, own, stale⟩
  · rw [same]
    exact settled

/-- A run without a stale stop leads to a store whose requests are settled. -/
theorem settled_after {inputs : List Input} (admitted : EveryStep execute
      (fun store input => ¬ input.StaleStop store) Store.empty inputs) :
    (after inputs).Settled := by
  have kept := run_invariant (fun (state : Store) (input : Input)
        (earlier : state.Sound ∧ state.Settled)
        (admitted : ¬ input.StaleStop state) =>
      (⟨earlier.1.next input, earlier.1.settled_execute earlier.2 admitted⟩ :
        (execute state input).Sound ∧ (execute state input).Settled))
    (⟨Store.sound_empty, fun rows member => by cases member⟩ :
      Store.empty.Sound ∧ Store.empty.Settled) admitted
  exact kept.2

end Dispatch
end Scrum4Me
