import Scrum4Me.Guarantees.WholeMachine

/-!
# Execution capacity

A slot has at most one open reservation, and the reservation of a claimed
attempt is closed only once the attempt's stop was accepted: no cancellation,
lease or registration can do it alone.
-/

namespace Scrum4Me
namespace Dispatch

open Foundation

/-! ## Holding a slot -/

/-- The reservation of the candidate is open. -/
def Life.Holds (life : Life) (candidateId : Uuid) : Prop :=
  ∃ row ∈ life.reservations,
    row.candidateId = candidateId ∧ row.isOpen = true

/-- A change that begins a publication. -/
def Change.Publishes : Change → Prop
  | .preparePublication _ _ _ => True
  | _ => False

section Changes

variable {free : Uuid → Prop} {life : Life} {past : List Episode}
  {current : Option Episode} {candidateId : Uuid}

/-- An update of reservations that closes none lets every candidate hold on. -/
theorem Life.Holds.setReservation {id : Uuid} {change : ReservationLife → ReservationLife}
    (holds : life.Holds candidateId) (sameId : ∀ row, (change row).candidateId = row.candidateId)
    (keepsOpen : ∀ row, row.isOpen = true → (change row).isOpen = true) :
    ∃ row ∈ updateWhere (fun row : ReservationLife => row.candidateId = id ∧ row.isOpen = true)
        change life.reservations, row.candidateId = candidateId ∧ row.isOpen = true := by
  obtain ⟨row, member, own, isOpen⟩ := holds
  refine ⟨_, List.mem_map_of_mem member, ?_⟩
  split
  · exact ⟨(sameId row).trans own, keepsOpen row isOpen⟩
  · exact ⟨own, isOpen⟩

/-- A reservation is closed only while no publication is unresolved. -/
theorem Life.ConsistentWith.closes (consistent : life.ConsistentWith past current) (change : Change)
    (allowed : change.Allowed free life) (holds : life.Holds candidateId)
    (closed : ¬ (change.apply life).Holds candidateId) :
    ¬ life.Unresolved := by
  have publications := consistent.publications
  cases change with
  | reserve =>
    obtain ⟨row, member, own⟩ := holds
    exact (closed ⟨row, List.mem_append_left _ member, own⟩).elim
  | claim => exact (closed (holds.setReservation (fun _ => rfl) fun _ isOpen => isOpen)).elim
  | retire =>
    exact publications.not_unresolved (by rw [allowed.2.1]; decide) (by rw [allowed.2.1]; decide)
  | abandon candidate =>
    cases candidate with
    | none => exact (closed holds).elim
    | some row =>
      obtain ⟨-, -, -, -, -, member, -, isOpen, unclaimed⟩ := allowed
      obtain ⟨-, -, -, -, reserved⟩ := consistent.history.unclaimed_current member isOpen unclaimed
      exact publications.not_unresolved (by rw [reserved]; decide) (by rw [reserved]; decide)
  | finish => exact allowed.2.2.1
  | recover => exact allowed.2.2.2.1
  | retry => exact allowed.2.2.2.1
  | _ => exact (closed holds).elim

/-- Only a new publication can be the first unresolved one. -/
theorem Change.unresolved_apply {change : Change} (silent : ¬ change.Publishes)
    (unresolved : (change.apply life).Unresolved) :
    life.Unresolved := by
  obtain ⟨p, member, unresolved⟩ := unresolved
  cases change with
  | preparePublication => exact (silent trivial).elim
  | sendPublication =>
    rcases mem_updateWhere.mp member with ⟨old, own, -, rfl⟩ | ⟨own, -⟩
    · refine ⟨old, own, ?_⟩
      split at unresolved
      · rename_i prepared
        exact .inl prepared
      · exact unresolved
    · exact ⟨p, own, unresolved⟩
  | settlePublication =>
    rcases mem_updateWhere.mp member with ⟨old, own, -, rfl⟩ | ⟨own, -⟩
    · refine ⟨old, own, ?_⟩
      split at unresolved
      · rename_i before
        exact before
      · exact unresolved
    · exact ⟨p, own, unresolved⟩
  | abandon candidate => cases candidate <;> exact ⟨p, member, unresolved⟩
  | _ => exact ⟨p, member, unresolved⟩

variable {changes : List Change}

theorem Life.unresolved_applyAll (silent : ∀ change ∈ changes, ¬ change.Publishes)
    (unresolved : (life.applyAll changes).Unresolved) :
    life.Unresolved := by
  induction changes generalizing life with
  | nil => exact unresolved
  | cons change rest ih =>
    exact Change.unresolved_apply (silent change List.mem_cons_self) (ih
        (fun other member => silent other (List.mem_cons_of_mem _ member))
        unresolved)

/-- A path that closes a reservation and begins no publication ends without an
unresolved one. -/
theorem Life.Consistent.closes_applyAll
    (consistent : life.Consistent) (path : life.Path free changes)
    (silent : ∀ change ∈ changes, ¬ change.Publishes) (holds : life.Holds candidateId)
    (closed : ¬ (life.applyAll changes).Holds candidateId) :
    ¬ (life.applyAll changes).Unresolved := by
  induction changes generalizing life with
  | nil => exact (closed holds).elim
  | cons change rest ih =>
    obtain ⟨allowed, path⟩ := path
    by_cases still : (change.apply life).Holds candidateId
    · exact ih (consistent.apply change allowed) path
        (fun other member => silent other (List.mem_cons_of_mem _ member))
        still closed
    · obtain ⟨past, current, consistent⟩ := consistent
      have settled := consistent.closes change allowed holds still
      exact fun unresolved => settled (Life.unresolved_applyAll silent unresolved)

/-- An action that begins a publication does nothing else. -/
theorem Action.Makes.publishes {action : Action} (makes : action.Makes changes) :
    (∃ x id headSha, changes = [.preparePublication x id headSha]) ∨
      ∀ change ∈ changes, ¬ change.Publishes := by
  cases action with
  | preparePublication =>
    rcases makes with rfl | ⟨x, id, headSha, rfl⟩
    · exact .inr (by simp)
    · exact .inl ⟨x, id, headSha, rfl⟩
  | cancel =>
    right
    rcases makes with rfl | ⟨earlier, key, digest, path, rfl⟩
    · simp
    · cases path <;> simp [Change.Publishes]
  | submitStop => right; cases makes <;> simp [Change.Publishes]
  | submitHistoricalStop => right; cases makes <;> simp [Change.Publishes]
  | submitClaimBoundStop => right; cases makes <;> simp [Change.Publishes]
  | closeSignedOff => right; cases makes <;> simp [Change.Publishes]
  | recover =>
    right
    cases makes with
    | replayed => simp
    | decided change ends => cases ends <;> simp [Change.Publishes]
    | stoppedAndDecided x mark change ends => cases ends <;> simp [Change.Publishes]
  | _ =>
    right
    simp only [Action.Makes] at makes
    grind [Change.Publishes]

/-- An attempt whose candidate holds no slot any more has stopped. -/
theorem Life.History.stopped_of_closed
    (history : life.History past current) {a : AttemptLife} (member : a ∈ life.attempts)
    (closed : ∃ row ∈ life.reservations, row.candidateId = a.candidateId ∧ row.isOpen = false) :
    a.stopped = true := by
  obtain ⟨row, inside, own, isClosed⟩ := closed
  obtain ⟨e, episode, attempt⟩ := history.flat.mem_attempts.mp member
  have reservations := history.flat.reservationsOf episode
  have sameId := (history.flat.linked e episode).attempt a attempt
  have found : row ∈ [e.reservation] := by
    rw [← reservations]
    exact List.mem_filter.mpr ⟨inside, decide_eq_true (own.trans sameId)⟩
  obtain rfl := List.mem_singleton.mp found
  rcases List.mem_append.mp episode with old | new
  · rcases (history.closed e old).2 with
      ⟨-, none', -⟩ | ⟨-, b, outcome, some', -, stopped, -⟩
    · rw [none'] at attempt
      cases attempt
    · obtain rfl := Option.some.inj (some'.symm.trans attempt)
      exact stopped
  · obtain rfl : current = some e := by simpa [eq_comm] using new
    rw [history.isOpen_current.1] at isClosed
    cases isClosed

end Changes

/-! ## Rows -/

namespace RequestRows

/-- The attempt has stopped for good: its stop was accepted once, and its
authority is gone. -/
structure Stopped (rows : RequestRows) (attemptId : Uuid) : Prop where
  marked : ∃ a ∈ rows.attempts, a.id = attemptId ∧ a.stoppedAt ≠ none ∧
    a.revokedAt ≠ none
  once : (rows.stopsOf attemptId).length = 1

/-- The reservation of a candidate is open. -/
def HoldsSlot (rows : RequestRows) (candidateId : Uuid) : Prop :=
  ∃ r ∈ rows.reservations, r.candidateId = candidateId ∧ r.releasedAt = none

instance (rows : RequestRows) (candidateId : Uuid) :
    Decidable (rows.HoldsSlot candidateId) :=
  inferInstanceAs (Decidable (∃ r ∈ rows.reservations, _))

/-- The reservation of a candidate is closed. -/
def ReleasedSlot (rows : RequestRows) (candidateId : Uuid) : Prop :=
  ∃ r ∈ rows.reservations, r.candidateId = candidateId ∧ r.releasedAt ≠ none

instance (rows : RequestRows) (candidateId : Uuid) :
    Decidable (rows.ReleasedSlot candidateId) :=
  inferInstanceAs (Decidable (∃ r ∈ rows.reservations, _))

theorem holds_lifeOf (rows : RequestRows) (candidateId : Uuid) :
    (lifeOf rows).Holds candidateId ↔ rows.HoldsSlot candidateId := by
  simp [Life.Holds, HoldsSlot, lifeOf, ReservationRow.life]

theorem count_stops_lifeOf (rows : RequestRows) (attemptId : Uuid) :
    ((lifeOf rows).stops.map StopLife.attemptId).count (some attemptId) =
      (rows.stopsOf attemptId).length := by
  simp only [lifeOf, List.map_map, stopsOf, List.count_eq_countP,
    List.countP_eq_length_filter, List.filter_map, List.length_map]
  congr 1
  apply List.filter_congr
  intro fact _
  rw [Bool.eq_iff_iff]
  simp [StopFact.life]

end RequestRows

section Capacity

variable {store : Store} {input : Input} {rows rows' : RequestRows} {a : AttemptRow}

/-- A request has one reservation for each candidate. -/
theorem Life.Consistent.released (consistent : (lifeOf rows).Consistent) {candidateId : Uuid}
    (released : rows.ReleasedSlot candidateId) :
    ¬ rows.HoldsSlot candidateId := by
  obtain ⟨past, current, consistent⟩ := consistent
  have flat := consistent.history.flat
  rintro ⟨held, heldMember, heldOwn, isOpen⟩
  obtain ⟨row, member, own, isClosed⟩ := released
  have both : ∀ r ∈ rows.reservations, r.candidateId = candidateId →
      ∃ e ∈ past ++ current.toList, e.candidate.id = candidateId ∧ e.reservation = r.life := by
    intro r inside named
    have inLife : r.life ∈ (lifeOf rows).reservations := List.mem_map_of_mem inside
    rw [flat.reservations] at inLife
    obtain ⟨e, episode, same⟩ := List.mem_map.mp inLife
    refine ⟨e, episode, ?_, same⟩
    rw [← (flat.linked e episode).reservation, same]
    exact named
  obtain ⟨e, episode, eId, eRow⟩ := both held heldMember heldOwn
  obtain ⟨f, episode', fId, fRow⟩ := both row member own
  obtain rfl := List.inj_on_of_nodup_map flat.candidateIds episode episode' (eId.trans fId.symm)
  have same := congrArg ReservationLife.isOpen (eRow.symm.trans fRow)
  simp only [ReservationRow.life, isOpen] at same
  exact isClosed (Option.isNone_iff_eq_none.mp same.symm)

/-- An attempt that is marked stopped has stopped for good. -/
theorem Life.Consistent.stopped (consistent : (lifeOf rows).Consistent) (member : a ∈ rows.attempts)
    (marked : a.stoppedAt ≠ none) :
    rows.Stopped a.id := by
  obtain ⟨past, current, consistent⟩ := consistent
  have recorded := consistent.stops.recorded a.life (List.mem_map_of_mem member)
  have stopped : a.life.stopped = true := Option.isSome_iff_ne_none.mpr marked
  refine ⟨⟨a, member, rfl, marked, Option.isSome_iff_ne_none.mp (recorded.revoked stopped)⟩, ?_⟩
  rw [← rows.count_stops_lifeOf]
  exact recorded.stops.trans (if_pos stopped)

/-- An attempt whose reservation is closed is marked stopped. -/
theorem Life.Consistent.marked (consistent : (lifeOf rows).Consistent) (member : a ∈ rows.attempts)
    (released : rows.ReleasedSlot a.candidateId) :
    a.stoppedAt ≠ none := by
  obtain ⟨past, current, consistent⟩ := consistent
  obtain ⟨r, reservation, own, isClosed⟩ := released
  have stopped : a.life.stopped = true := by
    apply consistent.history.stopped_of_closed (List.mem_map_of_mem member)
    refine ⟨r.life, List.mem_map_of_mem reservation, own, ?_⟩
    simpa [ReservationRow.life] using Option.ne_none_iff_isSome.mp isClosed
  exact Option.isSome_iff_ne_none.mp stopped

/-- The attempt of a later life of the request. -/
theorem Life.Later.attempt
    (later : (lifeOf rows).Later (lifeOf rows')) (member : a ∈ rows.attempts) :
    ∃ a' ∈ rows'.attempts, a'.id = a.id ∧ a'.candidateId = a.candidateId ∧
      (a.stoppedAt ≠ none → a'.stoppedAt ≠ none) := by
  obtain ⟨b, inside, laterAttempt⟩ := later.attempts a.life (List.mem_map_of_mem member)
  obtain ⟨a', own, rfl⟩ := List.mem_map.mp inside
  refine ⟨a', own, laterAttempt.id, laterAttempt.candidateId, fun marked => ?_⟩
  exact Option.isSome_iff_ne_none.mp (laterAttempt.stopped (Option.isSome_iff_ne_none.mpr marked))

/-- The attempt is marked stopped exactly if its stop was accepted. -/
theorem Life.Consistent.stopOf_iff
    (consistent : (lifeOf rows).Consistent) (member : a ∈ rows.attempts) :
    (lifeOf rows).StopOf a.id ↔ a.stoppedAt ≠ none := by
  obtain ⟨past, current, consistent⟩ := consistent
  have recorded := consistent.stops.recorded a.life (List.mem_map_of_mem member)
  exact recorded.stopOf_iff.trans Option.isSome_iff_ne_none

/-- The step that closes the reservation of an attempt leaves it stopped, and
leaves no publication of the request unresolved. -/
theorem Store.Sound.stopped_of_release (sound : store.Sound) (member : rows ∈ store.requests)
    (member' : rows' ∈ (execute store input).requests)
    (sameId : rows'.request.id = rows.request.id) (own : a ∈ rows.attempts)
    (held : rows.HoldsSlot a.candidateId) (released : rows'.ReleasedSlot a.candidateId) :
    rows'.Stopped a.id ∧ ¬ rows'.UnresolvedPublication := by
  have consistent := sound.consistent rows member
  have consistent' := (sound.next input).consistent rows' member'
  have closed : ¬ (lifeOf rows').Holds a.candidateId := by
    rw [rows'.holds_lifeOf]
    exact consistent'.released released
  have holds := (rows.holds_lifeOf a.candidateId).mpr held
  cases sound.successor member member' sameId with
  | kept life =>
    rw [life] at closed
    exact (closed holds).elim
  | changed changes evolves =>
    have life := evolves.refines.life
    refine ⟨?_, ?_⟩
    · have later := Life.later_applyAll (lifeOf rows) changes
      rw [← life] at later
      obtain ⟨a', inside, sameAttempt, sameCandidate, -⟩ := later.attempt own
      rw [← sameCandidate] at released
      rw [← sameAttempt]
      exact consistent'.stopped inside (consistent'.marked inside released)
    · rw [← unresolved_lifeOf]
      rw [life] at closed ⊢
      rcases evolves.makes.publishes with ⟨x, id, headSha, rfl⟩ | silent
      · exact (closed holds).elim
      · exact consistent.closes_applyAll evolves.refines.path silent holds closed

end Capacity

/-! ## Runs without a stop -/

/-- The actions that withdraw an execution's authority without evidence that it
stopped: cancellation, the lease renewals and sweeps with their expiries, the
registration that signs an incarnation off, a disabled slot and a revoked
profile. -/
def Action.Withdraws : Action → Prop
  | .cancel .. => True
  | .renew .. => True
  | .markExpired .. => True
  | .register .. => True
  | .disableSlot .. => True
  | .revokeProfile .. => True
  | _ => False

/-- A change that accepts a stop. -/
def Change.Stops : Change → Prop
  | .stop _ _ => True
  | _ => False

theorem Change.stops_apply {change : Change} (silent : ¬ change.Stops) (life : Life) :
    (change.apply life).stops = life.stops := by
  cases change with
  | stop => exact (silent trivial).elim
  | abandon candidate => cases candidate <;> rfl
  | _ => rfl

theorem Life.stops_applyAll
    {changes : List Change} (silent : ∀ change ∈ changes, ¬ change.Stops) (life : Life) :
    (life.applyAll changes).stops = life.stops := by
  induction changes generalizing life with
  | nil => rfl
  | cons change rest ih =>
    exact (ih (fun other member => silent other (List.mem_cons_of_mem _ member))
      _).trans (Change.stops_apply (silent change List.mem_cons_self) life)

/-- Withdrawing authority accepts no stop. -/
theorem Action.Makes.withdraws
    {action : Action} {changes : List Change} (makes : action.Makes changes)
    (withdraws : action.Withdraws) :
    ∀ change ∈ changes, ¬ change.Stops := by
  cases action with
  | cancel =>
    rcases makes with rfl | ⟨earlier, key, digest, path, rfl⟩
    · simp
    · cases path <;> simp [Change.Stops]
  | renew =>
    simp only [Action.Makes] at makes
    grind [Change.Stops]
  | markExpired =>
    simp only [Action.Makes] at makes
    grind [Change.Stops]
  | register => obtain rfl := makes; simp
  | disableSlot => obtain rfl := makes; simp
  | revokeProfile => obtain rfl := makes; simp
  | _ => exact withdraws.elim

/-- A run that only withdraws authority accepts no stop. -/
theorem Store.Sound.stops_along
    {store : Store} {inputs : List Input} {rows rows' : RequestRows} (sound : store.Sound)
    (withdraws : ∀ input ∈ inputs, input.action.Withdraws) (member : rows ∈ store.requests)
    (member' : rows' ∈ (run execute store inputs).requests)
    (sameId : rows'.request.id = rows.request.id) :
    (lifeOf rows').stops = (lifeOf rows).stops := by
  refine sound.along (fun _ input => input.action.Withdraws)
    (fun rows rows' => (lifeOf rows').stops = (lifeOf rows).stops)
    (fun _ => rfl) (fun first second => second.trans first) ?_
    (everyStep_of_forall (fun _ => withdraws) store) member member' sameId
  intro store input rows rows' sound withdraws member member' sameId
  cases sound.successor member member' sameId with
  | kept life => rw [life]
  | changed changes evolves =>
    rw [evolves.refines.life]
    exact Life.stops_applyAll (evolves.makes.withdraws withdraws) _

/-- Capacity is never handed out twice, and never released without a stop. -/
theorem capacity_of_reachable (store : Store) (reachable : Reachable store) :
    store.openSlots.Nodup ∧ (∀ input : Input, ∀ rows ∈ store.requests,
        ∀ rows' ∈ (execute store input).requests,
          rows'.request.id = rows.request.id →
          ∀ a ∈ rows.attempts, rows.HoldsSlot a.candidateId →
            rows'.ReleasedSlot a.candidateId →
            rows'.Stopped a.id ∧ ¬ rows'.UnresolvedPublication) ∧
      ∀ inputs : List Input, (∀ input ∈ inputs, input.action.Withdraws) →
        ∀ rows ∈ store.requests, ∀ rows' ∈ (run execute store inputs).requests,
          rows'.request.id = rows.request.id →
          ∀ a ∈ rows.attempts, rows'.ReleasedSlot a.candidateId →
            rows.Stopped a.id := by
  have sound := reachable.sound
  refine ⟨sound.exclusive, ?_, ?_⟩
  · intro input rows member rows' member' sameId a own held released
    exact sound.stopped_of_release member member' sameId own held released
  · intro inputs withdraws rows member rows' member' sameId a own released
    have consistent := sound.consistent rows member
    have consistent' := (sound.afterRun inputs).consistent rows' member'
    have same := sound.stops_along withdraws member member' sameId
    obtain ⟨a', inside, sameAttempt, sameCandidate, -⟩ :=
      (sound.later inputs member member' sameId).attempt own
    rw [← sameCandidate] at released
    have accepted := (consistent'.stopOf_iff inside).mpr (consistent'.marked inside released)
    rw [Life.StopOf, same, sameAttempt] at accepted
    exact consistent.stopped own ((consistent.stopOf_iff own).mp accepted)


/-- The operator's retry gives the slot of the stopped attempt back; so would a
cancellation in its place. -/
theorem capacity_deployment :
    (after Deployment.stopped).openSlots.Nodup ∧
      (∃ rows ∈ (execute (after Deployment.stopped) Deployment.retry).requests,
        rows.Stopped 700 ∧ ¬ rows.UnresolvedPublication) ∧
      ∃ rows ∈ (after Deployment.stopped).requests, rows.Stopped 700 := by
  obtain ⟨exclusive, releases, withdraws⟩ :=
    capacity_of_reachable _ (reachable_after Deployment.stopped)
  refine ⟨exclusive, ?_, ?_⟩
  · have released : ∃ rows ∈ (after Deployment.stopped).requests,
        ∃ rows' ∈ (execute (after Deployment.stopped) Deployment.retry).requests,
          rows'.request.id = rows.request.id ∧
            ∃ a ∈ rows.attempts, a.id = 700 ∧
              rows.HoldsSlot a.candidateId ∧
                rows'.ReleasedSlot a.candidateId := by
      decide +kernel
    obtain ⟨rows, member, rows', member', sameId, a, own, named, held,
      released⟩ := released
    refine ⟨rows', member', ?_⟩
    rw [← named]
    exact releases _ rows member rows' member' sameId a own held released
  · have released : ∃ rows ∈ (after Deployment.stopped).requests,
        ∃ rows' ∈ (run execute (after Deployment.stopped) [Deployment.cancel 200003 5]).requests,
          rows'.request.id = rows.request.id ∧
            ∃ a ∈ rows.attempts, a.id = 700 ∧
              rows'.ReleasedSlot a.candidateId := by
      decide +kernel
    obtain ⟨rows, member, rows', member', sameId, a, own, named, released⟩ :=
      released
    refine ⟨rows, member, ?_⟩
    rw [← named]
    exact withdraws [Deployment.cancel 200003 5] (by simp [Action.Withdraws,
      Deployment.cancel, Deployment.input]) rows member rows' member' sameId a
      own released

end Dispatch
end Scrum4Me
