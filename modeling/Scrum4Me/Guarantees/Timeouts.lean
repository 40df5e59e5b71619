import Scrum4Me.Guarantees.WholeMachine

/-!
# Reservations time out

A reservation that nobody claims is given up at its deadline, and its request is served
again. That a request was claimed before does not matter to the transactions that reserve
and claim, given retry authority; it does to the one that gives a reservation up.
-/

namespace Scrum4Me
namespace Dispatch

open Foundation

variable {env : Env} {store : Store} {rows : RequestRows} {c : CandidateRow}

/-! ## Lapsed reservations -/

/-- A reservation past its deadline that nobody claimed. -/
structure RequestRows.Lapsed (env : Env) (rows : RequestRows) (c : CandidateRow) : Prop where
  reserved : rows.request.state = .reserved
  member : c ∈ rows.candidates
  newest : c.generation = rows.request.generation
  waits : c.state = .reserved
  unattempted : ∀ a ∈ rows.attempts, a.candidateId ≠ c.id
  overdue : c.deadline ≤ env.now
  queued : jobStillQueued rows c.jobId

/-- The pools that `reserveRequest` chooses from. -/
def RequestRows.pools (env : Env) (store : Store) (rows : RequestRows) : List EligiblePool :=
  let r := rows.request
  let capacity := loadRegisteredCapacity env store r
  let cooldown := rows.coolingDown env
  (eligibleExecutors r capacity.profiles capacity.slots env.clock).filter fun pool =>
    !cooldown.contains (pool.profileRevisionId, pool.route) && (capacity.profiles.any fun profile =>
        profile.id == pool.profileRevisionId &&
          (env.jobModel r.input profile.config.runtime).isSome)

/-- What a reservation writes. -/
structure Offer where
  pool : EligiblePool
  slotId : Uuid
  profile : ProfileRow
  slot : RegisteredSlot
  model : String

/-- The environment offers the request a slot: all that `reserveRequest` asks for, retry
authority apart. -/
structure Offer.For (offer : Offer) (env : Env) (store : Store) (rows : RequestRows) :
    Prop where
  enabled : env.enabled = true
  listed : rows.request.productId ∈ env.productAllowlist
  unlocked : env.requestLocked rows.request.id = false
  prepared : rows.request.sourcesReadyAt ≠ none
  authorized : authorizeReservation env rows.request = .ok ()
  selected : selectSlot? env (rows.pools env store) = some (offer.pool, offer.slotId)
  profile : ((loadRegisteredCapacity env store rows.request).profiles.find? fun profile =>
    profile.id = offer.pool.profileRevisionId) = some offer.profile
  slot : ((loadRegisteredCapacity env store rows.request).slots.find? fun slot =>
    slot.id = offer.slotId) = some offer.slot
  model : env.jobModel rows.request.input offer.profile.config.runtime = some offer.model
  fresh : ∀ row ∈ rows.candidates, row.id ≠ env.uuid .candidate rows.candidates.length

/-- The rows with the reservation that was offered. -/
def Offer.accepted (offer : Offer) (env : Env) (rows : RequestRows) : RequestRows :=
  writeReservation env rows offer.pool.route offer.profile offer.slot offer.model

/-- The supervisor may claim the candidate: all that the claim loop asks for, retry
authority apart. -/
structure Takes
    (env : Env) (store : Store) (actor : Actor) (i : IncarnationRow)
    (rows : RequestRows) (c : CandidateRow) : Prop where
  unlocked : env.requestLocked rows.request.id = false
  task : env.lockManagedTask rows.request = .ok ()
  host : c.route = .host → c.incarnationId = some i.id ∧ c.reservedSlotId = i.slotId
  supervisor : env.authorizeDispatch actor rows.request.input .claim = .ok ()
  requester : env.authorizeDispatch (requestActor rows.request) rows.request.input .claim = .ok ()
  claimable : ClaimableBy env store actor i rows c
  keyed : env.hasKey env.keyVersion = true

/-- The request can be reserved, and the reservation claimed. -/
def RequestRows.Served (rows : RequestRows) : Prop :=
  ∀ env store offer, Offer.For offer env store rows →
    reserveRequest env store rows = .ok (offer.accepted env rows) ∧
      (offer.accepted env rows).request.state = .reserved ∧
      ∀ env' store' actor (session : IncarnationRow × SlotRow) claimKey,
        ∀ c ∈ (offer.accepted env rows).candidates,
          c.id = env.uuid .candidate rows.candidates.length →
          Takes env' store' actor session.1 (offer.accepted env rows) c →
          ∃ claimed locked, claimCandidate env' store' actor session claimKey
            (offer.accepted env rows) c.id = .ok (some (claimed, locked)) ∧
            claimed.request.state = .claimed

/-- The reservation is given up, and its request is served again. -/
structure RequestRows.TimesOut (env : Env) (rows : RequestRows) (c : CandidateRow) : Prop where
  retired : (retireExpiredCandidate env rows).2 = true
  waiting : (retireExpiredCandidate env rows).1.request.state = .waiting
  candidate : ∀ row ∈ (retireExpiredCandidate env rows).1.candidates,
    row.id = c.id → row.state = .retired
  released : ∀ row ∈ (retireExpiredCandidate env rows).1.reservations,
    row.candidateId = c.id → row.releasedAt ≠ none
  cancelled : ∀ id ∈ c.jobId, ∀ row ∈ (retireExpiredCandidate env rows).1.jobs,
    row.id = id → row.status = .cancelled
  served : (retireExpiredCandidate env rows).1.Served

/-! ## Claiming -/

/-- What the claim loop returns for a candidate that it takes. -/
def claimOf (env : Env) (rows : RequestRows) (c : CandidateRow) (session : IncarnationRow × SlotRow)
    (claimKey : String) : RequestRows × Locked :=
  let claimed := writeClaim env rows c session.1 claimKey
  (claimed,
    { r := claimed.request
      c :=
        { c with
          reservedSlotId := session.1.slotId
          incarnationId := some session.1.id
          state := .claimed }
      a := claimedAttempt env rows c session.1 claimKey
      i := session.1
      s := session.2 })

/-- The claim loop takes a candidate that it may take. -/
theorem claimCandidate_takes
    {actor : Actor} {session : IncarnationRow × SlotRow} {claimKey : String}
    (reserved : rows.request.state = .reserved) (authority : rows.request.firstClaimedAt ≠ none →
      ∃ authorization, assertRetryAuthorization rows = .ok authorization)
    (found : rows.candidate? c.id = some c) (waits : c.state = .reserved)
    (newest : c.generation = rows.request.generation)
    (unclaimed : c.firstClaimedAt = none) (positive : 1 ≤ c.generation)
    (takes : Takes env store actor session.1 rows c) :
    claimCandidate env store actor session claimKey rows c.id =
      .ok (some (claimOf env rows c session claimKey)) := by
  unfold claimCandidate
  extract_lets r i retryRefused
  have open' : ¬ (r.state ≠ .reserved ∨ env.requestLocked r.id = true ∨
      r.firstClaimedAt ≠ none ∧ retryRefused = true) := by
    rintro (other | locked | ⟨claimed, refused⟩)
    · exact other reserved
    · exact absurd (locked.symm.trans takes.unlocked) (by decide)
    · obtain ⟨authorization, granted⟩ := authority claimed
      simp only [retryRefused, granted, Bool.false_eq_true] at refused
  have held : ¬ (c.state ≠ .reserved ∨ c.generation ≠ r.generation ∨ c.firstClaimedAt ≠ none ∨
      c.route = .host ∧ (c.incarnationId ≠ some i.id ∨ c.reservedSlotId ≠ i.slotId)) := by
    rintro (other | other | other | ⟨host, other⟩)
    · exact other waits
    · exact other newest
    · exact other unclaimed
    · obtain ⟨own, slot⟩ := takes.host host
      exact other.elim (fun differ => differ own) fun differ => differ slot
  have signed : env.hasKey env.keyVersion = true ∧ 1 ≤ c.generation := ⟨takes.keyed, positive⟩
  rw [if_neg open']
  simp only [bind_eq_ok, answered_eq_ok]
  refine ⟨(), takes.task, ?_⟩
  rw [found]
  dsimp only
  rw [if_neg held]
  simp only [bind_eq_ok, answered_eq_ok]
  refine ⟨(), takes.supervisor, (), takes.requester, ?_⟩
  rw [if_pos takes.claimable]
  simp only [bind_eq_ok, ensure_eq_ok, pure_eq_ok]
  exact ⟨(), signed, rfl⟩

/-! ## Serving a request that was never claimed -/

theorem mem_accepted {offer : Offer}
    (fresh : ∀ row ∈ rows.candidates, row.id ≠ env.uuid .candidate rows.candidates.length)
    (member : c ∈ (offer.accepted env rows).candidates)
    (new : c.id = env.uuid .candidate rows.candidates.length) :
    (offer.accepted env rows).candidate? c.id = some c ∧ c.state = .reserved ∧
      c.generation = (offer.accepted env rows).request.generation ∧
      c.firstClaimedAt = none ∧ 1 ≤ c.generation := by
  have split : (offer.accepted env rows).candidates = rows.candidates ++ [c] ∧
      c.state = .reserved ∧ c.generation = rows.request.generation + 1 ∧
      c.firstClaimedAt = none := by
    rcases List.mem_append.mp member with old | own
    · exact absurd new (fresh c old)
    · rw [List.mem_singleton] at own
      refine ⟨?_, ?_, ?_, ?_⟩
      · rw [own]
        rfl
      all_goals rw [own]
  refine ⟨?_, split.2.1, split.2.2.1, split.2.2.2, by rw [split.2.2.1]; omega⟩
  unfold RequestRows.candidate?
  rw [split.1, List.find?_append]
  have missed : rows.candidates.find? (fun row => row.id = c.id) = none :=
    List.find?_eq_none.mpr fun row old => by
      rw [new]
      simpa using fresh row old
  rw [missed]
  simp

/-- Without an earlier claim nobody asks for retry authority. -/
theorem served_of_unclaimed (waiting : rows.request.state = .waiting)
    (unclaimed : rows.request.firstClaimedAt = none) : rows.Served := by
  intro env store offer offered
  refine ⟨?_, rfl, ?_⟩
  · have open' : ¬ (env.enabled = false ∨ rows.request.state ≠ .waiting ∨
        rows.request.productId ∉ env.productAllowlist ∨
        env.requestLocked rows.request.id = true ∨ rows.request.sourcesReadyAt = none) := by
      simp [offered.enabled, waiting, offered.listed, offered.unlocked, offered.prepared]
    unfold reserveRequest
    simp only [open', if_false, unclaimed, ne_eq, not_true_eq_false]
    unfold reserveRequest.reserveAuthorized
    have selected := offered.selected
    simp only [RequestRows.pools, List.contains_eq_mem, ← decide_not] at selected
    simp only [offered.authorized, selected, offered.profile, offered.slot, require,
      bind_eq_ok, pure_eq_ok]
    exact ⟨offer.profile, rfl, offer.slot, rfl, offer.model, by rw [offered.model], rfl⟩
  · intro env' store' actor session claimKey c member new takes
    obtain ⟨found, state, generation, never, positive⟩ := mem_accepted offered.fresh member new
    have never' : (offer.accepted env rows).request.firstClaimedAt = none := unclaimed
    exact ⟨_, _, claimCandidate_takes rfl (fun claimed => absurd never' claimed) found state
      generation never positive takes, rfl⟩

/-! ## Giving a reservation up -/

/-- A request has one candidate of its generation. -/
theorem Store.Sound.newest_unique {other : CandidateRow} (sound : store.Sound)
    (member : rows ∈ store.requests) (own : c ∈ rows.candidates)
    (ownOther : other ∈ rows.candidates) (same : other.generation = c.generation) :
    other = c := by
  obtain ⟨past, current, consistent⟩ := sound.consistent rows member
  have flat := consistent.history.flat
  have generations : rows.candidates.map CandidateRow.generation =
      List.range' 1 rows.request.generation := by
    have columns := congrArg (List.map CandidateLife.generation) flat.candidates
    rw [List.map_map, show CandidateLife.generation ∘ Episode.candidate =
      fun e => e.candidate.generation from rfl, flat.generations] at columns
    simpa [lifeOf, Function.comp_def, CandidateRow.life] using columns
  refine List.inj_on_of_nodup_map ?_ ownOther own same
  rw [generations]
  exact List.nodup_range' ..

/-- A candidate without an attempt was never claimed. -/
theorem Store.Sound.unclaimed (sound : store.Sound) (member : rows ∈ store.requests)
    (own : c ∈ rows.candidates) (unattempted : ∀ a ∈ rows.attempts, a.candidateId ≠ c.id) :
    c.firstClaimedAt = none := by
  obtain ⟨past, current, consistent⟩ := sound.consistent rows member
  have flat := consistent.history.flat
  obtain ⟨e, inside, same⟩ := flat.mem_candidates.mp (List.mem_map_of_mem own)
  have linked := flat.linked e inside
  have noAttempt : e.attempt = none := by
    cases attempt : e.attempt with
    | none => rfl
    | some a =>
      obtain ⟨row, inRows, rfl⟩ := List.mem_map.mp (flat.mem_attempts.mpr ⟨e, inside, attempt⟩)
      have ofOwn := linked.attempt _ attempt
      rw [same] at ofOwn
      exact absurd ofOwn (unattempted row inRows)
  have claimed := linked.claimed
  rw [same, noAttempt] at claimed
  simpa [CandidateRow.life] using claimed

/-- The transaction gives the lapsed reservation of an unclaimed request up. -/
theorem retire_lapsed (sound : store.Sound) (member : rows ∈ store.requests)
    (lapsed : rows.Lapsed env c) (unclaimed : rows.request.firstClaimedAt = none) :
    retireExpiredCandidate env rows = (writeRetirement env rows c, true) := by
  have found : (rows.candidates.find? fun row =>
      row.generation = rows.request.generation ∧ row.state = .reserved ∧
        row.deadline ≤ env.now) = some c := by
    cases search : rows.candidates.find? fun row =>
        row.generation = rows.request.generation ∧ row.state = .reserved ∧
          row.deadline ≤ env.now with
    | none =>
      have missed := List.find?_eq_none.mp search c lapsed.member
      exact absurd (decide_eq_true ⟨lapsed.newest, lapsed.waits, lapsed.overdue⟩) missed
    | some other =>
      have criteria := List.find?_some search
      have matched := of_decide_eq_true criteria
      rw [sound.newest_unique member lapsed.member (List.mem_of_find?_eq_some search)
        (matched.1.trans lapsed.newest.symm)]
  have never := sound.unclaimed member lapsed.member lapsed.unattempted
  unfold retireExpiredCandidate
  simp only [lapsed.reserved, unclaimed, ne_eq, not_true_eq_false, or_self, if_false, found,
    never, lapsed.queued]

/-- What the retirement writes. -/
theorem writeRetirement_writes (env : Env) (rows : RequestRows) (c : CandidateRow) :
    (writeRetirement env rows c).request.state = .waiting ∧
      (writeRetirement env rows c).request.firstClaimedAt = rows.request.firstClaimedAt ∧
      (writeRetirement env rows c).candidates = updateWhere (fun row => row.id = c.id)
          (fun row => { row with state := .retired }) rows.candidates ∧
      (writeRetirement env rows c).reservations =
        updateWhere (fun row => row.candidateId = c.id ∧ row.releasedAt = none)
          (fun row => { row with releasedAt := some env.now }) rows.reservations ∧
      ∀ id ∈ c.jobId, (writeRetirement env rows c).jobs = updateWhere (fun row => row.id = id)
          (fun row => { row with status := .cancelled, finishedAt := some env.now }) rows.jobs := by
  unfold writeRetirement closeUnclaimed RequestRows.updateJobOf
  cases c.jobId with
  | none => exact ⟨rfl, rfl, rfl, rfl, fun _ absent => absurd absent (by simp)⟩
  | some id =>
    refine ⟨rfl, rfl, rfl, rfl, ?_⟩
    rintro _ ⟨⟩
    rfl

/-- A lapsed reservation times out exactly when its request was never claimed. -/
theorem reservation_times_out (reachable : Reachable store) (member : rows ∈ store.requests)
    (lapsed : rows.Lapsed env c) :
    rows.TimesOut env c ↔ rows.request.firstClaimedAt = none := by
  constructor
  · intro timesOut
    by_contra claimed
    have kept : retireExpiredCandidate env rows = (rows, false) := if_pos (.inr claimed)
    have retired := timesOut.retired
    rw [kept] at retired
    exact Bool.false_ne_true retired
  · intro unclaimed
    have gives := retire_lapsed reachable.sound member lapsed unclaimed
    obtain ⟨waiting, kept, candidates, reservations, jobs⟩ := writeRetirement_writes env rows c
    constructor
    · rw [gives]
    · rw [gives]
      exact waiting
    · rw [gives, candidates]
      intro row written same
      rcases mem_updateWhere.mp written with ⟨old, _, _, rfl⟩ | ⟨_, missed⟩
      · rfl
      · exact absurd same (of_decide_eq_false missed)
    · rw [gives, reservations]
      intro row written same
      rcases mem_updateWhere.mp written with ⟨old, _, _, rfl⟩ | ⟨_, missed⟩
      · simp
      · exact fun isOpen => of_decide_eq_false missed ⟨same, isOpen⟩
    · rw [gives]
      intro id own row written same
      rw [jobs id own] at written
      rcases mem_updateWhere.mp written with ⟨old, _, _, rfl⟩ | ⟨_, missed⟩
      · rfl
      · exact absurd same (of_decide_eq_false missed)
    · rw [gives]
      exact served_of_unclaimed waiting (kept.trans unclaimed)

namespace Deployment

/-- The only request is reserved, and nobody claims it. -/
def unclaimed : List Input := submitted ++ [input 6 (.reserve 400)]

/-- The retry of the first attempt is reserved, and nobody claims it. -/
def unclaimedRetry : List Input :=
  stopped ++ [retry,
      input 200004 (.heartbeat owner 300 session false),
      input 200005 (.reserve 400)]

end Deployment

/-- The first reservation of a request times out. -/
theorem reservation_times_out_first :
    ∃ rows ∈ (after Deployment.unclaimed).requests, ∃ c ∈ rows.candidates,
      rows.TimesOut (Deployment.env 120006) c := by
  have lapsed : ∃ rows ∈ (after Deployment.unclaimed).requests, ∃ c ∈ rows.candidates,
      rows.request.state = .reserved ∧ c.generation = rows.request.generation ∧
        c.state = .reserved ∧ (∀ a ∈ rows.attempts, a.candidateId ≠ c.id) ∧
        c.deadline ≤ 120006 ∧ jobStillQueued rows c.jobId ∧
        rows.request.firstClaimedAt = none := by
    decide +kernel
  obtain ⟨rows, member, c, own, reserved, newest, waits, unattempted, overdue, queued, never⟩ :=
    lapsed
  exact ⟨rows, member, c, own,
    (reservation_times_out (reachable_after _) member
      ⟨reserved, own, newest, waits, unattempted, overdue, queued⟩).2 never⟩

/-- The reservation of a retry never times out. -/
theorem retry_never_times_out :
    ∃ rows ∈ (after Deployment.unclaimedRetry).requests, ∃ c ∈ rows.candidates,
      rows.Lapsed (Deployment.env 320005) c ∧
        ∀ env : Env, retireExpiredCandidate env rows = (rows, false) := by
  have lapsed : ∃ rows ∈ (after Deployment.unclaimedRetry).requests, ∃ c ∈ rows.candidates,
      rows.request.state = .reserved ∧ c.generation = rows.request.generation ∧
        c.state = .reserved ∧ (∀ a ∈ rows.attempts, a.candidateId ≠ c.id) ∧
        c.deadline ≤ 320005 ∧ jobStillQueued rows c.jobId ∧
        rows.request.firstClaimedAt ≠ none := by
    decide +kernel
  obtain ⟨rows, member, c, own, reserved, newest, waits, unattempted, overdue, queued, claimed⟩ :=
    lapsed
  exact ⟨rows, member, c, own, ⟨reserved, own, newest, waits, unattempted, overdue, queued⟩,
    fun _ => if_pos (.inr claimed)⟩

end Dispatch
end Scrum4Me
