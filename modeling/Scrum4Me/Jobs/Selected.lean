import Scrum4Me.Jobs.Executors
import Mathlib.Algebra.Order.Field.Basic

/-!
# What is selected

A pool stands for the free slots of one route that may execute a job of one profile.
Which pools there are, what they hold and in which order they come depends on the
profiles and the slots as sets.
-/

namespace Scrum4Me
namespace Jobs

open Foundation

variable {request : Dispatch.RequestRow} {profiles : List Dispatch.ProfileRow}
  {slots : List RegisteredSlot} {now : Milliseconds} {profile : Dispatch.ProfileRow}
  {route : Dispatch.Route} {s : RegisteredSlot} {pool : EligiblePool}

/-! ## What a slot must be -/

namespace RegisteredSlot

/-- The slot is enabled, its incarnation is open and was seen lately, on the job route
its worker too, and it runs as configured. -/
structure Live (s : RegisteredSlot) (route : Dispatch.Route) (now : Milliseconds) : Prop where
  enabled : s.enabled = true
  registered : s.incarnationId ≠ none
  signedOn : s.signedOffAt = none
  seen : ∃ moment ∈ s.lastSeenAt, now - moment < if route = .job then 30000 else 45000
  worker : route = .job → ∃ moment ∈ s.workerSeenAt, now - moment < 30000
  runtime : s.currentRuntime = some s.config.runtime.text

/-- Bound by the registration of the slot and by its incarnation. -/
structure BoundTo (s : RegisteredSlot) (profileId : Uuid) : Prop where
  registration : profileId ∈ s.profileRevisionIds
  incarnation : profileId ∈ s.incarnationProfileIds

/-- Accepted by all claim predicates, as frozen and as current. -/
structure Accepts (s : RegisteredSlot) (job : ClaimJob) : Prop where
  frozen : ∀ name : ClaimPredicate, name.Holds job s.frozen
  current : ∀ name : ClaimPredicate, name.Holds job s.current

/-- The slot may take the request over this route under this profile. -/
structure Takes
    (s : RegisteredSlot) (request : Dispatch.RequestRow) (profile : Dispatch.ProfileRow)
    (route : Dispatch.Route)
    (now : Milliseconds) : Prop where
  kind : s.kind = route
  live : s.Live route now
  bound : s.BoundTo profile.id
  accepts : s.Accepts
    (requestJob request.input request.userId profile.config.runtime profile.id request.id)

/-- Nothing occupies the slot. -/
structure Free (s : RegisteredSlot) : Prop where
  idle : s.busy = false
  unreserved : s.openReservation = false
  jobless : s.liveJob = false
  unclaimed : s.ordinaryRequestClaim = false

theorem free_iff : s.free = true ↔ s.Free := by
  simp only [free, Bool.and_eq_true, Bool.not_eq_true']
  constructor
  · rintro ⟨⟨⟨idle, unreserved⟩, jobless⟩, unclaimed⟩
    exact ⟨idle, unreserved, jobless, unclaimed⟩
  · rintro ⟨idle, unreserved, jobless, unclaimed⟩
    exact ⟨⟨⟨idle, unreserved⟩, jobless⟩, unclaimed⟩

theorem seenWithin_iff {seen : Option Milliseconds} {limit : Milliseconds} :
    seenWithin seen now limit = true ↔ ∃ moment ∈ seen, now - moment < limit := by
  cases seen <;> simp [seenWithin]

theorem suits_iff :
    s.suits route profile.id
        (requestJob request.input request.userId profile.config.runtime profile.id
          request.id) now = true ↔ s.Takes request profile route now := by
  simp only [suits, Bool.and_eq_true, Bool.or_eq_true, decide_eq_true_eq,
    List.contains_iff_mem, seenWithin_iff, List.isEmpty_iff, evaluateClaimPredicates_nil,
    Option.isSome_iff_ne_none, Option.isNone_iff_eq_none, ne_eq, ← imp_iff_not_or]
  constructor
  · rintro ⟨⟨⟨⟨⟨⟨⟨⟨⟨⟨kind, enabled⟩, registered⟩, signedOn⟩, registration⟩, incarnation⟩,
      seen⟩, worker⟩, runtime⟩, frozen⟩, current⟩
    exact ⟨kind, ⟨enabled, registered, signedOn, seen, worker, runtime⟩,
      ⟨registration, incarnation⟩, ⟨frozen, current⟩⟩
  · rintro ⟨kind, ⟨enabled, registered, signedOn, seen, worker, runtime⟩,
      ⟨registration, incarnation⟩, ⟨frozen, current⟩⟩
    exact ⟨⟨⟨⟨⟨⟨⟨⟨⟨⟨kind, enabled⟩, registered⟩, signedOn⟩, registration⟩, incarnation⟩,
      seen⟩, worker⟩, runtime⟩, frozen⟩, current⟩

end RegisteredSlot

/-! ## The suitable slots -/

/-- Slots with distinct ids are left as they are. -/
theorem byId_eq (distinct : (slots.map RegisteredSlot.id).Nodup) : byId slots = slots := by
  have added : ∀ kept rest : List RegisteredSlot, ((kept ++ rest).map RegisteredSlot.id).Nodup →
      rest.foldl (fun kept s =>
        if kept.any fun other => other.id == s.id then
          updateWhere (fun other => other.id == s.id) (fun _ => s) kept
        else
          kept ++ [s]) kept = kept ++ rest := by
    intro kept rest
    induction rest generalizing kept with
    | nil => simp
    | cons s rest ih =>
      intro distinct
      have new : (kept.any fun other => other.id == s.id) = false := by
        rw [List.any_eq_false]
        intro other member same
        rw [List.map_append, List.nodup_append] at distinct
        exact distinct.2.2 _ (List.mem_map_of_mem member) _
          (List.mem_map_of_mem List.mem_cons_self) (eq_of_beq same)
      rw [List.foldl_cons, new, if_neg Bool.false_ne_true,
        ih _ (by simpa using distinct), List.append_assoc,
        List.singleton_append]
  exact added [] slots distinct

theorem suitableSlots_eq (distinct : (slots.map RegisteredSlot.id).Nodup) :
    suitableSlots request slots now profile route = slots.filter fun s => s.suits route profile.id
        (requestJob request.input request.userId profile.config.runtime profile.id
          request.id) now :=
  byId_eq (distinct.sublist (List.filter_sublist.map _))

theorem mem_suitableSlots (distinct : (slots.map RegisteredSlot.id).Nodup) :
    s ∈ suitableSlots request slots now profile route ↔
      s ∈ slots ∧ s.Takes request profile route now := by
  rw [suitableSlots_eq distinct, List.mem_filter, RegisteredSlot.suits_iff]

theorem suitableSlots_distinct (distinct : (slots.map RegisteredSlot.id).Nodup) :
    ((suitableSlots request slots now profile route).map RegisteredSlot.id).Nodup := by
  rw [suitableSlots_eq distinct]
  exact distinct.sublist (List.filter_sublist.map _)

/-- The free slots among the suitable ones. -/
def freeSlots (request : Dispatch.RequestRow) (slots : List RegisteredSlot) (now : Milliseconds)
    (profile : Dispatch.ProfileRow)
    (route : Dispatch.Route) : List RegisteredSlot :=
  (suitableSlots request slots now profile route).filter RegisteredSlot.free

theorem mem_freeSlots (distinct : (slots.map RegisteredSlot.id).Nodup) :
    s ∈ freeSlots request slots now profile route ↔
      s ∈ slots ∧ s.Takes request profile route now ∧ s.Free := by
  rw [freeSlots, List.mem_filter, mem_suitableSlots distinct, RegisteredSlot.free_iff, and_assoc]

theorem freeSlots_distinct (distinct : (slots.map RegisteredSlot.id).Nodup) :
    ((freeSlots request slots now profile route).map RegisteredSlot.id).Nodup :=
  (suitableSlots_distinct distinct).sublist (List.filter_sublist.map _)

theorem freeSlots_ranks (distinct : (slots.map RegisteredSlot.id).Nodup) :
    ((freeSlots request slots now profile route).map RegisteredSlot.rank).Nodup := by
  apply List.Nodup.of_map fun rank => (ofLex rank).2
  rw [List.map_map]
  exact freeSlots_distinct distinct

/-! ## One pool -/

theorem eligiblePool?_eq_some :
    eligiblePool? request slots now profile route = some pool ↔
      freeSlots request slots now profile route ≠ [] ∧ pool =
          { route := route
            profileRevisionId := profile.id
            slotIds := (oldestFirst RegisteredSlot.rank
              (freeSlots request slots now profile route)).map RegisteredSlot.id
            loadRatio :=
              (((suitableSlots request slots now profile route).length : ℚ) -
                (freeSlots request slots now profile route).length) /
                  (suitableSlots request slots now profile route).length
            lastReservedAt := ((suitableSlots request slots now profile route).map
              fun s => s.lastReservedAt.getD 0).foldl max 0 } := by
  rw [eligiblePool?, freeSlots]
  split
  · rename_i empty
    simp [List.isEmpty_iff.mp empty]
  · rename_i found
    rw [Option.some.injEq, List.isEmpty_iff] at *
    exact ⟨fun same => ⟨found, same.symm⟩, fun both => both.2.symm⟩

/-- A pool comes of its profile and its route. -/
theorem identity_of_eligiblePool?
    (found : eligiblePool? request slots now profile route = some pool) :
    pool.route = route ∧ pool.profileRevisionId = profile.id := by
  obtain ⟨_, rfl⟩ := eligiblePool?_eq_some.mp found
  exact ⟨rfl, rfl⟩

/-- There is a pool exactly if some slot may take the request and is free. -/
theorem eligiblePool?_isSome (distinct : (slots.map RegisteredSlot.id).Nodup) :
    (∃ pool, eligiblePool? request slots now profile route = some pool) ↔
      ∃ s ∈ slots, s.Takes request profile route now ∧ s.Free := by
  simp only [eligiblePool?_eq_some, exists_and_left, exists_eq, and_true]
  rw [← List.length_pos_iff, List.length_pos_iff_exists_mem]
  simp only [mem_freeSlots distinct]

/-- The load of a pool: a free slot is not occupied. -/
theorem loadRatio_bounds (found : eligiblePool? request slots now profile route = some pool) :
    0 ≤ pool.loadRatio ∧ pool.loadRatio < 1 := by
  obtain ⟨some, rfl⟩ := eligiblePool?_eq_some.mp found
  have free : 0 < (freeSlots request slots now profile route).length := List.length_pos_iff.mpr some
  have fewer : (freeSlots request slots now profile route).length ≤
      (suitableSlots request slots now profile route).length := List.length_filter_le _ _
  have suitable : (0 : ℚ) < (suitableSlots request slots now profile route).length :=
    Nat.cast_pos.mpr (Nat.lt_of_lt_of_le free fewer)
  have fewer' : ((freeSlots request slots now profile route).length : ℚ) ≤
      (suitableSlots request slots now profile route).length := Nat.cast_le.mpr fewer
  have free' : (0 : ℚ) < (freeSlots request slots now profile route).length := Nat.cast_pos.mpr free
  dsimp only
  constructor
  · exact div_nonneg (sub_nonneg.mpr fewer') suitable.le
  · exact (div_lt_one suitable).mpr (sub_lt_self _ free')

/-- The slots of a pool, by tier and id. -/
theorem slotIds_spec (distinct : (slots.map RegisteredSlot.id).Nodup)
    (found : eligiblePool? request slots now profile route = some pool) :
    pool.slotIds.Nodup ∧ (∀ id, id ∈ pool.slotIds ↔
        ∃ s ∈ slots, s.id = id ∧ s.Takes request profile route now ∧ s.Free) ∧
      ∃ chosen : List RegisteredSlot, pool.slotIds = chosen.map RegisteredSlot.id ∧
        (∀ s ∈ chosen, s ∈ slots) ∧ chosen.Pairwise fun first second =>
          Dispatch.tierPriority second.config.tier < Dispatch.tierPriority first.config.tier ∨
            Dispatch.tierPriority second.config.tier = Dispatch.tierPriority first.config.tier ∧
              first.id < second.id := by
  obtain ⟨_, rfl⟩ := eligiblePool?_eq_some.mp found
  dsimp only
  have sorted : List.Perm
      (oldestFirst RegisteredSlot.rank (freeSlots request slots now profile route))
      (freeSlots request slots now profile route) := perm_oldestFirst
  refine ⟨(sorted.map _).nodup_iff.mpr (freeSlots_distinct distinct), fun id => ?_,
    _, rfl, fun s member => ?_, ?_⟩
  · simp only [List.mem_map, mem_oldestFirst, mem_freeSlots distinct]
    constructor
    · rintro ⟨s, ⟨member, takes⟩, rfl⟩
      exact ⟨s, member, rfl, takes⟩
    · rintro ⟨s, member, rfl, takes⟩
      exact ⟨s, ⟨member, takes⟩, rfl⟩
  · exact ((mem_freeSlots distinct).mp (mem_oldestFirst.mp member)).1
  · refine (pairwise_lt_oldestFirst (freeSlots_ranks distinct)).imp fun before => ?_
    rename_i first second
    have bounded : ∀ tier : Option Tier, Dispatch.tierPriority tier ≤ 3 := by
      intro tier
      rcases tier with _ | tier
      · decide
      · cases tier <;> decide
    have firstTier := bounded first.config.tier
    have secondTier := bounded second.config.tier
    rcases Prod.Lex.toLex_lt_toLex.mp before with higher | ⟨same, earlier⟩
    · exact .inl (by omega)
    · exact .inr ⟨by omega, earlier⟩

/-! ## All pools -/

/-- The pools before they are sorted. -/
def gatheredPools (request : Dispatch.RequestRow) (profiles : List Dispatch.ProfileRow)
    (slots : List RegisteredSlot)
    (now : Milliseconds) : List EligiblePool :=
  (profiles.filter fun profile => profile.Admits request).flatMap fun profile =>
    [Dispatch.Route.job, .host].filterMap (eligiblePool? request slots now profile)

theorem eligibleExecutors_eq :
    eligibleExecutors request profiles slots now =
      oldestFirst EligiblePool.rank (gatheredPools request profiles slots now) := rfl

theorem mem_eligibleExecutors :
    pool ∈ eligibleExecutors request profiles slots now ↔
      ∃ profile ∈ profiles, profile.Admits request ∧
        ∃ route, eligiblePool? request slots now profile route = some pool := by
  rw [eligibleExecutors_eq, mem_oldestFirst, gatheredPools]
  simp only [List.mem_flatMap, List.mem_filter, decide_eq_true_eq, List.mem_filterMap]
  constructor
  · rintro ⟨profile, ⟨member, admits⟩, route, _, found⟩
    exact ⟨profile, member, admits, route, found⟩
  · rintro ⟨profile, member, admits, route, found⟩
    refine ⟨profile, ⟨member, admits⟩, route, ?_, found⟩
    cases route <;> simp

/-- One pool for each profile and route. -/
theorem gatheredPools_once (distinct : (profiles.map Dispatch.ProfileRow.id).Nodup) :
    (gatheredPools request profiles slots now).Pairwise fun first second =>
      ¬ (first.route = second.route ∧
        first.profileRevisionId = second.profileRevisionId) := by
  rw [gatheredPools, List.pairwise_flatMap]
  constructor
  · intro profile _
    have routes : [Dispatch.Route.job, .host].Pairwise fun first second =>
        first ≠ second := by simp
    refine routes.filterMap _ fun first second apart pool found pool' found' same => ?_
    rw [(identity_of_eligiblePool? found).1, (identity_of_eligiblePool? found').1] at same
    exact apart same.1
  · have ids : (profiles.filter fun profile => profile.Admits request).Pairwise
        fun first second => first.id ≠ second.id :=
      List.pairwise_map.mp (distinct.sublist (List.filter_sublist.map _))
    refine ids.imp fun apart pool member pool' member' same => ?_
    obtain ⟨_, _, found⟩ := List.mem_filterMap.mp member
    obtain ⟨_, _, found'⟩ := List.mem_filterMap.mp member'
    rw [(identity_of_eligiblePool? found).2, (identity_of_eligiblePool? found').2] at same
    exact apart same.2

variable {other : EligiblePool}

theorem rank_route (same : pool.rank = other.rank) :
    pool.route = other.route ∧ pool.profileRevisionId = other.profileRevisionId := by
  obtain ⟨route, rest⟩ := Prod.mk.inj (toLex_inj.mp same)
  obtain ⟨_, rest⟩ := Prod.mk.inj (toLex_inj.mp rest)
  obtain ⟨_, rest⟩ := Prod.mk.inj (toLex_inj.mp rest)
  obtain ⟨profile, _⟩ := Prod.mk.inj (toLex_inj.mp rest)
  refine ⟨?_, profile⟩
  revert route
  cases pool.route <;> cases other.route <;> simp

theorem gatheredPools_ranks (distinct : (profiles.map Dispatch.ProfileRow.id).Nodup) :
    ((gatheredPools request profiles slots now).map EligiblePool.rank).Nodup :=
  List.pairwise_map.mpr ((gatheredPools_once distinct).imp fun apart same =>
    apart (rank_route same))

/-! ## Any order of the rows -/

section Permuted

variable {profiles' : List Dispatch.ProfileRow} {slots' : List RegisteredSlot}

theorem suitableSlots_perm
    (distinct : (slots.map RegisteredSlot.id).Nodup) (same : List.Perm slots slots') :
    List.Perm (suitableSlots request slots now profile route)
      (suitableSlots request slots' now profile route) := by
  rw [suitableSlots_eq distinct,
    suitableSlots_eq ((same.map RegisteredSlot.id).nodup_iff.mp distinct)]
  exact same.filter _

theorem freeSlots_perm
    (distinct : (slots.map RegisteredSlot.id).Nodup) (same : List.Perm slots slots') :
    List.Perm (freeSlots request slots now profile route)
      (freeSlots request slots' now profile route) :=
  (suitableSlots_perm distinct same).filter _

theorem eligiblePool?_perm
    (distinct : (slots.map RegisteredSlot.id).Nodup) (same : List.Perm slots slots') :
    eligiblePool? request slots now profile route =
      eligiblePool? request slots' now profile route := by
  have suitable := @suitableSlots_perm request slots now profile route slots' distinct same
  have free := @freeSlots_perm request slots now profile route slots' distinct same
  have sorted := oldestFirst_eq_of_perm (freeSlots_ranks distinct) free
  have latest := (suitable.map fun s => s.lastReservedAt.getD 0).foldl_eq'
    (fun first _ second _ latest => max_right_comm latest first second) 0
  apply Option.ext
  intro pool
  rw [eligiblePool?_eq_some, eligiblePool?_eq_some, sorted, suitable.length_eq,
    free.length_eq, latest]
  exact and_congr_left fun _ => not_congr
    ⟨fun none => List.perm_nil.mp (none ▸ free.symm), fun none => List.perm_nil.mp (none ▸ free)⟩

theorem eligibleExecutors_perm (profilesDistinct : (profiles.map Dispatch.ProfileRow.id).Nodup)
    (slotsDistinct : (slots.map RegisteredSlot.id).Nodup)
    (sameProfiles : List.Perm profiles profiles') (sameSlots : List.Perm slots slots') :
    eligibleExecutors request profiles slots now =
      eligibleExecutors request profiles' slots' now := by
  have pool : eligiblePool? request slots now = eligiblePool? request slots' now := by
    funext profile route
    exact eligiblePool?_perm slotsDistinct sameSlots
  rw [eligibleExecutors_eq, eligibleExecutors_eq]
  apply oldestFirst_eq_of_perm (gatheredPools_ranks profilesDistinct)
  rw [gatheredPools, gatheredPools, pool]
  exact (sameProfiles.filter _).flatMap_right _

end Permuted

/-! ## The selection -/

/-- What the pools are that `eligibleExecutors` returns. -/
structure Selection
    (request : Dispatch.RequestRow) (profiles : List Dispatch.ProfileRow)
    (slots : List RegisteredSlot) (now : Milliseconds)
    (pools : List EligiblePool) : Prop where
  /-- There is a pool exactly where a free slot may take the request. -/
  complete : ∀ route profileId,
    (∃ pool ∈ pools, pool.route = route ∧ pool.profileRevisionId = profileId) ↔
      ∃ profile ∈ profiles, profile.id = profileId ∧ profile.Admits request ∧
        ∃ s ∈ slots, s.Takes request profile route now ∧ s.Free
  once : pools.Pairwise fun first second =>
    ¬ (first.route = second.route ∧ first.profileRevisionId = second.profileRevisionId)
  /-- Exactly the free slots, once each, by tier and id. -/
  slotIds : ∀ pool ∈ pools, ∀ profile ∈ profiles, profile.id = pool.profileRevisionId →
    pool.slotIds.Nodup ∧ (∀ id, id ∈ pool.slotIds ↔
        ∃ s ∈ slots, s.id = id ∧ s.Takes request profile pool.route now ∧ s.Free) ∧
      ∃ chosen : List RegisteredSlot, pool.slotIds = chosen.map RegisteredSlot.id ∧
        (∀ s ∈ chosen, s ∈ slots) ∧
        chosen.Pairwise fun first second =>
          Dispatch.tierPriority second.config.tier < Dispatch.tierPriority first.config.tier ∨
            Dispatch.tierPriority second.config.tier = Dispatch.tierPriority first.config.tier ∧
              first.id < second.id
  load : ∀ pool ∈ pools, 0 ≤ pool.loadRatio ∧ pool.loadRatio < 1
  /-- Job pools come before host pools. -/
  routes : pools.Pairwise fun first second =>
    first.route = second.route ∨ first.route = .job ∧ second.route = .host
  /-- Within a route by load, then least recently reserved. -/
  order : pools.Pairwise fun first second => first.route = second.route →
    first.loadRatio < second.loadRatio ∨
      first.loadRatio = second.loadRatio ∧ first.lastReservedAt ≤ second.lastReservedAt

theorem rank_lt (before : pool.rank < other.rank) :
    (pool.route = other.route ∨ pool.route = .job ∧ other.route = .host) ∧
      (pool.route = other.route → pool.loadRatio < other.loadRatio ∨
          pool.loadRatio = other.loadRatio ∧ pool.lastReservedAt ≤ other.lastReservedAt) := by
  rcases Prod.Lex.toLex_lt_toLex.mp before with earlier | ⟨same, before⟩
  · have apart : pool.route = .job ∧ other.route = .host := by
      revert earlier
      cases pool.route <;> cases other.route <;> simp
    refine ⟨.inr apart, fun same => ?_⟩
    rw [apart.1, apart.2] at same
    exact absurd same (by simp)
  · have same : pool.route = other.route := by
      revert same
      cases pool.route <;> cases other.route <;> simp
    refine ⟨.inl same, fun _ => ?_⟩
    rcases Prod.Lex.toLex_lt_toLex.mp before with lighter | ⟨sameLoad, before⟩
    · exact .inl lighter
    · rcases Prod.Lex.toLex_lt_toLex.mp before with older | ⟨sameTime, _⟩
      · exact .inr ⟨sameLoad, older.le⟩
      · exact .inr ⟨sameLoad, sameTime.le⟩

/-- Selection is sound, complete and independent of the order of the rows. -/
theorem selection_sound_complete
    (request : Dispatch.RequestRow) (profiles : List Dispatch.ProfileRow)
    (slots : List RegisteredSlot) (now : Milliseconds)
    (profilesDistinct : (profiles.map Dispatch.ProfileRow.id).Nodup)
    (slotsDistinct : (slots.map RegisteredSlot.id).Nodup) :
    Selection request profiles slots now (eligibleExecutors request profiles slots now) ∧
      ∀ profiles' slots', List.Perm profiles profiles' → List.Perm slots slots' →
        eligibleExecutors request profiles' slots' now =
          eligibleExecutors request profiles slots now := by
  have sorted := pairwise_lt_oldestFirst
    (@gatheredPools_ranks request profiles slots now profilesDistinct)
  rw [← eligibleExecutors_eq] at sorted
  refine ⟨?_, fun profiles' slots' sameProfiles sameSlots =>
    (eligibleExecutors_perm profilesDistinct slotsDistinct sameProfiles sameSlots).symm⟩
  exact
    { complete := fun route profileId => by
        constructor
        · rintro ⟨pool, member, rfl, rfl⟩
          obtain ⟨profile, known, admits, route, found⟩ := mem_eligibleExecutors.mp member
          obtain ⟨sameRoute, sameProfile⟩ := identity_of_eligiblePool? found
          refine ⟨profile, known, sameProfile.symm, admits, ?_⟩
          rw [sameRoute]
          exact (eligiblePool?_isSome slotsDistinct).mp ⟨pool, found⟩
        · rintro ⟨profile, known, rfl, admits, takes⟩
          obtain ⟨pool, found⟩ := (eligiblePool?_isSome slotsDistinct).mpr takes
          exact ⟨pool, mem_eligibleExecutors.mpr ⟨profile, known, admits, route, found⟩,
            identity_of_eligiblePool? found⟩
      once := (perm_oldestFirst.pairwise_iff fun apart same =>
        apart ⟨same.1.symm, same.2.symm⟩).mpr (gatheredPools_once profilesDistinct)
      slotIds := fun pool member profile known same => by
        obtain ⟨other, isOther, _, route, found⟩ := mem_eligibleExecutors.mp member
        obtain ⟨sameRoute, sameProfile⟩ := identity_of_eligiblePool? found
        obtain rfl := List.inj_on_of_nodup_map profilesDistinct known isOther
          (same.trans sameProfile)
        rw [sameRoute]
        exact slotIds_spec slotsDistinct found
      load := fun pool member => by
        obtain ⟨_, _, _, _, found⟩ := mem_eligibleExecutors.mp member
        exact loadRatio_bounds found
      routes := sorted.imp fun before => (rank_lt before).1
      order := sorted.imp fun before => (rank_lt before).2 }

namespace Selecting

def freeRequest : Dispatch.RequestRow where
  id := 1
  principalKey := "bearer:owner:token"
  idempotencyKey := "first"
  userId := "owner"
  productId := "product"
  authSource := ⟨.bearer, some "token"⟩
  input :=
    { productId := "product"
      action := .freeTask
      taskId := none
      access := .repoWrite
      runtime := none
      environmentKeys := []
      repository := none
      reviewDocuments := []
      publish := .branch
      replyTo := "mac:jp" }
  inputHash := Dispatch.artifactHash (.text "input")
  sourcesReadyAt := some 0
  state := .waiting
  version := 1
  generation := 0
  firstClaimedAt := none
  retryAuthorizationEventId := none
  rootMessageId := 2
  replyMessageId := 3
  resultId := none
  createdAt := 0
  updatedAt := 0

def coder : Dispatch.ProfileRow where
  id := 7
  key := "profile"
  revision := 1
  productId := "product"
  ownerUserId := "owner"
  config :=
    { protocol := "dispatch-v1"
      productIds := ["product"]
      actions := [.freeTask]
      runtime := .codex
      access := .repoWrite
      publishModes := [.branch]
      environmentKeys := []
      repositoryProductIds := []
      imageDigest := "image"
      maxDurationSeconds := 3600 }
  sha256 := "profile"
  revokedAt := none

/-- A worker that was seen just now. -/
def worker (id : Uuid) (busy : Bool) : RegisteredSlot where
  id := id
  kind := .job
  ownerUserId := "owner"
  enabled := true
  config := ⟨.codex, ["product"], ["code_edit"], some .high⟩
  profileRevisionIds := [7]
  incarnationId := some id
  incarnationProfileIds := [7]
  lastSeenAt := some 0
  signedOffAt := none
  busy := busy
  workerSeenAt := some 0
  liveJob := false
  openReservation := false
  ordinaryRequestClaim := false
  quotaPct := none
  minQuotaPct := 0
  lastReservedAt := none
  currentProductIds := ["product"]
  currentCapabilities := ["code_edit"]
  currentRuntime := some "CODEX"

end Selecting

open Selecting in
/-- A free worker beside a busy one is selected, whichever comes first. -/
theorem selection_sound_complete_two :
    (∃ pool ∈ eligibleExecutors freeRequest [coder] [worker 1 true, worker 2 false] 5,
      pool.route = .job ∧ pool.profileRevisionId = 7) ∧
    eligibleExecutors freeRequest [coder] [worker 2 false, worker 1 true] 5 =
      eligibleExecutors freeRequest [coder] [worker 1 true, worker 2 false] 5 := by
  have selected := selection_sound_complete freeRequest [coder]
    [worker 1 true, worker 2 false] 5 (by decide) (by decide)
  have accepts : ∀ name : ClaimPredicate,
      name.Holds (requestJob freeRequest.input freeRequest.userId .codex 7 1)
          (worker 2 false).frozen ∧
        name.Holds (requestJob freeRequest.input freeRequest.userId .codex 7 1)
          (worker 2 false).current := by
    intro name
    cases name <;> decide
  refine ⟨(selected.1.complete .job 7).mpr ⟨coder, by decide, rfl, by decide,
    worker 2 false, by simp, ⟨rfl, ?_, ⟨by decide, by decide⟩, ?_⟩, ⟨rfl, rfl, rfl, rfl⟩⟩,
    selected.2 _ _ (List.Perm.refl _) (List.Perm.swap _ _ _)⟩
  · exact ⟨rfl, by decide, rfl, ⟨0, rfl, by decide⟩, fun _ => ⟨0, rfl, by decide⟩, rfl⟩
  · exact ⟨fun name => (accepts name).1, fun name => (accepts name).2⟩

end Jobs
end Scrum4Me
