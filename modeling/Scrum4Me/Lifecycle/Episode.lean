import Scrum4Me.Lifecycle.Life

/-!
# Episodes

Everything that one candidate brings with it: its reservation, its job and its
attempt. The tables of a request are the columns of its list of episodes, in
the same order, and an update by key of one table is an update of one episode.
-/

namespace Scrum4Me
namespace Dispatch

open Foundation

structure Episode where
  candidate : CandidateLife
  reservation : ReservationLife
  job : Option JobLife
  attempt : Option AttemptLife

namespace Episode

/-- The rows of an episode name each other. -/
structure Linked (e : Episode) : Prop where
  reservation : e.reservation.candidateId = e.candidate.id
  slot : e.reservation.slotId = e.candidate.slotId
  job : e.candidate.jobId = e.job.map JobLife.id
  attempt : ∀ a ∈ e.attempt, a.candidateId = e.candidate.id
  claimed : e.candidate.claimed = e.attempt.isSome

/-- Two versions of one episode. -/
structure SameKeys (e e' : Episode) : Prop where
  candidate : e'.candidate.id = e.candidate.id
  generation : e'.candidate.generation = e.candidate.generation
  attempt : e'.attempt.map AttemptLife.id = e.attempt.map AttemptLife.id
  job : e'.job.map JobLife.id = e.job.map JobLife.id

end Episode

/-- The tables of a request are the columns of these episodes. -/
structure Life.Flat (life : Life) (episodes : List Episode) : Prop where
  candidates : life.candidates = episodes.map Episode.candidate
  reservations : life.reservations = episodes.map Episode.reservation
  attempts : life.attempts = episodes.filterMap Episode.attempt
  jobs : life.jobs = episodes.filterMap Episode.job
  candidateIds : (episodes.map fun e => e.candidate.id).Nodup
  attemptIds : ((episodes.filterMap Episode.attempt).map AttemptLife.id).Nodup
  jobIds : ((episodes.filterMap Episode.job).map JobLife.id).Nodup
  linked : ∀ e ∈ episodes, e.Linked
  generations :
    (episodes.map fun e => e.candidate.generation) =
      List.range' 1 life.generation

namespace Life.Flat

variable {life life' : Life} {before later : List Episode} {e e' : Episode}

/-! ## Updates of one episode -/

theorem updateCandidate
    (flat : life.Flat (before ++ e :: later)) (change : CandidateLife → CandidateLife) :
    updateWhere (fun row => row.id = e.candidate.id) change life.candidates =
      before.map Episode.candidate ++
        change e.candidate :: later.map Episode.candidate := by
  rw [flat.candidates, List.map_append, List.map_cons]
  apply updateWhere_key CandidateLife.id
  · simpa [Function.comp_def] using flat.candidateIds
  · simp
  · simp

theorem updateReservation
    (flat : life.Flat (before ++ e :: later)) (isOpen : e.reservation.isOpen = true)
    (change : ReservationLife → ReservationLife) :
    updateWhere (fun row => row.candidateId = e.candidate.id ∧ row.isOpen = true)
        change life.reservations = before.map Episode.reservation ++
        change e.reservation :: later.map Episode.reservation := by
  have ownCandidate := (flat.linked e (by simp)).reservation
  rw [flat.reservations, List.map_append, List.map_cons]
  apply updateWhere_key ReservationLife.candidateId
  · have sameKeys : ((before ++ e :: later).map fun episode =>
          episode.reservation.candidateId) =
        (before ++ e :: later).map fun episode => episode.candidate.id :=
      List.map_congr_left fun episode member => (flat.linked episode member).reservation
    have distinct := flat.candidateIds
    rw [← sameKeys] at distinct
    simpa [Function.comp_def] using distinct
  · simp [ownCandidate, isOpen]
  · intro other found
    have := of_decide_eq_true found
    rw [this.1, ownCandidate]

/-- A reservation that is already closed is not closed again. -/
theorem updateReservation_closed
    (flat : life.Flat (before ++ e :: later)) (isClosed : e.reservation.isOpen = false)
    (change : ReservationLife → ReservationLife) :
    updateWhere (fun row => row.candidateId = e.candidate.id ∧ row.isOpen = true)
        change life.reservations = life.reservations := by
  apply updateWhere_eq_self
  intro row member found
  obtain ⟨sameCandidate, isOpen⟩ := of_decide_eq_true found
  rw [flat.reservations] at member
  obtain ⟨other, otherMember, rfl⟩ := List.mem_map.mp member
  have sameId : other.candidate.id = e.candidate.id :=
    (flat.linked other otherMember).reservation.symm.trans sameCandidate
  have same : other = e := List.inj_on_of_nodup_map flat.candidateIds otherMember (by simp) sameId
  rw [same, isClosed] at isOpen
  cases isOpen

theorem updateAttempt (flat : life.Flat (before ++ e :: later)) {a : AttemptLife}
    (attempt : e.attempt = some a) (change : AttemptLife → AttemptLife) :
    updateWhere (fun row => row.id = a.id) change life.attempts =
      before.filterMap Episode.attempt ++
        change a :: later.filterMap Episode.attempt := by
  have distinct := flat.attemptIds
  rw [flat.attempts]
  rw [List.filterMap_append, List.filterMap_cons_some attempt] at distinct ⊢
  apply updateWhere_key AttemptLife.id distinct
  · simp
  · simp

theorem updateJob (flat : life.Flat (before ++ e :: later)) (change : JobLife → JobLife) :
    updateWhere (fun row => some row.id = e.candidate.jobId) change life.jobs =
      before.filterMap Episode.job ++
        ((e.job.map change).toList ++ later.filterMap Episode.job) := by
  have ownJob := (flat.linked e (by simp)).job
  rw [flat.jobs]
  cases job : e.job with
  | none =>
    rw [job] at ownJob
    rw [List.filterMap_append, List.filterMap_cons_none job, ownJob]
    apply updateWhere_eq_self
    simp
  | some j =>
    rw [job] at ownJob
    have distinct := flat.jobIds
    rw [List.filterMap_append, List.filterMap_cons_some job] at distinct ⊢
    rw [ownJob]
    apply updateWhere_key JobLife.id distinct
    · simp
    · simp

/-- Replacing one episode by another version of it keeps the tables flat. -/
theorem replace (flat : life.Flat (before ++ e :: later)) (sameKeys : e.SameKeys e')
    (linked : e'.Linked) (generation : life'.generation = life.generation)
    (candidates : life'.candidates = before.map Episode.candidate ++
        e'.candidate :: later.map Episode.candidate) (reservations : life'.reservations =
      before.map Episode.reservation ++ e'.reservation :: later.map Episode.reservation)
    (attempts : life'.attempts =
      before.filterMap Episode.attempt ++ (e'.attempt.toList ++ later.filterMap Episode.attempt))
    (jobs : life'.jobs =
      before.filterMap Episode.job ++ (e'.job.toList ++ later.filterMap Episode.job)) :
    life'.Flat (before ++ e' :: later) := by
  have oldAttempts := flat.attemptIds
  have oldJobs := flat.jobIds
  have oldCandidates := flat.candidateIds
  have oldGenerations := flat.generations
  simp only [List.filterMap_append, filterMap_cons_toList, List.map_append,
    List.map_cons, ← Option.toList_map]
    at oldAttempts oldJobs oldCandidates oldGenerations
  refine
    { candidates := by simpa using candidates
      reservations := by simpa using reservations
      attempts := by simpa [filterMap_cons_toList] using attempts
      jobs := by simpa [filterMap_cons_toList] using jobs
      candidateIds := ?_
      attemptIds := ?_
      jobIds := ?_
      linked := ?_
      generations := ?_ }
  · simpa [sameKeys.candidate] using oldCandidates
  · simp only [List.filterMap_append, filterMap_cons_toList, List.map_append,
      ← Option.toList_map, sameKeys.attempt]
    exact oldAttempts
  · simp only [List.filterMap_append, filterMap_cons_toList, List.map_append,
      ← Option.toList_map, sameKeys.job]
    exact oldJobs
  · intro episode member
    rcases List.mem_append.mp member with old | new
    · exact flat.linked episode (by simp [old])
    · rcases List.mem_cons.mp new with rfl | old
      · exact linked
      · exact flat.linked episode (by simp [old])
  · simpa [sameKeys.generation, generation] using oldGenerations

/-! ## Finding an episode -/

variable {episodes : List Episode}

theorem mem_attempts (flat : life.Flat episodes) {a : AttemptLife} :
    a ∈ life.attempts ↔ ∃ episode ∈ episodes, episode.attempt = some a := by
  rw [flat.attempts, List.mem_filterMap]

theorem mem_candidates (flat : life.Flat episodes) {c : CandidateLife} :
    c ∈ life.candidates ↔ ∃ episode ∈ episodes, episode.candidate = c := by
  rw [flat.candidates, List.mem_map]

/-- Episodes are told apart by the identifier of their candidate. -/
theorem episode_unique
    (flat : life.Flat episodes) {first second : Episode} (firstMember : first ∈ episodes)
    (secondMember : second ∈ episodes) (sameId : first.candidate.id = second.candidate.id) :
    first = second :=
  List.inj_on_of_nodup_map flat.candidateIds firstMember secondMember sameId

/-- An execution of the request is one of its episodes. -/
theorem execution (flat : life.Flat episodes) {x : Execution} (inLife : x.In life) :
    ∃ episode ∈ episodes, episode.candidate = x.candidate ∧ episode.attempt = some x.attempt := by
  obtain ⟨first, firstMember, attempt⟩ := flat.mem_attempts.mp inLife.attempt
  obtain ⟨second, secondMember, candidate⟩ := flat.mem_candidates.mp inLife.candidate
  have sameId : first.candidate.id = second.candidate.id := by
    rw [candidate, ← inLife.linked]
    exact ((flat.linked first firstMember).attempt x.attempt attempt).symm
  have same := flat.episode_unique firstMember secondMember sameId
  exact ⟨first, firstMember, by rw [same, candidate], attempt⟩

/-- The newest episode is the one of the request's generation. -/
theorem newest (flat : life.Flat episodes) {episode : Episode} (member : episode ∈ episodes)
    (generation : episode.candidate.generation = life.generation) :
    ∃ earlier, episodes = earlier ++ [episode] := by
  obtain ⟨earlier, later, rfl⟩ := List.append_of_mem member
  have generations := flat.generations
  have lengths := congrArg List.length generations
  have increasing : (List.range' 1 life.generation).Pairwise (· < ·) := List.pairwise_lt_range'
  cases later with
  | nil => exact ⟨earlier, rfl⟩
  | cons next rest =>
    exfalso
    rw [← generations] at increasing
    simp only [List.map_append, List.map_cons] at increasing generations
    have less :=
      (List.pairwise_cons.mp (List.pairwise_append.mp increasing).2.1).1
        next.candidate.generation (by simp)
    have bounded : next.candidate.generation ∈ List.range' 1 life.generation := by
      rw [← generations]
      simp
    have := List.mem_range'_1.mp bounded
    omega

end Life.Flat

end Dispatch
end Scrum4Me
