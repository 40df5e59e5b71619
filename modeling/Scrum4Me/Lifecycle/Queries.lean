import Scrum4Me.Lifecycle.History

/-!
# Queries on a history

What a query by candidate finds in the tables of a request, in the words of its
episodes: the open candidates are the candidate of the open episode, and the
attempts and reservations of a candidate are those of its episode.
-/

namespace Scrum4Me
namespace Dispatch

open Foundation

variable {life : Life} {past : List Episode} {current : Option Episode}
  {e : Episode}

namespace Life.Flat

variable {episodes : List Episode}

theorem reservationsOf (flat : life.Flat episodes) (member : e ∈ episodes) :
    life.reservations.filter (fun row => row.candidateId = e.candidate.id) = [e.reservation] := by
  have own := (flat.linked e member).reservation
  have keys : (episodes.map fun e => e.reservation.candidateId) =
      episodes.map fun e => e.candidate.id :=
    List.map_congr_left fun other inside => (flat.linked other inside).reservation
  have distinct : (life.reservations.map ReservationLife.candidateId).Nodup := by
    rw [flat.reservations, List.map_map]
    exact keys ▸ flat.candidateIds
  rw [← own]
  apply filter_key ReservationLife.candidateId distinct
  rw [flat.reservations]
  exact List.mem_map_of_mem member

/-- The attempts of an episode's candidate are its own. -/
theorem attemptsOf (flat : life.Flat episodes) (member : e ∈ episodes) :
    life.attempts.filter (fun row => row.candidateId = e.candidate.id) = e.attempt.toList := by
  obtain ⟨before, later, rfl⟩ := List.append_of_mem member
  have distinct := flat.candidateIds
  rw [List.map_append, List.map_cons] at distinct
  have missed : ∀ others : List Episode, (∀ other ∈ others, other.Linked) →
      e.candidate.id ∉ others.map (fun e => e.candidate.id) →
      (others.filterMap Episode.attempt).filter
        (fun row => row.candidateId = e.candidate.id) = [] := by
    intro others linked absent
    rw [List.filter_eq_nil_iff]
    intro row inside same
    obtain ⟨other, own, attempt⟩ := List.mem_filterMap.mp inside
    apply absent
    rw [← of_decide_eq_true same, (linked other own).attempt row attempt]
    exact List.mem_map_of_mem own
  have beforeMissed := missed before
    (fun other inside => flat.linked other (List.mem_append_left _ inside))
    (fun inside => (List.nodup_append.mp distinct).2.2 _ inside _ List.mem_cons_self rfl)
  have laterMissed := missed later (fun other inside => flat.linked other
      (List.mem_append_right _ (List.mem_cons_of_mem _ inside)))
    (List.nodup_cons.mp (List.nodup_append.mp distinct).2.1).1
  rw [flat.attempts, List.filterMap_append, filterMap_cons_toList,
    List.filter_append, List.filter_append, beforeMissed, laterMissed,
    List.nil_append, List.append_nil, List.filter_eq_self]
  intro row inside
  have := (flat.linked e member).attempt row (Option.mem_toList.mp inside)
  exact decide_eq_true this

theorem jobOf (flat : life.Flat episodes) (member : e ∈ episodes) {j : JobLife}
    (inside : j ∈ life.jobs) (named : e.candidate.jobId = some j.id) :
    e.job = some j := by
  have own := (flat.linked e member).job
  rw [named] at own
  obtain ⟨k, job, sameId⟩ := Option.map_eq_some_iff.mp own.symm
  have distinct := flat.jobIds
  rw [← flat.jobs] at distinct
  have found : k ∈ life.jobs := by
    rw [flat.jobs]
    exact List.mem_filterMap.mpr ⟨e, member, job⟩
  rw [job, List.inj_on_of_nodup_map distinct found inside sameId]

end Life.Flat

namespace Life.History

/-- The open episode is the only one that is not closed. -/
theorem isOpen_current (history : life.History past (some e)) :
    e.reservation.isOpen = true ∧ e.candidate.state.Open := by
  rcases history.agrees with ⟨unclaimed, -⟩ | ⟨s, executing, -⟩
  · refine ⟨unclaimed.1, ?_⟩
    rw [unclaimed.2.1]
    decide
  · refine ⟨executing.1, ?_⟩
    rw [executing.2.1]
    cases s <;> decide

theorem openCandidates (history : life.History past current) :
    life.candidates.filter (fun row => row.state.Open) =
      (current.map Episode.candidate).toList := by
  have closed : (past.map Episode.candidate).filter (fun row => row.state.Open) = [] := by
    rw [List.filter_eq_nil_iff]
    intro row member isOpen
    obtain ⟨e, own, rfl⟩ := List.mem_map.mp member
    have isOpen := of_decide_eq_true isOpen
    rcases (history.closed e own).2 with ⟨state, -⟩ | ⟨state, -⟩
    · exact isOpen.2 state
    · exact isOpen.1 state
  rw [history.flat.candidates, List.map_append, List.filter_append, closed, List.nil_append]
  cases current with
  | none => rfl
  | some e => simp [history.isOpen_current.2]

/-- The attempts that have not ended are the attempt of the open episode. -/
theorem liveAttempts (history : life.History past current) :
    life.attempts.filter (fun row => ¬ row.state.Terminal) =
      (current.bind Episode.attempt).toList := by
  have ended : (past.filterMap Episode.attempt).filter (fun row => ¬ row.state.Terminal) = [] := by
    rw [List.filter_eq_nil_iff]
    intro row member alive
    obtain ⟨e, own, attempt⟩ := List.mem_filterMap.mp member
    rcases (history.closed e own).2 with
      ⟨-, none', -⟩ | ⟨-, a, outcome, some', state, -⟩
    · rw [none'] at attempt
      cases attempt
    · obtain rfl := Option.some.inj (some'.symm.trans attempt)
      apply of_decide_eq_true alive
      rw [state]
      exact outcome.terminal_attemptState
  rw [history.flat.attempts, List.filterMap_append, List.filter_append, ended, List.nil_append]
  cases current with
  | none => rfl
  | some e =>
    rw [Option.toList_some, filterMap_cons_toList, List.filterMap_nil,
      List.append_nil, Option.bind_some, List.filter_eq_self]
    intro row inside
    have attempt := Option.mem_toList.mp inside
    rcases history.agrees with ⟨unclaimed, -⟩ | ⟨s, ⟨-, -, a, own, state, -⟩, -⟩
    · rw [unclaimed.2.2.1] at attempt
      cases attempt
    · obtain rfl := Option.some.inj (own.symm.trans attempt)
      rw [state]
      cases s <;> decide

end Life.History

end Dispatch
end Scrum4Me
