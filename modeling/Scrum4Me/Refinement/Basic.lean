import Scrum4Me.Lifecycle.Closing
import Scrum4Me.Lifecycle.Consistency

/-!
# Refinement

A transaction that commits takes the life of its request along a path of allowed
changes. The modules of this directory show it for each transaction, beside the
module of the source that it is from.
-/

namespace Scrum4Me
namespace Dispatch

open Foundation

/-- A transaction took the life of its request along these changes. -/
structure Refines
    (free : Uuid → Prop) (rows rows' : RequestRows) (changes : List Change) :
    Prop where
  path : (lifeOf rows).Path free changes
  life : lifeOf rows' = (lifeOf rows).applyAll changes

/-- The primary keys of one request. -/
structure RequestRows.KeysUnique (rows : RequestRows) : Prop where
  candidates : (rows.candidates.map CandidateRow.id).Nodup
  attempts : (rows.attempts.map AttemptRow.id).Nodup
  jobs : (rows.jobs.map JobRow.id).Nodup
  events : (rows.events.map EventRow.id).Nodup
  publications : (rows.publications.map PublicationRow.id).Nodup

/-- What the keys of the store say about rows that replace those of a request. -/
def RequestRows.KeepsKeys (rows rows' : RequestRows) : Prop :=
  rows'.request.id = rows.request.id → rows'.KeysUnique

section Refinement

variable {free : Uuid → Prop} {rows rows' : RequestRows}

/-- Rows of one life have one key. -/
theorem sameId_of_life {life : Life} (written : lifeOf rows' = life)
    (identity : life.identity = (lifeOf rows).identity) :
    rows'.request.id = rows.request.id := by
  rw [← written] at identity
  exact congrArg RequestIdentity.requestId identity

theorem Refines.quiet (life : lifeOf rows' = lifeOf rows) : Refines free rows rows' [] where
  path := trivial
  life := life

theorem Refines.one {change : Change} (allowed : change.Allowed free (lifeOf rows))
    (life : lifeOf rows' = change.apply (lifeOf rows)) :
    Refines free rows rows' [change] where
  path := ⟨allowed, trivial⟩
  life := life

theorem Refines.two {first second : Change} (allowed : first.Allowed free (lifeOf rows))
    (next : second.Allowed free (first.apply (lifeOf rows)))
    (life : lifeOf rows' = second.apply (first.apply (lifeOf rows))) :
    Refines free rows rows' [first, second] where
  path := ⟨allowed, next, trivial⟩
  life := life

/-- A statement that the life does not see may follow. -/
theorem Refines.thenQuiet {rows'' : RequestRows} {changes : List Change}
    (refines : Refines free rows rows' changes) (life : lifeOf rows'' = lifeOf rows') :
    Refines free rows rows'' changes where
  path := refines.path
  life := life.trans refines.life

theorem isSome_eq_false {value : Option α} (absent : value = none) : value.isSome = false := by
  rw [absent]
  rfl

/-! ## Shared queries -/

theorem openCandidate?_eq_some {c : CandidateRow} (found : rows.openCandidate? = some c) :
    c ∈ rows.candidates ∧ c.generation = rows.request.generation ∧ c.state.Open := by
  have matched := List.find?_some found
  exact ⟨List.mem_of_find?_eq_some found, of_decide_eq_true matched⟩

theorem openCandidate?_eq_none (missing : rows.openCandidate? = none) :
    ∀ c ∈ (lifeOf rows).candidates, c.generation = (lifeOf rows).generation → ¬ c.state.Open := by
  intro c member generation isOpen
  obtain ⟨row, own, rfl⟩ := List.mem_map.mp member
  have missed := List.find?_eq_none.mp missing row own
  exact missed (decide_eq_true ⟨generation, isOpen⟩)

/-- The retry authority that a request claimed before must have. -/
theorem retryAuthorized_of_claimed (asserted : rows.request.firstClaimedAt ≠ none →
      ∃ authorization, assertRetryAuthorization rows = .ok authorization) :
    (lifeOf rows).claimed = true → (lifeOf rows).RetryAuthorized := by
  intro claimed
  obtain ⟨authorization, granted⟩ := asserted (Option.isSome_iff_ne_none.mp claimed)
  exact retryAuthorized_of_assert granted

end Refinement

end Dispatch
end Scrum4Me
