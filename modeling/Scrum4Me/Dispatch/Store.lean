import Scrum4Me.Dispatch.Artifacts

/-!
# The dispatch database

The whole store: the rows of every request, the registry of executors, and the
latest time any transaction has seen. A transaction commits only when the
primary keys of every table stay unique.
-/

namespace Scrum4Me
namespace Dispatch

open Foundation

structure Store where
  requests : List RequestRows
  registry : Registry
  clock : Timestamp
  deriving DecidableEq

namespace Store

/-- The database before anything was submitted or registered. -/
def empty : Store :=
  { requests := []
    registry :=
      { slots := []
        slotProfiles := []
        incarnations := []
        profiles := []
        operations := [] }
    clock := 0 }

variable (store : Store)

def request? (id : Uuid) : Option RequestRows :=
  store.requests.find? fun rows => rows.request.id = id

/-- The request whose candidate a given attempt belongs to. -/
def requestOfAttempt? (attemptId : Uuid) : Option RequestRows :=
  store.requests.find? fun rows => (rows.attempt? attemptId).isSome

def requestOfPublication? (operationId : Uuid) : Option RequestRows :=
  store.requests.find? fun rows => (rows.publication? operationId).isSome

/-- Replace the rows of one request. -/
def put (rows : RequestRows) : Store :=
  { store with
    requests :=
      updateWhere (fun old => old.request.id = rows.request.id) (fun _ => rows) store.requests }

def setRegistry (registry : Registry) : Store :=
  { store with registry := registry }

def allCandidates : List CandidateRow :=
  store.requests.flatMap RequestRows.candidates

def allReservations : List ReservationRow :=
  store.requests.flatMap RequestRows.reservations

def allAttempts : List AttemptRow :=
  store.requests.flatMap RequestRows.attempts

def allJobs : List JobRow :=
  store.requests.flatMap RequestRows.jobs

/-- The primary keys of the tables. -/
structure KeysUnique : Prop where
  requests : (store.requests.map fun rows => rows.request.id).Nodup
  candidates : (store.allCandidates.map CandidateRow.id).Nodup
  reservations : (store.allReservations.map ReservationRow.id).Nodup
  attempts : (store.allAttempts.map AttemptRow.id).Nodup
  jobs : (store.allJobs.map JobRow.id).Nodup
  events :
    (store.requests.flatMap fun rows => rows.events.map EventRow.id).Nodup
  results :
    (store.requests.flatMap fun rows => rows.results.map ResultRow.id).Nodup
  artifacts :
    (store.requests.flatMap fun rows =>
      rows.artifacts.map ArtifactRow.id).Nodup
  publications :
    (store.requests.flatMap fun rows =>
      rows.publications.map PublicationRow.id).Nodup
  outbox :
    (store.requests.flatMap fun rows => rows.outbox.map OutboxRow.id).Nodup
  slots : (store.registry.slots.map SlotRow.id).Nodup
  incarnations : (store.registry.incarnations.map IncarnationRow.id).Nodup
  profiles : (store.registry.profiles.map ProfileRow.id).Nodup

theorem keysUnique_iff :
    store.KeysUnique ↔ (store.requests.map fun rows => rows.request.id).Nodup ∧
      (store.allCandidates.map CandidateRow.id).Nodup ∧
      (store.allReservations.map ReservationRow.id).Nodup ∧
      (store.allAttempts.map AttemptRow.id).Nodup ∧ (store.allJobs.map JobRow.id).Nodup ∧
      (store.requests.flatMap fun rows =>
        rows.events.map EventRow.id).Nodup ∧ (store.requests.flatMap fun rows =>
        rows.results.map ResultRow.id).Nodup ∧ (store.requests.flatMap fun rows =>
        rows.artifacts.map ArtifactRow.id).Nodup ∧ (store.requests.flatMap fun rows =>
        rows.publications.map PublicationRow.id).Nodup ∧ (store.requests.flatMap fun rows =>
        rows.outbox.map OutboxRow.id).Nodup ∧ (store.registry.slots.map SlotRow.id).Nodup ∧
      (store.registry.incarnations.map IncarnationRow.id).Nodup ∧
      (store.registry.profiles.map ProfileRow.id).Nodup := by
  constructor
  · rintro ⟨h₁, h₂, h₃, h₄, h₅, h₆, h₇, h₈, h₉, h₁₀, h₁₁, h₁₂, h₁₃⟩
    exact ⟨h₁, h₂, h₃, h₄, h₅, h₆, h₇, h₈, h₉, h₁₀, h₁₁, h₁₂, h₁₃⟩
  · rintro ⟨h₁, h₂, h₃, h₄, h₅, h₆, h₇, h₈, h₉, h₁₀, h₁₁, h₁₂, h₁₃⟩
    exact ⟨h₁, h₂, h₃, h₄, h₅, h₆, h₇, h₈, h₉, h₁₀, h₁₁, h₁₂, h₁₃⟩

instance : Decidable store.KeysUnique :=
  decidable_of_iff _ store.keysUnique_iff.symm

end Store

end Dispatch
end Scrum4Me
