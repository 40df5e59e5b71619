import Mathlib.Logic.Basic

/-!
# Transactions that commit or roll back

A database transaction is a computation in `Except`: it either returns the new
state together with its answer, or fails. `commit` runs one against a state, so
a failed transaction leaves the state unchanged. The lemmas take a successful
computation apart one statement at a time; no proof about a transaction has to
look at its failing branches.
-/

namespace Scrum4Me
namespace Foundation

/-- Fail with `error` unless `condition` holds. -/
def ensure (condition : Prop) [Decidable condition] (error : ε) :
    Except ε Unit :=
  if condition then .ok () else .error error

/-- The value that must be present. -/
def require (value : Option α) (error : ε) : Except ε α :=
  match value with
  | some found => .ok found
  | none => .error error

@[simp] theorem ensure_eq_ok (condition : Prop) [Decidable condition] (error : ε) (answer : Unit) :
    ensure condition error = .ok answer ↔ condition := by
  unfold ensure
  split <;> simp_all

@[simp] theorem require_eq_ok (value : Option α) (error : ε) (found : α) :
    require value error = .ok found ↔ value = some found := by
  cases value <;> simp [require]

/-- A sequence succeeds exactly when both of its halves do. -/
@[simp] theorem bind_eq_ok (first : Except ε α) (next : α → Except ε β) (result : β) :
    (first >>= next) = .ok result ↔ ∃ value, first = .ok value ∧ next value = .ok result := by
  cases first <;> simp [bind, Except.bind]

@[simp] theorem pure_eq_ok (value result : α) :
    (pure value : Except ε α) = .ok result ↔ value = result := by
  simp [pure, Except.pure]

@[simp] theorem map_eq_ok (first : Except ε α) (function : α → β) (result : β) :
    (function <$> first) = .ok result ↔ ∃ value, first = .ok value ∧ function value = result := by
  cases first <;> simp [Functor.map, Except.map]

/-- What a computation that succeeds returns. -/
theorem exists_of_isOk {result : Except ε α} (succeeds : result.isOk = true) :
    ∃ value, result = .ok value := by
  cases result with
  | ok value => exact ⟨value, rfl⟩
  | error error => cases succeeds

/-- The state after a transaction, which is the old one when it fails. -/
def commit (body : Except ε (σ × ω)) (state : σ) : σ :=
  match body with
  | .ok (next, _) => next
  | .error _ => state

@[simp] theorem commit_ok (next : σ) (answer : ω) (state : σ) :
    commit (.ok (next, answer) : Except ε (σ × ω)) state = next := rfl

@[simp] theorem commit_error (error : ε) (state : σ) :
    commit (.error error : Except ε (σ × ω)) state = state := rfl

/-- What holds of the old state and of every successful outcome holds after the
commit. -/
theorem commit_induction {body : Except ε (σ × ω)} {state : σ} {property : σ → Prop}
    (unchanged : property state)
    (succeeded : ∀ next answer, body = .ok (next, answer) → property next) :
    property (commit body state) := by
  cases outcome : body with
  | error error => exact unchanged
  | ok value => exact succeeded value.1 value.2 outcome

end Foundation
end Scrum4Me
