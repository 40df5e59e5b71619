import Mathlib.Algebra.BigOperators.Group.List.Basic
import Mathlib.Algebra.Ring.Nat
import Mathlib.Tactic.Common

/-!
# The head of a line

A line is served at its head. What is taken from the head leaves, or comes back to the
same place: a number of times, or for ever. Whatever stands behind one that comes back
for ever is never reached; everything else is reached after as many turns as those before
it take.
-/

namespace Scrum4Me
namespace Foundation

variable {returns : α → Option Nat}

/-- The head is taken. How often something comes back is `none` if that is for ever. -/
inductive Taken (returns : α → Option Nat) : List α → List α → Prop
  | nobody : Taken returns [] []
  | leaves {head : α} {rest : List α}
      (last : returns head = some 0) : Taken returns (head :: rest) rest
  | comesBack {head head' : α} {rest : List α} {more : Nat} (again : returns head = some (more + 1))
      (fewer : returns head' = some more) :
      Taken returns (head :: rest) (head' :: rest)
  | blocks {head head' : α} {rest : List α} (forever : returns head = none)
      (still : returns head' = none) :
      Taken returns (head :: rest) (head' :: rest)

/-- The head is taken so many times. -/
inductive TakenTimes (returns : α → Option Nat) : Nat → List α → List α → Prop
  | zero {line : List α} : TakenTimes returns 0 line line
  | succ {line next last : List α} {count : Nat} (taken : Taken returns line next)
      (more : TakenTimes returns count next last) :
      TakenTimes returns (count + 1) line last

/-- How many turns these take until they have left. -/
def turnsOf (returns : α → Option Nat) (line : List α) : Nat :=
  (line.map fun value => (returns value).getD 0 + 1).sum

@[simp] theorem turnsOf_nil : turnsOf returns [] = 0 := rfl

@[simp] theorem turnsOf_cons (value : α) (line : List α) :
    turnsOf returns (value :: line) = (returns value).getD 0 + 1 + turnsOf returns line := by
  simp [turnsOf]

/-- Those at the front leave, each after its turns, and the rest is as it was. -/
theorem TakenTimes.leave
    {before rest last : List α} (finite : ∀ value ∈ before, returns value ≠ none)
    {count : Nat} (enough : turnsOf returns before = count)
    (taken : TakenTimes returns count (before ++ rest) last) :
    last = rest := by
  induction count generalizing before with
  | zero =>
    cases before with
    | nil => cases taken with | zero => rfl
    | cons head before =>
      rw [turnsOf_cons] at enough
      omega
  | succ count ih =>
    cases before with
    | nil => exact absurd enough (by simp)
    | cons head before =>
      have others := fun value member => finite value (List.mem_cons_of_mem head member)
      rw [turnsOf_cons] at enough
      cases taken with
      | succ taken more =>
        cases taken with
        | leaves last =>
          rw [last, Option.getD_some] at enough
          exact ih others (by omega) more
        | @comesBack _ head' _ further again fewer =>
          rw [again, Option.getD_some] at enough
          refine @ih (head' :: before) ?_ ?_ more
          · intro value member
            rcases List.mem_cons.mp member with rfl | member
            · simp [fewer]
            · exact others value member
          · rw [turnsOf_cons, fewer, Option.getD_some]
            omega
        | blocks forever => exact absurd forever (finite head List.mem_cons_self)

/-- What comes back for ever stays, and with it what stands behind it. -/
theorem Taken.blocked {before rest next : List α} {value : α} (forever : returns value = none)
    (taken : Taken returns (before ++ value :: rest) next) :
    ∃ before' value', next = before' ++ value' :: rest ∧ returns value' = none := by
  cases before with
  | nil =>
    cases taken with
    | leaves last => exact absurd (forever.symm.trans last) (by simp)
    | comesBack again => exact absurd (forever.symm.trans again) (by simp)
    | @blocks _ value' _ _ still => exact ⟨[], value', rfl, still⟩
  | cons head before =>
    cases taken with
    | leaves => exact ⟨before, value, rfl, forever⟩
    | @comesBack _ head' => exact ⟨head' :: before, value, rfl, forever⟩
    | @blocks _ head' => exact ⟨head' :: before, value, rfl, forever⟩

/-- Each takes at most its share of the turns. -/
theorem turnsOf_le {line : List α} {most : Nat}
    (bounded : ∀ value ∈ line, (returns value).getD 0 + 1 ≤ most) :
    turnsOf returns line ≤ most * line.length := by
  induction line with
  | nil => simp
  | cons value line ih =>
    have first := bounded value List.mem_cons_self
    have others := ih fun value member => bounded value (List.mem_cons_of_mem _ member)
    rw [turnsOf_cons, List.length_cons, Nat.mul_succ]
    omega

end Foundation
end Scrum4Me
