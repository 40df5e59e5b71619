import Mathlib.Order.Basic
import Mathlib.Tactic.Common

/-!
# Bisection

A search for the greatest number that fits halves its interval. It finds that number
exactly if every number it tries on the way there fits, as far as it is not greater.
-/

namespace Scrum4Me
namespace Foundation

/-- The greatest number that fits, if all smaller ones do. -/
def bisect (fits : Nat → Bool) (low high : Nat) : Nat :=
  if low < high then
    if fits ((low + high + 1) / 2) then bisect fits ((low + high + 1) / 2) high
    else bisect fits low ((low + high + 1) / 2 - 1)
  else low
termination_by high - low

/-- What is tried on the way to a number. -/
def probes (target low high : Nat) : List Nat :=
  if low < high then
    (low + high + 1) / 2 ::
      if (low + high + 1) / 2 ≤ target then probes target ((low + high + 1) / 2) high
      else probes target low ((low + high + 1) / 2 - 1)
  else []
termination_by high - low

/-- The greatest number of an interval that fits. -/
structure Greatest (fits : Nat → Bool) (low high target : Nat) : Prop where
  within : low ≤ target ∧ target ≤ high
  holds : fits target = true
  last : ∀ other, target < other → other ≤ high → fits other = false

variable {fits : Nat → Bool} {low high target : Nat}

/-- The result is one that fits. -/
theorem bisect_fits (some' : low ≤ high) (fitsLow : fits low = true) :
    fits (bisect fits low high) = true ∧ low ≤ bisect fits low high ∧
      bisect fits low high ≤ high := by
  fun_induction bisect fits low high with
  | case1 low high less fitsMid ih =>
    obtain ⟨found, above, below⟩ := ih (by omega) fitsMid
    exact ⟨found, by omega, below⟩
  | case2 low high less notMid ih =>
    obtain ⟨found, above, below⟩ := ih (by omega) fitsLow
    exact ⟨found, above, by omega⟩
  | case3 low high done => exact ⟨fitsLow, Nat.le_refl _, some'⟩

theorem bisect_le (some' : low ≤ high) : bisect fits low high ≤ high := by
  fun_induction bisect fits low high with
  | case1 low high less fitsMid ih => exact ih (by omega)
  | case2 low high less notMid ih =>
    have below := ih (by omega)
    omega
  | case3 low high done => exact some'

/-- The search finds the greatest number exactly if it is not turned away before. -/
theorem bisect_eq_iff (greatest : Greatest fits low high target) :
    bisect fits low high = target ↔
      ∀ probe ∈ probes target low high, probe ≤ target → fits probe = true := by
  fun_induction bisect fits low high with
  | case1 low high less fitsMid ih =>
    obtain ⟨⟨above, below⟩, fitsTarget, last⟩ := greatest
    have reached : (low + high + 1) / 2 ≤ target := by
      by_contra beyond
      have unfit := last _ (Nat.lt_of_not_le beyond) (by omega)
      rw [fitsMid] at unfit
      cases unfit
    rw [ih ⟨⟨reached, below⟩, fitsTarget, last⟩, probes.eq_def target low high, if_pos less,
      if_pos reached, List.forall_mem_cons]
    exact ⟨fun later => ⟨fun _ => fitsMid, later⟩, And.right⟩
  | case2 low high less notMid ih =>
    obtain ⟨⟨above, below⟩, fitsTarget, last⟩ := greatest
    rw [probes.eq_def target low high, if_pos less, List.forall_mem_cons]
    by_cases reached : (low + high + 1) / 2 ≤ target
    · have short := @bisect_le fits low ((low + high + 1) / 2 - 1) (by omega)
      constructor
      · intro found
        omega
      · rintro ⟨fitsMid, -⟩
        exact absurd (fitsMid reached) notMid
    · rw [if_neg reached, ih ⟨⟨above, by omega⟩, fitsTarget,
        fun other more small => last other more (by omega)⟩]
      exact ⟨fun later => ⟨fun small => absurd small reached, later⟩, And.right⟩
  | case3 low high done =>
    obtain ⟨⟨above, below⟩, -, -⟩ := greatest
    rw [probes, if_neg done]
    constructor
    · exact fun _ _ none => absurd none List.not_mem_nil
    · intro _
      omega

theorem exists_greatest (some' : low ≤ high) (fitsLow : fits low = true) :
    ∃ target, Greatest fits low high target := by
  induction high with
  | zero =>
    obtain rfl : low = 0 := Nat.le_zero.mp some'
    exact ⟨0, ⟨Nat.le_refl _, Nat.le_refl _⟩, fitsLow, fun other more small => by omega⟩
  | succ high ih =>
    cases fitsHigh : fits (high + 1) with
    | true => exact ⟨high + 1, ⟨some', Nat.le_refl _⟩, fitsHigh, fun other more small => by omega⟩
    | false =>
      have below : low ≤ high := by
        by_contra equal
        obtain rfl : low = high + 1 := by omega
        rw [fitsLow] at fitsHigh
        cases fitsHigh
      obtain ⟨target, ⟨above, small⟩, fitsTarget, last⟩ := ih below
      refine ⟨target, ⟨above, by omega⟩, fitsTarget, fun other more top => ?_⟩
      rcases Nat.lt_or_eq_of_le top with under | rfl
      · exact last other more (by omega)
      · exact fitsHigh

theorem Greatest.unique {other : Nat} (first : Greatest fits low high target)
    (second : Greatest fits low high other) :
    target = other := by
  rcases Nat.lt_trichotomy target other with less | same | more
  · have unfit := first.last other less second.within.2
    rw [second.holds] at unfit
    cases unfit
  · exact same
  · have unfit := second.last target more first.within.2
    rw [first.holds] at unfit
    cases unfit

end Foundation
end Scrum4Me
