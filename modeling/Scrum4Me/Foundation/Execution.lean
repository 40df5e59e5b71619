import Mathlib.Data.List.Basic
import Mathlib.Tactic.Tauto

/-!
# Runs of a machine

A machine is a total step function; a run feeds it a list of inputs. A property
that one step preserves holds along the whole run, a reflexive and transitive
relation that one step establishes relates the ends of the run, and both may
assume an invariant of the states passed through.
-/

namespace Scrum4Me
namespace Foundation

section Runs

variable {σ : Type u} {ι : Type v} {execute : σ → ι → σ}

/-- The state after a list of inputs. -/
def run (execute : σ → ι → σ) (start : σ) (inputs : List ι) : σ :=
  inputs.foldl execute start

@[simp] theorem run_nil (start : σ) : run execute start [] = start := rfl

@[simp] theorem run_cons (start : σ) (input : ι) (rest : List ι) :
    run execute start (input :: rest) = run execute (execute start input) rest := rfl

@[simp] theorem run_append (start : σ) (first second : List ι) :
    run execute start (first ++ second) = run execute (run execute start first) second := by
  simp [run]

/-- Every step of the run meets a condition on the state before it and on its
input. -/
def EveryStep (execute : σ → ι → σ) (condition : σ → ι → Prop) :
    σ → List ι → Prop
  | _, [] => True
  | start, input :: rest =>
      condition start input ∧
        EveryStep execute condition (execute start input) rest

@[simp] theorem everyStep_nil (condition : σ → ι → Prop) (start : σ) :
    EveryStep execute condition start [] := trivial

@[simp] theorem everyStep_cons (condition : σ → ι → Prop) (start : σ) (input : ι) (rest : List ι) :
    EveryStep execute condition start (input :: rest) ↔ condition start input ∧
        EveryStep execute condition (execute start input) rest := Iff.rfl

instance decidableEveryStep
    {condition : σ → ι → Prop}
    [∀ state input, Decidable (condition state input)] :
    ∀ (start : σ) (inputs : List ι),
      Decidable (EveryStep execute condition start inputs)
  | _, [] => .isTrue trivial
  | start, input :: rest =>
      have : Decidable (EveryStep execute condition (execute start input) rest) :=
        decidableEveryStep (execute start input) rest
      inferInstanceAs (Decidable (_ ∧ _))

theorem everyStep_append (condition : σ → ι → Prop) (start : σ) (first second : List ι) :
    EveryStep execute condition start (first ++ second) ↔ EveryStep execute condition start first ∧
        EveryStep execute condition (run execute start first) second := by
  induction first generalizing start with
  | nil => simp
  | cons input rest ih => simp [ih, and_assoc]

variable {condition : σ → ι → Prop} {inputs : List ι} {start : σ}

theorem everyStep_of_forall
    (always : ∀ state, ∀ input ∈ inputs, condition state input) (start : σ) :
    EveryStep execute condition start inputs := by
  induction inputs generalizing start with
  | nil => trivial
  | cons input rest ih =>
    refine ⟨always start input List.mem_cons_self, ?_⟩
    exact ih (fun state other member => always state other (List.mem_cons_of_mem _ member)) _

/-- The steps of an admitted run are admitted up to any point. -/
theorem EveryStep.of_prefix {earlier : List ι}
    (admitted : EveryStep execute condition start inputs) (isPrefix : earlier <+: inputs) :
    EveryStep execute condition start earlier := by
  obtain ⟨later, rfl⟩ := isPrefix
  exact ((everyStep_append condition start earlier later).mp admitted).1

theorem everyStep_and {first second : σ → ι → Prop} :
    EveryStep execute (fun state input => first state input ∧ second state input) start inputs ↔
      EveryStep execute first start inputs ∧ EveryStep execute second start inputs := by
  induction inputs generalizing start with
  | nil => simp
  | cons input rest ih =>
    simp only [everyStep_cons, ih]
    tauto

/-- The invariant rule: what every admitted step preserves holds at the end. -/
theorem run_invariant {condition : σ → ι → Prop} {invariant : σ → Prop}
    (preserved : ∀ state input, invariant state → condition state input →
      invariant (execute state input)) {start : σ} {inputs : List ι} (initially : invariant start)
    (admitted : EveryStep execute condition start inputs) :
    invariant (run execute start inputs) := by
  induction inputs generalizing start with
  | nil => exact initially
  | cons input rest ih => exact ih (preserved start input initially admitted.1) admitted.2

/-- What the invariant and the condition give of one step holds of every step of
the run. -/
theorem EveryStep.of_invariant {condition property : σ → ι → Prop} {invariant : σ → Prop}
    (preserved : ∀ state input, invariant state → condition state input →
      invariant (execute state input))
    (implied : ∀ state input, invariant state → condition state input → property state input)
    {start : σ} {inputs : List ι} (initially : invariant start)
    (admitted : EveryStep execute condition start inputs) :
    EveryStep execute property start inputs := by
  induction inputs generalizing start with
  | nil => trivial
  | cons input rest ih =>
    exact ⟨implied start input initially admitted.1, ih
      (preserved start input initially admitted.1) admitted.2⟩

/-- The invariant rule for steps without a condition. -/
theorem run_invariant_always {invariant : σ → Prop} (preserved : ∀ state input, invariant state →
      invariant (execute state input)) {start : σ} (initially : invariant start) (inputs : List ι) :
    invariant (run execute start inputs) := by
  induction inputs generalizing start with
  | nil => exact initially
  | cons input rest ih => exact ih (preserved start input initially)

/-- Where the condition is exactly what a step needs to keep a property, the property
holds in every state of the run exactly if every step meets it. -/
theorem always_iff_everyStep {condition : σ → ι → Prop} {invariant property : σ → Prop}
    (preserved : ∀ state input, invariant state → invariant (execute state input))
    (kept : ∀ state input, invariant state → property state →
      (property (execute state input) ↔ condition state input))
    {start : σ} {inputs : List ι} (initially : invariant start) (holds : property start) :
    (∀ earlier, earlier <+: inputs → property (run execute start earlier)) ↔
      EveryStep execute condition start inputs := by
  induction inputs generalizing start with
  | nil =>
    refine ⟨fun _ => trivial, fun _ earlier isPrefix => ?_⟩
    rw [List.prefix_nil.mp isPrefix]
    exact holds
  | cons input rest ih =>
    have next := preserved start input initially
    constructor
    · intro always
      have first : property (execute start input) := always [input] ⟨rest, rfl⟩
      refine ⟨(kept start input initially holds).mp first, ?_⟩
      exact (ih next first).mp fun earlier isPrefix =>
        always (input :: earlier) (List.cons_prefix_cons.mpr ⟨rfl, isPrefix⟩)
    · rintro ⟨now, later⟩ earlier isPrefix
      have first := (kept start input initially holds).mpr now
      cases earlier with
      | nil => exact holds
      | cons other earlier =>
        obtain ⟨rfl, inside⟩ := List.cons_prefix_cons.mp isPrefix
        exact (ih next first).mpr later earlier inside

/-- The relation rule: under an invariant, what one step relates the ends of a
run are related by. -/
theorem run_relation {invariant : σ → Prop} {relation : σ → σ → Prop}
    (preserved : ∀ state input, invariant state → invariant (execute state input))
    (reflexive : ∀ state, relation state state)
    (transitive : ∀ {first second third}, relation first second →
      relation second third → relation first third) (related : ∀ state input, invariant state →
      relation state (execute state input))
    {start : σ} (initially : invariant start) (inputs : List ι) :
    relation start (run execute start inputs) := by
  induction inputs generalizing start with
  | nil => exact reflexive start
  | cons input rest ih =>
    exact transitive (related start input initially) (ih (preserved start input initially))

/-! ## How often a property becomes true -/

/-- The number of steps of the run that make the property true. -/
def risings (execute : σ → ι → σ) (property : σ → Prop) [DecidablePred property] :
    σ → List ι → Nat
  | _, [] => 0
  | start, input :: rest =>
      (if ¬ property start ∧ property (execute start input) then 1 else 0) +
        risings execute property (execute start input) rest

/-- What stays true becomes true once at most. -/
theorem risings_le_one {invariant property : σ → Prop} [DecidablePred property]
    (preserved : ∀ state input, invariant state → invariant (execute state input))
    (stays : ∀ state input, invariant state → property state → property (execute state input))
    (initially : invariant start) (inputs : List ι) :
    risings execute property start inputs ≤ if property start then 0 else 1 := by
  induction inputs generalizing start with
  | nil => exact Nat.zero_le _
  | cons input rest ih =>
    have later := ih (preserved start input initially)
    rw [risings]
    by_cases now : property start
    · have next := stays start input initially now
      rw [if_pos next] at later
      rw [if_neg fun rises => rises.1 now, if_pos now]
      omega
    · rw [if_neg now]
      by_cases next : property (execute start input)
      · rw [if_pos next] at later
        rw [if_pos ⟨now, next⟩]
        omega
      · rw [if_neg next] at later
        rw [if_neg fun rises => next rises.2]
        omega

/-- A measure that grows by one at most, and only when the property becomes true,
grows no more often than that. -/
theorem measure_le_risings {invariant property : σ → Prop} [DecidablePred property]
    {measure : σ → Nat} (preserved : ∀ state input, invariant state →
      invariant (execute state input)) (grows : ∀ state input, invariant state →
      measure (execute state input) ≤ measure state +
        if ¬ property state ∧ property (execute state input) then 1 else 0)
    {start : σ} (initially : invariant start) (inputs : List ι) :
    measure (run execute start inputs) ≤ measure start + risings execute property start inputs := by
  induction inputs generalizing start with
  | nil => exact Nat.le_add_right _ _
  | cons input rest ih =>
    have later := ih (preserved start input initially)
    have now := grows start input initially
    rw [run_cons, risings]
    omega

end Runs

end Foundation
end Scrum4Me
