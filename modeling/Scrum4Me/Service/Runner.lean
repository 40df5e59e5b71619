import Mathlib.Algebra.Ring.Nat
import Scrum4Me.Foundation.Execution

/-!
# The tick runner

`createDispatchTickRunner`: copies of `drive` share three variables. A copy is
suspended while its tick is in flight, and again between the callback that clears
`running` and the continuation that looks at `pending`; calls of `run`, `wake` and
`stop` land anywhere in between.
-/

namespace Scrum4Me
namespace Service

open Foundation

/-- How a tick ended. -/
inductive Outcome
  | result
  | rejected
  deriving DecidableEq

/-- Where a copy of `drive` is suspended. -/
inductive Phase
  /-- Its tick has not settled. -/
  | inFlight
  /-- The tick has settled, the `finally` callback has not run. -/
  | settled (outcome : Outcome)
  /-- `running` is cleared, the continuation has not run. -/
  | cleared (outcome : Outcome)
  deriving DecidableEq

def Phase.Cleared : Phase → Prop
  | .cleared _ => True
  | _ => False

instance : DecidablePred Phase.Cleared
  | .inFlight => inferInstanceAs (Decidable False)
  | .settled _ => inferInstanceAs (Decidable False)
  | .cleared _ => inferInstanceAs (Decidable True)

structure Drive where
  tick : Nat
  phase : Phase
  deriving DecidableEq

/-- The variables of one runner, with its suspended copies of `drive` and the
promises of `stop` that have not resolved. -/
structure Runner where
  /-- The tick whose promise `running` is. -/
  running : Option Nat
  pending : Bool
  stopped : Bool
  drives : List Drive
  /-- The tick that each promise of `stop` waits for. -/
  stops : List (Option Nat)
  log : List Outcome
  /-- The ticks started so far. -/
  started : Nat
  /-- The wakes accepted since the last tick started. -/
  wakes : Nat
  deriving DecidableEq

namespace Runner

def start : Runner where
  running := none
  pending := false
  stopped := false
  drives := []
  stops := []
  log := []
  started := 0
  wakes := 0

/-- The body of the loop up to its `await`. -/
def startTick (runner : Runner) : Runner :=
  { runner with
    pending := false
    running := some runner.started
    drives := ⟨runner.started, .inFlight⟩ :: runner.drives
    started := runner.started + 1
    wakes := 0 }

/-- A call of `drive`. -/
def drive (runner : Runner) : Runner :=
  if runner.stopped = true ∨ runner.running ≠ none then runner
  else runner.startTick

inductive Step
  | run
  | wake
  | stop
  /-- The promise of the tick settles. -/
  | settle (tick : Nat) (outcome : Outcome)
  /-- The `finally` callback runs. -/
  | clear (drive : Drive)
  /-- The continuation runs. -/
  | resume (drive : Drive)
  /-- A promise that `stop` returned resolves. -/
  | drained (waited : Option Nat)
  deriving DecidableEq

/-- The promise that `stop` took is settled. -/
def Drained (runner : Runner) (waited : Option Nat) : Prop :=
  ∀ drive ∈ runner.drives, waited = some drive.tick → drive.phase.Cleared

instance (runner : Runner) (waited : Option Nat) :
    Decidable (runner.Drained waited) :=
  inferInstanceAs (Decidable (∀ _ ∈ _, _))

def execute (runner : Runner) : Step → Runner
  | .run => runner.drive
  | .wake =>
      if runner.stopped = true then runner
      else { runner with pending := true, wakes := runner.wakes + 1 }.drive
  | .stop =>
      { runner with stopped := true, stops := runner.running :: runner.stops }
  | .settle tick outcome =>
      { runner with
        drives := runner.drives.map fun drive =>
          if drive = ⟨tick, .inFlight⟩ then ⟨tick, .settled outcome⟩ else drive }
  | .clear ⟨tick, .settled outcome⟩ =>
      if ⟨tick, .settled outcome⟩ ∈ runner.drives then
        -- whatever tick `running` is by now
        { runner with
          running := none
          drives := ⟨tick, .cleared outcome⟩ ::
            runner.drives.erase ⟨tick, .settled outcome⟩ }
      else runner
  | .clear _ => runner
  | .resume ⟨tick, .cleared outcome⟩ =>
      if ⟨tick, .cleared outcome⟩ ∈ runner.drives then
        let resumed :=
          { runner with
            drives := runner.drives.erase ⟨tick, .cleared outcome⟩
            log := outcome :: runner.log }
        if runner.pending = true ∧ runner.stopped = false then resumed.startTick
        else resumed
      else runner
  | .resume _ => runner
  | .drained waited =>
      if waited ∈ runner.stops ∧ runner.Drained waited then
        { runner with stops := runner.stops.erase waited }
      else runner

end Runner

end Service
end Scrum4Me
